import Memberwise.Proofs.Annotations
import Memberwise.Proofs.Members

/-!
# Memberwise.Proofs.Widening — settings that select more

The qualifying annotations are read in one place: where a leaf of an attribute is compared with
them. A leaf that qualifies still does so when there are more annotations (`LeafQualifies.mono`), so
every struct that is selected stays selected (`Candidate.Selected.mono`), and the structs that come
in addition stand between the others in the order of the source (`sublist_scan`). What a struct is
described as does not depend on the annotations at all (`describe_withAnnotations`).

So settings with more annotations give the same descriptors and perhaps others between them
(`more_annotations_only_add`). Adding annotations one by one gives such settings, and settings that
can be used if each of the annotations can (`validate_foldl_addQualifying`).
-/

namespace Memberwise

open Source

/-! ## Selection -/

section

variable {m : Semantics} {c e : Config} {scope : Scope}

theorem Config.qualifies_iff {path : String} :
    c.qualifies path = true ↔ path ∈ c.qualifyingAnnotations :=
  List.contains_iff_mem

variable (hmore : c.qualifyingAnnotations ⊆ e.qualifyingAnnotations)

include hmore

theorem LeafQualifies.mono {attr : Meta} (h : LeafQualifies m c scope attr) :
    LeafQualifies m e scope attr := by
  obtain ⟨p, path, hleaf, hpath, hqualifies⟩ := h
  have hmem : path ∈ c.qualifyingAnnotations := Config.qualifies_iff.mp hqualifies
  exact ⟨p, path, hleaf, hpath, Config.qualifies_iff.mpr (hmore hmem)⟩

theorem Candidate.Selected.mono {d : Candidate} (h : d.Selected m c) : d.Selected m e := by
  obtain ⟨attr, hattr, hdoc, hqualifies⟩ := h.annotated
  exact ⟨h.generics, attr, hattr, hdoc, hqualifies.mono hmore⟩

/-- With more annotations a scan finds the same structs in the same order, and perhaps others
between them. -/
theorem sublist_scan (root : Scope) (items : List Item) :
    (scan m c root items).value.Sublist (scan m e root items).value := by
  rw [value_scan_structsFrom m c root 0, value_scan_structsFrom m e root 0]
  apply List.monotone_filter_right
  intro d hselected
  exact isSelected_iff.mpr ((isSelected_iff.mp hselected).mono hmore)

end

/-! ## Settings -/

/-- Settings that select by other annotations. -/
def Config.withAnnotations (c : Config) (annotations : List String) : Config :=
  { c with qualifyingAnnotations := annotations }

section

variable (m : Semantics) (c : Config) (annotations : List String) (d : Candidate)

theorem describeFields_withAnnotations (fields : List Field) :
    describeFields m (c.withAnnotations annotations) d fields = describeFields m c d fields := by
  induction fields with
  | nil => rfl
  | cons f fs ih =>
    have hfield : describeField m (c.withAnnotations annotations) d f = describeField m c d f := rfl
    rw [describeFields, describeFields, hfield, ih]

/-- The annotations have no part in the description of a struct. -/
theorem describe_withAnnotations :
    describe m (c.withAnnotations annotations) d = describe m c d := by
  unfold describe
  simp only [describeFields_withAnnotations]

end

namespace Config

theorem addQualifying_eq (c : Config) (path : String) :
    ∃ annotations, c.addQualifying path = c.withAnnotations annotations ∧
      ∀ a, a ∈ annotations ↔ a ∈ c.qualifyingAnnotations ∨ a = path := by
  unfold addQualifying
  split
  · next h =>
    refine ⟨c.qualifyingAnnotations, rfl, fun a => ⟨Or.inl, ?_⟩⟩
    rintro (ha | rfl)
    · exact ha
    · exact qualifies_iff.mp h
  · refine ⟨c.qualifyingAnnotations ++ [path], rfl, fun a => ?_⟩
    rw [List.mem_append, List.mem_singleton]

/-- Adding annotations one by one changes no other setting. -/
theorem foldl_addQualifying_eq (c : Config) (added : List String) :
    ∃ annotations, added.foldl addQualifying c = c.withAnnotations annotations ∧
      ∀ a, a ∈ annotations ↔ a ∈ c.qualifyingAnnotations ∨ a ∈ added := by
  induction added generalizing c with
  | nil => exact ⟨c.qualifyingAnnotations, rfl, by simp⟩
  | cons path added ih =>
    obtain ⟨first, hfirst, hmemFirst⟩ := addQualifying_eq c path
    obtain ⟨all, hall, hmemAll⟩ := ih (c.addQualifying path)
    rw [hfirst] at hall hmemAll
    refine ⟨all, by rw [List.foldl_cons, hfirst, hall]; rfl, fun a => ?_⟩
    have hstep : a ∈ (c.withAnnotations first).qualifyingAnnotations ↔
        a ∈ c.qualifyingAnnotations ∨ a = path := hmemFirst a
    rw [hmemAll, hstep, List.mem_cons, or_assoc]

end Config

/-! ## Descriptions -/

/-- Under `e` a source has the descriptors that it has under `c`, in the same order, and perhaps
others between them; or it does not parse, which is the fault under both. -/
def OnlyAdds (c e : Config) (source origin : String) : Prop :=
  (∃ ds es, (describeSource c source origin).run.value = .ok ds ∧
      (describeSource e source origin).run.value = .ok es ∧ ds.Sublist es) ∨
    parseFile source = none ∧
      (describeSource c source origin).run.value = .error (.parse origin) ∧
      (describeSource e source origin).run.value = .error (.parse origin)

section

variable {c : Config} {annotations : List String}

theorem prepare_withAnnotations (hc : c.validate = .ok ())
    (he : (c.withAnnotations annotations).validate = .ok ()) (source origin : String) :
    prepare (c.withAnnotations annotations) source origin = prepare c source origin := by
  unfold prepare
  rw [hc, he]
  rfl

theorem sublist_describeItems (hmore : c.qualifyingAnnotations ⊆ annotations) (root : Scope)
    (items : List Item) :
    (describeItems c root items).value.Sublist
      (describeItems (c.withAnnotations annotations) root items).value := by
  let m := Semantics.ofTable (.ofItems root items) c.nullableAnnotations
  have hscan : (scan m c root items).value.Sublist
      (scan m (c.withAnnotations annotations) root items).value := sublist_scan hmore root items
  have hdescribe := hscan.map fun d => (describe m c d).value
  have hwith : (describeItems (c.withAnnotations annotations) root items).value =
      (scan m (c.withAnnotations annotations) root items).value.map
        fun d => (describe m (c.withAnnotations annotations) d).value :=
    value_describeItems (c.withAnnotations annotations) root items
  simp only [describe_withAnnotations] at hwith
  rw [value_describeItems, hwith]
  exact hdescribe

theorem onlyAdds_withAnnotations (hc : c.validate = .ok ())
    (he : (c.withAnnotations annotations).validate = .ok ())
    (hmore : c.qualifyingAnnotations ⊆ annotations) (source origin : String) :
    OnlyAdds c (c.withAnnotations annotations) source origin := by
  unfold OnlyAdds
  rw [value_describeSource, value_describeSource, prepare_withAnnotations hc he]
  obtain ⟨root, hprepare⟩ := prepare_of_valid hc source origin
  rw [hprepare]
  cases parseFile source with
  | none => exact Or.inr ⟨rfl, rfl, rfl⟩
  | some items =>
    exact Or.inl ⟨_, _, rfl, rfl, sublist_describeItems hmore root items⟩

end

/-- Selection is monotone in the annotations: settings that differ from others only in having more
qualifying annotations give the same descriptors, in the same order, and perhaps others between
them. So whatever annotations are added to settings one by one, declarations are only ever added;
and the new settings can be used if all these annotations are absolute paths. -/
theorem more_annotations_only_add (c : Config) (hc : c.validate = .ok ()) :
    (∀ e : Config, e.validate = .ok () → c.withAnnotations e.qualifyingAnnotations = e →
      c.qualifyingAnnotations ⊆ e.qualifyingAnnotations →
        ∀ source origin, OnlyAdds c e source origin) ∧
    ∀ added : List String,
      let e := added.foldl Config.addQualifying c
      (e.validate = .ok () ↔ ∀ a ∈ added, isAbsolutePath a = true) ∧
        (e.validate = .ok () → ∀ source origin, OnlyAdds c e source origin) := by
  constructor
  · intro e he hother hmore source origin
    rw [← hother] at he ⊢
    exact onlyAdds_withAnnotations hc he hmore source origin
  · intro added e
    -- Adding annotations one by one amounts to a configuration with more of them.
    obtain ⟨annotations, heq, hmem⟩ := c.foldl_addQualifying_eq added
    have hmore : c.qualifyingAnnotations ⊆ annotations := fun a ha => (hmem a).mpr (Or.inl ha)
    have he : e = c.withAnnotations annotations := heq
    rw [he]
    refine ⟨?_, fun hvalid => onlyAdds_withAnnotations hc hvalid hmore⟩
    obtain ⟨hmodule, hruntime, hsuffix, hsome, hall⟩ := Config.validate_eq_ok_iff.mp hc
    constructor
    · intro hvalid a ha
      exact (Config.validate_eq_ok_iff.mp hvalid).2.2.2.2 a ((hmem a).mpr (Or.inr ha))
    -- The other settings are not touched by adding, so only the annotations are to be checked.
    · intro hadded
      refine Config.validate_eq_ok_iff.mpr ⟨hmodule, hruntime, hsuffix, ?_, fun a ha => ?_⟩
      · exact fun hnil => hsome (List.eq_nil_of_subset_nil (hnil ▸ hmore))
      · rcases (hmem a).mp ha with ha | ha
        · exact hall a ha
        · exact hadded a ha

/-- Two structs that are annotated differently. -/
def twoMarks : String := "#[crate::A] struct Card; #[derive(crate::B)] struct Tag;"

theorem more_annotations_only_add_twoMarks :
    let c := Config.default.withAnnotations ["crate::A"]
    let e := c.withAnnotations ["crate::B", "crate::A"]
    c.validate = .ok () ∧ e.validate = .ok () ∧
      (["crate::B"].foldl Config.addQualifying c).validate = .ok () ∧
      c.qualifyingAnnotations ⊆ e.qualifyingAnnotations ∧
      ∃ ds es, (describeSource c twoMarks "two.rs").run.value = .ok ds ∧
        (describeSource e twoMarks "two.rs").run.value = .ok es ∧ ds.Sublist es ∧
        ds = [⟨"Card", "crate::Card", []⟩] ∧
        es = [⟨"Card", "crate::Card", []⟩, ⟨"Tag", "crate::Tag", []⟩] := by
  intro c e
  have hc : c.validate = .ok () := by decide +kernel
  have he : e.validate = .ok () := by decide +kernel
  have hmore : c.qualifyingAnnotations ⊆ e.qualifyingAnnotations := by decide +kernel
  have hcard : (describeSource c twoMarks "two.rs").run.value =
      .ok [⟨"Card", "crate::Card", []⟩] := by decide +kernel
  have hboth : (describeSource e twoMarks "two.rs").run.value =
      .ok [⟨"Card", "crate::Card", []⟩, ⟨"Tag", "crate::Tag", []⟩] := by decide +kernel
  obtain ⟨honly, hadded⟩ := more_annotations_only_add c hc
  refine ⟨hc, he, (hadded ["crate::B"]).1.mpr (by decide +kernel), hmore, ?_⟩
  -- The theorem leaves two outcomes, and the run of the first configuration excludes one.
  rcases honly e he rfl hmore twoMarks "two.rs" with ⟨ds, es, hds, hes, hsub⟩ | ⟨-, hfault, -⟩
  · cases hds.symm.trans hcard
    cases hes.symm.trans hboth
    exact ⟨_, _, hds, hes, hsub, rfl, rfl⟩
  · cases hfault.symm.trans hcard

end Memberwise
