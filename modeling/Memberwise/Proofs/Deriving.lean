import Memberwise.Proofs.DeclaredNames
import Memberwise.Proofs.Indexing
import Memberwise.Proofs.Members

/-!
# Memberwise.Proofs.Deriving — deriving and describing agree on options

The options of a field are read twice. Where a declaration is derived, options that cannot be read
are a fault (`structOptions?`), and so is a field that is both skipped and nullable (`checkDerive`).
Where the declaration is described, options that cannot be read are reported and count as none.

If a declaration passes the checks, the options of each of its fields are read
(`structOptions?_eq_some`), so describing it reports none of them (`keepsOptions_describe`). Fields
in braces have names, whatever the source (`StructAt.fieldsNamed`), so each that is not skipped
becomes a member (`derived_struct_described`).
-/

namespace Memberwise

open Source

namespace Source

/-! ## Fields in braces have names -/

/-- Every field in braces has a name. -/
def StructItem.FieldsNamed (s : StructItem) : Prop :=
  ∀ f ∈ s.fields.namedList, ∃ i, f.name = some i

/-- The field has a name, which occurs in the tokens. -/
def Field.NamedIn (all : List TokenTree) (f : Field) : Prop := ∃ i, f.name = some i ∧ OccursIn i all

/-- Every field in braces has a name that occurs in the tokens. -/
def StructItem.FieldsNamedIn (all : List TokenTree) (s : StructItem) : Prop :=
  ∀ f ∈ s.fields.namedList, f.NamedIn all

/-- A name in a group is a name in the tokens around it. -/
theorem Field.NamedIn.of_group {all body : List TokenTree} {d : Delimiter} {f : Field}
    (hbody : .group d body ∈ all) (h : f.NamedIn body) : f.NamedIn all :=
  h.imp fun _ hi => ⟨hi.1, .inside hbody hi.2⟩

section

variable {all : List TokenTree} (r : Rules) [r.Forward]

/-- A field is named by one of the tokens. -/
theorem yields_namedFieldAfter (fields : Reader Unit) [Forward fields] (attrs : List Meta) :
    Yields all (namedFieldAfter r fields attrs) (Field.NamedIn all) := by
  refine Yields.after fun _ => Yields.after fun anonymous => ?_
  -- Both ways to read the name go on in the same way.
  cases anonymous with
  | true =>
    refine Yields.anyIdent.bind fun i hi => Yields.after fun _ => Yields.after fun _ => ?_
    refine Yields.ite ?_ ?_
    · exact Yields.after fun _ => Yields.pure ⟨i, rfl, .token hi⟩
    · exact Yields.after fun _ => Yields.pure ⟨i, rfl, .token hi⟩
  | false =>
    refine Yields.name.bind fun i hi => Yields.after fun _ => Yields.after fun _ => ?_
    exact Yields.after fun _ => Yields.pure ⟨i, rfl, .token hi.1⟩

/-- Every field of the loop is named by one of the tokens. -/
theorem yields_namedFieldsLoop (fuel : Nat) :
    Yields all (namedFieldsLoop r fuel) fun fields => ∀ f ∈ fields, f.NamedIn all := by
  cases fuel with
  | zero => exact Yields.failure
  -- One step of fuel goes into the braces, where the fields are.
  | succ fuel =>
    have hbody : ∀ body, .group .brace body ∈ all → Yields body
        (commaList do
          let attrs ← attributes r
          namedFieldAfter r (discard <| namedFieldsLoop r fuel) attrs)
        fun fields => ∀ f ∈ fields.1, f.NamedIn all := by
      intro body hbody c fields c' hc hread f hf
      have hfields := Yields.commaList (Yields.after fun attrs => yields_namedFieldAfter r _ attrs)
        c fields c' hc hread
      exact (hfields f hf).of_group hbody
    exact Yields.bind (Yields.group hbody) fun _ h => Yields.pure h

/-- A struct is read with names for its fields in braces, which occur in its tokens. -/
theorem yields_fieldsNamedIn (attrs : List Meta) :
    Yields all (structAfter r attrs) (StructItem.FieldsNamedIn all) := by
  refine Yields.after fun _ => Yields.after fun i => Yields.after fun params => ?_
  refine Yields.after fun _ => Yields.after fun ts => Yields.ite ?_ (Yields.ite ?_ ?_)
  · refine Yields.after fun _ => Yields.after fun _ => Yields.after fun _ => Yields.pure ?_
    intro f hf
    cases hf
  · have hfields : Yields all (namedFields r) fun fields => ∀ f ∈ fields, f.NamedIn all :=
      Yields.after fun _ => yields_namedFieldsLoop r _
    exact hfields.bind fun fields h => Yields.pure h
  · refine Yields.after fun _ => Yields.pure ?_
    intro f hf
    cases hf

end

/-! ## What holds of the structs that are read -/

/-- Every struct in the item, at any depth, has the property. -/
def Item.EachStruct (P : StructItem → Prop) (item : Item) : Prop :=
  ∀ scope, ∀ e ∈ structsOf scope item, P e.2.item

/-- What holds of every struct that is read, and of the tokens that it is read from, holds of every
struct in the content of a module, provided that it goes over from the content of a group to the
tokens around it. -/
theorem yields_eachStruct {P : List TokenTree → StructItem → Prop}
    (hgroup : ∀ all d body s, .group d body ∈ all → P body s → P all s)
    (hstruct : ∀ depth all attrs, Yields all (structAfter (rules depth) attrs) (P all))
    (depth : Nat) (all : List TokenTree) :
    Yields all (rules depth).items fun items => ∀ item ∈ items, item.EachStruct (P all) := by
  -- Induction on the depth of the rules: a module's structs lie one level deeper, in its group.
  induction depth generalizing all with
  | zero => exact Yields.failure
  | succ depth ih =>
    have hplain : ∀ item : Item, item.nameParts = [] → item.EachStruct (P all) := by
      intro item hnone scope e he
      rcases mem_structsOf_iff.mp he with ⟨s, rfl, -⟩ | ⟨i, items, rfl, -⟩
      · simp [Item.nameParts] at hnone
      · simp [Item.nameParts] at hnone
    have hmodule : Yields all (moduleAfter (rules depth)) (Item.EachStruct (P all)) := by
      refine yields_moduleAfter _ hplain fun i _ body hbody c items c' hc hread scope e he => ?_
      rcases mem_structsOf_iff.mp he with ⟨s, hs, -⟩ | ⟨j, inner, heq, he⟩
      · cases hs
      · cases heq
        obtain ⟨k, item, position, hitem, hmem, -⟩ := mem_structsFrom_iff.mp he
        -- What holds of a struct within the body is carried out to the tokens around it.
        refine hgroup all _ body _ hbody ?_
        exact ih body c items c' hc hread item (List.mem_of_getElem? hitem) _ (position, e.2) hmem
    refine Yields.many (Yields.after fun attrs => yields_itemAfter _ hplain hmodule ?_) _
    intro c s c' hc hread scope e he
    rcases mem_structsOf_iff.mp he with ⟨s', hs, rfl⟩ | ⟨i, items, hs, -⟩
    · cases hs
      exact hstruct depth all attrs c s c' hc hread
    · cases hs

end Source

/-- The fields in braces of every struct of a file have names, which are words that the file spells
out. -/
theorem StructAt.fieldsLexical {text : String} {items : List Item}
    (hparse : parseFile text = some items) {root : Scope} {position : List Nat} {d : Candidate}
    (hat : StructAt root items position d) :
    ∀ f ∈ d.item.fields.namedList, ∃ i, f.name = some i ∧ i.Lexical := by
  obtain ⟨tokens, hlex, hread⟩ := Option.bind_eq_some_iff.mp hparse
  have hyields : Yields tokens (do innerAttributes (rulesFor tokens); (rulesFor tokens).items)
      fun items => ∀ item ∈ items, item.EachStruct (StructItem.FieldsNamedIn tokens) :=
    Yields.after fun _ => yields_eachStruct
      -- A field named inside a group is named in the tokens around it.
      (fun _ _ _ _ hbody h f hf => (h f hf).of_group hbody)
      (fun _ _ attrs => yields_fieldsNamedIn _ attrs) _ tokens
  have hitems := Yields.readTokens (p := fun r => do innerAttributes r; r.items) hyields hread
  obtain ⟨k, item, rest, hitem, hmem, -⟩ :=
    mem_structsFrom_iff.mp (mem_structsFrom_zero_iff.mpr hat)
  have hfields := hitems item (List.mem_of_getElem? hitem) _ _ hmem
  intro f hf
  obtain ⟨i, hname, hoccurs⟩ := hfields f hf
  exact ⟨i, hname, Token.lexical_of_lex hlex i hoccurs⟩

/-! ## Deriving -/

/-- A declaration passes the checks if the options of all its fields are read and no field is both
skipped and nullable. -/
theorem checkDerive_eq_ok_iff {s : StructItem} :
    checkDerive (.struct s) = .ok () ↔
      ∃ reads, structOptions? s = some reads ∧
        ∀ e ∈ reads, ¬ (e.2.skip && e.2.nullable) = true := by
  cases hreads : structOptions? s with
  | none => simp [checkDerive, hreads]
  | some reads =>
    simp only [checkDerive, hreads, Option.some.injEq, exists_eq_left', ← List.filter_eq_nil_iff]
    -- A marked field that is skipped is what the derive refuses.
    constructor
    · intro h
      split at h
      · assumption
      · cases h
    · intro h
      simp only [h]

/-- The options of a field can be read. -/
def OptionsKept (f : Field) : Prop := FieldOptions.read? f.attributes = some (readOptions f).value

/-- Options that are read are kept. -/
theorem optionsKept_of_read? {f : Field} {o : FieldOptions}
    (h : FieldOptions.read? f.attributes = some o) : OptionsKept f ∧ (readOptions f).value = o := by
  simp [OptionsKept, readOptions, h]

/-- Reading the options of a field says nothing if they can be read. -/
theorem OptionsKept.readOptions_eq {f : Field} (h : OptionsKept f) :
    readOptions f = pure (readOptions f).value := by
  conv_lhs => rw [readOptions, h]

/-- If the options of all fields are read, they are those that are found where the fields are
described. -/
theorem optionsKept_of_mapM {fields : List Field} {reads : List (Option Ident × FieldOptions)}
    (h : (fields.mapM fun f => do return (f.name, ← FieldOptions.read? f.attributes)) =
      some reads) :
    (∀ f ∈ fields, OptionsKept f) ∧
      reads = fields.map fun f => (f.name, (readOptions f).value) := by
  -- Induction on the fields; one unreadable field fails the whole reading.
  induction fields generalizing reads with
  | nil =>
    cases h
    exact ⟨by simp, rfl⟩
  | cons f fs ih =>
    rw [List.mapM_cons] at h
    obtain ⟨e, hfirst, h⟩ := Option.bind_eq_some_iff.mp h
    obtain ⟨tail, hrest, h⟩ := Option.bind_eq_some_iff.mp h
    obtain ⟨o, hread, he⟩ := Option.bind_eq_some_iff.mp hfirst
    cases h
    cases he
    obtain ⟨hkept, hvalue⟩ := optionsKept_of_read? hread
    obtain ⟨hall, htail⟩ := ih hrest
    exact ⟨List.forall_mem_cons.mpr ⟨hkept, hall⟩, by rw [List.map_cons, hvalue, htail]⟩

/-- The options of a struct are those of its fields, and all of them are read. -/
theorem structOptions?_eq_some {s : StructItem} {fields : List Field}
    (hfields : s.fields = .named fields) {reads : List (Option Ident × FieldOptions)}
    (h : structOptions? s = some reads) :
    (∀ f ∈ fields, OptionsKept f) ∧
      reads = fields.map fun f => (f.name, (readOptions f).value) := by
  obtain ⟨own, -, h⟩ := Option.bind_eq_some_iff.mp h
  obtain ⟨-, -, h⟩ := Option.bind_eq_some_iff.mp h
  rw [hfields] at h
  exact optionsKept_of_mapM h

/-! ## Describing -/

namespace Traced

variable {α β : Type}

/-- No options are ignored on the way to the value. -/
def KeepsOptions (x : Traced α) : Prop := ∀ field, Event.optionsIgnored field ∉ x.events

/-- A value that is given at once reports nothing. -/
theorem keepsOptions_pure (a : α) : (pure a : Traced α).KeepsOptions := fun _ => List.not_mem_nil

/-- No options are ignored in two steps if none are in either. -/
theorem KeepsOptions.bind {x : Traced α} {f : α → Traced β} (hx : x.KeepsOptions)
    (hf : (f x.value).KeepsOptions) : (x >>= f).KeepsOptions := by
  intro field hmem
  rcases List.mem_append.mp hmem with hmem | hmem
  · exact hx field hmem
  · exact hf field hmem

/-- Another report ignores no options. -/
theorem keepsOptions_report {e : Event} (h : ∀ field, e ≠ .optionsIgnored field) :
    (report e).KeepsOptions := by
  intro field hmem
  exact h field (List.mem_singleton.mp hmem).symm

end Traced

section

variable (t : SymbolTable) (marks : Bool) (c : Config) (d : Candidate)

/-- Looking for the mark of a field ignores no options that are kept. -/
theorem keepsOptions_mark {f : Field} (h : OptionsKept f) :
    ((Semantics.ofTable t marks).mark f).KeepsOptions := by
  cases marks with
  | false => exact Traced.keepsOptions_pure _
  | true =>
    have hmark : (Semantics.ofTable t true).mark f = pure (markOf (readOptions f).value) := by
      show markOf <$> readOptions f = _
      rw [h.readOptions_eq]
      rfl
    rw [hmark]
    exact Traced.keepsOptions_pure _

/-- Describing a field ignores no options that are kept. -/
theorem keepsOptions_describeField {f : Field} (h : OptionsKept f) :
    (describeField (.ofTable t marks) c d f).KeepsOptions := by
  unfold describeField
  split
  · exact Traced.keepsOptions_pure _
  · rw [h.readOptions_eq, pure_bind]
    split
    · exact (Traced.keepsOptions_report (by simp)).bind (Traced.keepsOptions_pure _)
    · refine (keepsOptions_mark t marks h).bind ?_
      split
      · exact Traced.keepsOptions_pure _
      · exact (Traced.keepsOptions_report (by simp)).bind (Traced.keepsOptions_pure _)

/-- Describing fields ignores no options that are kept. -/
theorem keepsOptions_describeFields {fields : List Field} (h : ∀ f ∈ fields, OptionsKept f) :
    (describeFields (.ofTable t marks) c d fields).KeepsOptions := by
  induction fields with
  | nil => exact Traced.keepsOptions_pure _
  | cons f fs ih =>
    obtain ⟨hf, hfs⟩ := List.forall_mem_cons.mp h
    refine (keepsOptions_describeField t marks c d hf).bind ?_
    exact (ih hfs).bind (Traced.keepsOptions_pure _)

/-- Describing a struct ignores no options that are kept. -/
theorem keepsOptions_describe (h : ∀ f ∈ d.item.fields.namedList, OptionsKept f) :
    (describe (.ofTable t marks) c d).KeepsOptions := by
  refine (keepsOptions_describeFields t marks c d h).bind ?_
  exact (Traced.keepsOptions_report (by simp)).bind (Traced.keepsOptions_pure _)

end

/-! ## Agreement -/

/-- The fields in braces of every struct of a file have names. -/
theorem StructAt.fieldsNamed {text : String} {items : List Item}
    (hparse : parseFile text = some items) {root : Scope} {position : List Nat} {d : Candidate}
    (hat : StructAt root items position d) : d.item.FieldsNamed := by
  intro f hf
  obtain ⟨i, hname, -⟩ := hat.fieldsLexical hparse f hf
  exact ⟨i, hname⟩

/-- A field in braces with its name and with the options that are read where it is derived. -/
structure DerivedField where
  field : Field
  name : Ident
  options : FieldOptions

/-- The rows of fields that all have names. -/
theorem exists_derivedFields {fields : List Field} (h : ∀ f ∈ fields, ∃ i, f.name = some i) :
    ∃ rows : List DerivedField, rows.map (·.field) = fields ∧
      ∀ r ∈ rows, r.field.name = some r.name ∧ r.options = (readOptions r.field).value := by
  induction fields with
  | nil => exact ⟨[], rfl, by simp⟩
  | cons f fs ih =>
    obtain ⟨⟨i, hname⟩, hfs⟩ := List.forall_mem_cons.mp h
    obtain ⟨rows, hrows, hall⟩ := ih hfs
    refine ⟨⟨f, i, (readOptions f).value⟩ :: rows, by rw [List.map_cons, hrows], ?_⟩
    exact List.forall_mem_cons.mpr ⟨⟨hname, rfl⟩, hall⟩

/-- The fields that become members are those that the options do not skip. -/
theorem memberFields_map_field {rows : List DerivedField}
    (h : ∀ r ∈ rows, r.field.name = some r.name ∧ r.options = (readOptions r.field).value) :
    memberFields (rows.map (·.field)) =
      (rows.filter fun r => !r.options.skip).map fun r => (r.name, r.field) := by
  rw [memberFields, List.filterMap_map, ← List.filterMap_eq_map, List.filterMap_filter]
  refine List.filterMap_congr fun r hr => ?_
  obtain ⟨hname, hoptions⟩ := h r hr
  cases hskip : r.options.skip with
  | true => simp [← hoptions, hskip]
  | false => simp [← hoptions, hskip, hname]

/-- A member has the names of its field. -/
theorem memberOf_name (m : Semantics) (c : Config) (scope : Scope) (e : Ident × Field) :
    (memberOf m c scope e).name = e.1.name ∧ (memberOf m c scope e).fieldIdent = e.1.text := by
  unfold memberOf
  split
  · exact ⟨rfl, rfl⟩
  · exact ⟨rfl, rfl⟩

/-- A struct with fields in braces that a scan finds, and that can be derived, is described with the
options that are read where it is derived: its members are the fields that these do not skip, once
each and in order, by their names without `r#` and as they are written; no options are ignored; and
where marks are looked at, the fields that these make nullable are marked, and no others. -/
theorem derived_struct_described {source : String} {items : List Item}
    (hparse : parseFile source = some items) (t : SymbolTable) (marks : Bool) (c : Config)
    (root : Scope) {d : Candidate}
    (hfound : d ∈ (scan (.ofTable t marks) c root items).value) {fields : List Field}
    (hfields : d.item.fields = .named fields) (hderive : checkDerive (.struct d.item) = .ok ()) :
    let m := Semantics.ofTable t marks
    ∃ rows : List DerivedField,
      rows.map (·.field) = fields ∧
      structOptions? d.item = some (rows.map fun r => (r.field.name, r.options)) ∧
      (describe m c d).value.members =
        (rows.filter fun r => !r.options.skip).map (fun r =>
          memberOf m c d.scope (r.name, r.field)) ∧
      (describe m c d).value.members.map (fun x => (x.name, x.fieldIdent)) =
        (rows.filter fun r => !r.options.skip).map (fun r => (r.name.name, r.name.text)) ∧
      (∀ field, .optionsIgnored field ∉ (describe m c d).events) ∧
      ∀ r ∈ rows, r.field.name = some r.name ∧ ¬ (r.options.skip ∧ r.options.nullable) ∧
        (m.mark r.field).value =
          if marks then (if r.options.nullable then .marked else .unmarked) else .oblivious := by
  intro m
  rw [value_scan_selected] at hfound
  obtain ⟨e, he, rfl⟩ := List.mem_map.mp hfound
  have hat : StructAt root items e.1 e.2 := mem_structsFrom_zero_iff.mp (List.mem_filter.mp he).1
  have hlist : e.2.item.fields.namedList = fields := by rw [hfields]; rfl
  -- a file that is parsed has names for the fields in braces
  have hnamed : ∀ f ∈ fields, ∃ i, f.name = some i := by
    intro f hf
    exact hat.fieldsNamed hparse f (hlist ▸ hf)
  obtain ⟨reads, hreads, hconflict⟩ := checkDerive_eq_ok_iff.mp hderive
  obtain ⟨hkept, rfl⟩ := structOptions?_eq_some hfields hreads
  -- each field with its name and its options; all parts are read off from these rows
  obtain ⟨rows, rfl, hrows⟩ := exists_derivedFields hnamed
  have hmembers : (describe m c e.2).value.members =
      (rows.filter fun r => !r.options.skip).map fun r =>
        memberOf m c e.2.scope (r.name, r.field) := by
    rw [members_describe, hlist, memberFields_map_field hrows, List.map_map]
    rfl
  refine ⟨rows, rfl, ?_, hmembers, ?_, keepsOptions_describe t marks c e.2 (hlist ▸ hkept), ?_⟩
  · rw [hreads, List.map_map]
    refine congrArg some (List.map_congr_left fun r hr => ?_)
    rw [(hrows r hr).2]
    rfl
  · rw [hmembers, List.map_map]
    refine List.map_congr_left fun r _ => ?_
    obtain ⟨hname, hident⟩ := memberOf_name m c e.2.scope (r.name, r.field)
    exact Prod.ext hname hident
  · intro r hr
    obtain ⟨hname, hoptions⟩ := hrows r hr
    -- a field with both options would have been refused
    have hmem : (r.field.name, (readOptions r.field).value) ∈
        (rows.map (·.field)).map fun f => (f.name, (readOptions f).value) :=
      List.mem_map.mpr ⟨_, List.mem_map.mpr ⟨r, hr, rfl⟩, rfl⟩
    refine ⟨hname, ?_, ?_⟩
    · rw [hoptions, ← Bool.and_eq_true]
      exact hconflict _ hmem
    · rw [hoptions]
      cases marks with
      | false => rfl
      | true => rfl

/-- A struct with a field that is skipped and one that is nullable. -/
def optionedCard : String :=
  "#[crate::A] struct C \x7b #[property_map(skip)] n: u8, #[property_map(nullable)] r#fn: B \x7d"

theorem derived_struct_described_optionedCard :
    let c := { Config.default with qualifyingAnnotations := ["crate::A"] }
    ∃ items d fields, parseFile optionedCard = some items ∧
      let m := Semantics.ofTable (.ofItems ⟨[]⟩ items) true
      d ∈ (scan m c ⟨[]⟩ items).value ∧ d.item.fields = .named fields ∧
        checkDerive (.struct d.item) = .ok () ∧
        ∃ rows : List DerivedField,
          rows.map (·.field) = fields ∧
          rows.map (fun r => (r.field.name, r.options)) =
            [(some ⟨"n", false⟩, ⟨false, true⟩), (some ⟨"fn", true⟩, ⟨true, false⟩)] ∧
          (describe m c d).value.members.map (fun x => (x.name, x.fieldIdent)) =
            (rows.filter fun r => !r.options.skip).map (fun r => (r.name.name, r.name.text)) := by
  intro c
  have hrun : (parseFile optionedCard).any (fun items =>
      (scan (.ofTable (.ofItems ⟨[]⟩ items) true) c ⟨[]⟩ items).value.any fun d =>
        !d.item.fields.namedList.isEmpty && (checkDerive (.struct d.item)).isOk &&
          structOptions? d.item = some
            [(some ⟨"n", false⟩, ⟨false, true⟩), (some ⟨"fn", true⟩, ⟨true, false⟩)]) = true := by
    decide +kernel
  obtain ⟨items, hparse, hrun⟩ := Option.any_eq_true _ _ |>.mp hrun
  obtain ⟨d, hfound, hd⟩ := List.any_eq_true.mp hrun
  -- The check ran four tests together; they are taken apart here.
  rw [Bool.and_eq_true, Bool.and_eq_true] at hd
  obtain ⟨⟨hnamed, hok⟩, hread⟩ := hd
  obtain ⟨fields, hfields⟩ : ∃ fields, d.item.fields = .named fields := by
    cases hfields : d.item.fields with
    | named fields => exact ⟨fields, rfl⟩
    | _ =>
      rw [hfields] at hnamed
      cases hnamed
  have hderive : checkDerive (.struct d.item) = .ok () := by
    cases hderive : checkDerive (.struct d.item) with
    | ok => rfl
    | error =>
      rw [hderive] at hok
      cases hok
  obtain ⟨rows, hrows, hreads, -, hnames, -, -⟩ :=
    derived_struct_described hparse (.ofItems ⟨[]⟩ items) true c ⟨[]⟩ hfound hfields hderive
  have hshown := Option.some.inj (hreads.symm.trans (of_decide_eq_true hread))
  exact ⟨items, d, fields, hparse, hfound, hfields, hderive, rows, hrows, hshown, hnames⟩

end Memberwise
