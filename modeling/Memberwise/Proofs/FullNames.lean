import Memberwise.Proofs.Annotations
import Memberwise.Proofs.Commands
import Memberwise.Proofs.DeclaredNames
import Memberwise.Proofs.Indexing
import Memberwise.Proofs.Insertion

/-!
# Memberwise.Proofs.FullNames — full names as paths

The full name of a struct is written as a path: the module path of the file, the modules around the
struct and its name, with colons between them. All of them are without `r#`, and a name that is a
word only with `r#` cannot be written so.

A text of names with colons between them is a path of these names if and only if each name is a word
that can stand in a path (`parsePath_names_iff`). Names of structs and modules are words; they can
stand in a path unless they are reserved (`standsInPath_name_iff`). So a full name is a path unless
a struct or a module around it is named by a raw keyword, or the module path of the file itself has
such a name (`fullName_path_iff`).
-/

namespace Memberwise

open Source Token

/-! ## Names that can stand in a path -/

/-- The name can stand in a path without `r#`. -/
def StandsInPath (name : String) : Prop :=
  IsWord name.toList ∧ isSegment (.plain name) = true

theorem mem_of_mem_nameTokens {i : Ident} {ids : List Ident} (h : .ident i ∈ nameTokens ids) :
    i ∈ ids := by
  induction ids with
  | nil => cases h
  | cons j more ih =>
    -- Between two names stand only colons, which are no identifiers.
    cases more with
    | nil => simpa [nameTokens] using h
    | cons next more =>
      rw [nameTokens, List.mem_cons, List.mem_append] at h
      rcases h with h | h | h
      · cases h
        exact List.mem_cons_self
      · simp [colons] at h
      · exact List.mem_cons_of_mem _ (ih h)

section

variable {all : List TokenTree} (r : Rules) [r.Forward]

theorem yields_pathSegment (inExpr : Bool) :
    Yields all (pathSegment r inExpr) fun s =>
      .ident s.name ∈ all ∧ isSegment s.name = true := by
  -- After its identifier a segment either takes arguments or ends.
  have hafter : ∀ i, .ident i ∈ all → isSegment i = true → Yields all (do
      if ← peek (atAngle inExpr) then return PathSegment.mk i (← angleArguments r)
      else return PathSegment.mk i .none)
      fun s => .ident s.name ∈ all ∧ isSegment s.name = true := by
    intro i hi hsegment
    refine Yields.after fun _ => Yields.ite (Yields.after fun _ => ?_) ?_
    · exact Yields.pure ⟨hi, hsegment⟩
    · exact Yields.pure ⟨hi, hsegment⟩
  -- Three ways to read the identifier: a lone word, `Self`, or any name.
  refine Yields.identWhere (fun i rest hi htest => ?_) ?_
  · have hlone : isLone i = true := htest
    exact Yields.pure ⟨hi, by simp [isSegment, PathSegment.name, hlone]⟩
  · refine Yields.identWhere (fun i rest hi htest => ?_) (Yields.name.bind fun i hi => ?_)
    · have hself : i.isWord "Self" = true := htest
      exact hafter i hi (by simp [isSegment, hself])
    · exact hafter i hi.1 (by simp [isSegment, hi.2])

theorem yields_sourcePath (inExpr : Bool) :
    Yields all (sourcePath r inExpr) fun p =>
      ∀ s ∈ p.segments, .ident s.name ∈ all ∧ isSegment s.name = true := by
  refine Yields.after fun _ => (yields_pathSegment r inExpr).bind fun first hfirst => ?_
  refine (Yields.many (Yields.after fun _ => yields_pathSegment r inExpr) _).bind
    fun rest hrest => Yields.pure ?_
  exact List.forall_mem_cons.mpr ⟨hfirst, hrest⟩

end

section

variable {names : List String}

theorem map_text_plain : (names.map Ident.plain).map Ident.text = names := by
  rw [List.map_map]
  exact List.map_id _

/-- Words with colons between them are read as the tokens of plain names. -/
theorem lex_words (hne : names ≠ []) (hwords : ∀ name ∈ names, IsWord name.toList) :
    lex ("::".intercalate names) = some (nameTokens (names.map Ident.plain)) := by
  have hlexical : ∀ i ∈ names.map Ident.plain, i.Lexical := by
    intro i hi
    obtain ⟨name, hname, rfl⟩ := List.mem_map.mp hi
    exact ⟨hwords name hname, nofun⟩
  have hends : EndsWord [] := nofun
  have hlexes := lexes_nameTokens (by simpa using hne) hlexical hends
  rw [map_text_plain] at hlexes
  exact lex_of_lexes hlexes

/-- The names of a path that is read from a text of names can stand in a path. They are words, since
they are read from tokens; hence all tokens of the text are known, and no name is raw. -/
theorem standsInPath_of_parsePath {p : SourcePath}
    (hparse : parsePath ("::".intercalate names) = some p) (hnames : p.names = names) :
    ∀ name ∈ names, StandsInPath name := by
  obtain ⟨tokens, htokens, hread⟩ := Option.bind_eq_some_iff.mp hparse
  have hsegments := Yields.readTokens (p := fun r => sourcePath r false)
    (yields_sourcePath _ false) hread
  have hsegment : ∀ name ∈ names, ∃ i : Ident, .ident i ∈ tokens ∧ isSegment i = true ∧
      i.name = name := by
    intro name hname
    rw [← hnames, SourcePath.names] at hname
    obtain ⟨s, hs, rfl⟩ := List.mem_map.mp hname
    exact ⟨s.name, (hsegments s hs).1, (hsegments s hs).2, rfl⟩
  have hwords : ∀ name ∈ names, IsWord name.toList := by
    intro name hname
    obtain ⟨i, hi, -, rfl⟩ := hsegment name hname
    exact (lexical_of_lex htokens i (.token hi)).1
  intro name hname
  refine ⟨hwords name hname, ?_⟩
  obtain ⟨i, hi, hisSegment, rfl⟩ := hsegment name hname
  -- The names have no marks, so the tokens are their plain identifiers.
  have hplain := lex_words (List.ne_nil_of_mem hname) hwords
  rw [Option.some.inj (htokens.symm.trans hplain)] at hi
  obtain ⟨plain, -, rfl⟩ := List.mem_map.mp (mem_of_mem_nameTokens hi)
  exact hisSegment

/-- A text of names with colons between them, the first of which is `crate`, is a path of these
names if and only if each of them can stand in a path. -/
theorem parsePath_names_iff (hcrate : names.head? = some "crate") :
    (∃ p, parsePath ("::".intercalate names) = some p ∧ p.names = names) ↔
      ∀ name ∈ names, StandsInPath name := by
  constructor
  · rintro ⟨p, hparse, hnames⟩
    exact standsInPath_of_parsePath hparse hnames
  · intro h
    -- The first name is `crate`, so there is at least one.
    have hne : names ≠ [] := by
      rintro rfl
      cases hcrate
    have hspells : SpellsPath false (namedPath false (names.map Ident.plain))
        (nameTokens (names.map Ident.plain)) := by
      refine ⟨?_, spellsSegments_nameTokens (by simpa using hne) fun i hi => ?_⟩
      · rw [List.head?_map, List.head?_map, hcrate]
        rfl
      · obtain ⟨name, hname, rfl⟩ := List.mem_map.mp hi
        exact (h name hname).2
    refine ⟨namedPath false (names.map Ident.plain), ?_, ?_⟩
    · rw [parsePath, readText, lex_words hne fun name hname => (h name hname).1]
      exact (reads_namedPath hspells _).run?
    · simp [namedPath, SourcePath.names, SourcePath.segments, PathSegment.name, Ident.plain,
        Function.comp_def]

end

/-! ## Names of structs and modules -/

/-- Nothing is named by the words that stand for modules or types in paths: they are reserved, and
cannot be raw. -/
theorem name_notMem_pathWords {i : Ident} (hlexical : i.Lexical)
    (hname : i.isName = true ∨ i.isWord "try" = true) : i.name ∉ pathWords := by
  have hwords : ∀ word ∈ pathWords, word ∈ neverRaw ∧ word ∈ Ident.reserved ∧ word ≠ "try" := by
    decide
  intro hmem
  obtain ⟨hnever, hreserved, htry⟩ := hwords i.name hmem
  rcases hname with hname | hname
  · rw [Ident.isName, Bool.or_eq_true] at hname
    rcases hname with hraw | hfree
    · exact hlexical.2 hraw hnever
    · simp [hreserved] at hfree
  · rw [Ident.isWord, Bool.and_eq_true, beq_iff_eq] at hname
    exact htry hname.2

/-- The name of a struct or module can stand in a path without `r#` unless it is reserved; of
reserved words, only `try` can. -/
theorem standsInPath_name_iff {i : Ident} (hlexical : i.Lexical)
    (hname : i.isName = true ∨ i.isWord "try" = true) :
    StandsInPath i.name ↔ i.name ∉ Ident.reserved ∨ i.name = "try" := by
  have hplain : (Ident.plain i.name).isName = true ↔ i.name ∉ Ident.reserved := by
    simp [Ident.isName, Ident.plain]
  have hword : ∀ word, (Ident.plain i.name).isWord word = true ↔ i.name = word := by
    simp [Ident.isWord, Ident.plain]
  -- The words that stand for a scope are no names, so they need not be considered.
  have hnone : i.name ∉ pathWords := name_notMem_pathWords hlexical hname
  have hsegment : isSegment (.plain i.name) = true ↔
      i.name ∉ Ident.reserved ∨ i.name = "try" := by
    rw [isSegment, isLone, Bool.or_eq_true, Bool.or_eq_true, List.any_eq_true, hplain, hword]
    constructor
    · rintro ((hfree | hself) | ⟨word, hlone, hlast⟩)
      · exact Or.inl hfree
      · exact absurd (hself ▸ by decide) hnone
      · have hwords : ∀ word ∈ loneWords, word ∈ pathWords ∨ word = "try" := by decide
        rw [hword] at hlast
        subst hlast
        exact Or.inr ((hwords _ hlone).resolve_left hnone)
    · rintro (hfree | htry)
      · exact Or.inl (Or.inl hfree)
      · exact Or.inr ⟨"try", by decide, (hword _).mpr htry⟩
  rw [StandsInPath, hsegment]
  exact ⟨And.right, fun h => ⟨hlexical.1, h⟩⟩

/-- The struct and the modules around it are named by identifiers of the file. -/
theorem StructAt.subset_namePartsIn {root : Scope} {items : List Item} {position : List Nat}
    {d : Candidate} (h : StructAt root items position d) :
    modulesOn items position ++ [d.item.name] ⊆ namePartsIn items := by
  -- Induction on the position: a module on the way adds its own name in front.
  induction h with
  | @here root items k s h =>
    have hstruct : s.name ∈ namePartsIn items :=
      mem_namePartsIn.mpr ⟨_, List.mem_of_getElem? h, by simp [Item.nameParts]⟩
    simpa [modulesOn, h] using hstruct
  | @inside root items inner k i position d h _ ih =>
    have hmodule : i :: namePartsIn inner ⊆ namePartsIn items := by
      intro j hj
      exact mem_namePartsIn.mpr ⟨_, List.mem_of_getElem? h, by rwa [Item.nameParts]⟩
    obtain ⟨hi, hinner⟩ := List.cons_subset.mp hmodule
    simp only [modulesOn, h, List.cons_append]
    exact List.cons_subset.mpr ⟨hi, List.Subset.trans ih hinner⟩

/-- The full name of a struct is a path of its parts if and only if the module path of the file can
be written so, and neither the struct nor a module around it has a reserved name, `try` apart. -/
theorem StructAt.parsePath_iff {source : String} {root : Scope} {items : List Item}
    {position : List Nat} {d : Candidate} (hparse : parseFile source = some items)
    (h : StructAt root items position d) :
    let segments := d.scope.segments ++ [d.item.name.name]
    (∃ p, parsePath ("::".intercalate segments) = some p ∧ p.names = segments) ↔
      (∀ name ∈ root.inner, StandsInPath name) ∧
        ∀ i ∈ modulesOn items position ++ [d.item.name],
          i.name ∉ Ident.reserved ∨ i.name = "try" := by
  intro segments
  have hcrate : StandsInPath "crate" := ⟨by decide, by decide⟩
  -- What was declared in the file is lexical already; only reserved words can fail.
  have hnames : ∀ i ∈ modulesOn items position ++ [d.item.name],
      (StandsInPath i.name ↔ i.name ∉ Ident.reserved ∨ i.name = "try") := by
    intro i hi
    obtain ⟨hlexical, hname⟩ := lexical_of_parseFile hparse i (h.subset_namePartsIn hi)
    exact standsInPath_name_iff hlexical hname
  have hsegments : segments = "crate" ::
      (root.inner ++ (modulesOn items position ++ [d.item.name]).map Ident.name) := by
    simp [segments, Scope.segments, h.inner_scope]
  rw [parsePath_names_iff rfl, hsegments, List.forall_mem_cons, List.forall_mem_append,
    List.forall_mem_map]
  constructor
  · rintro ⟨-, hroot, hrest⟩
    exact ⟨hroot, fun i hi => (hnames i hi).mp (hrest i hi)⟩
  · rintro ⟨hroot, hrest⟩
    exact ⟨hcrate, hroot, fun i hi => (hnames i hi).mpr (hrest i hi)⟩

/-- A source is not described, or the full name of each struct that is found in it is made of the
module path of the file, the modules around the struct and its name, with colons between them. This
is a path of these names exactly if none of them is a keyword or another text that cannot stand in a
path: names of structs and modules are written without `r#`, also those that need it. -/
theorem fullName_path_iff (c : Config) (source origin : String) :
    (∃ fault, prepare c source origin = .error fault ∧
      (describeSource c source origin).run.value = .error fault) ∨
    ∃ root items, prepare c source origin = .ok (root, items) ∧
      let m := Semantics.ofTable (.ofItems root items) c.nullableAnnotations
      ∃ rows : List ((List Nat × Candidate) × Descriptor),
        rows.map (·.1.2) = (scan m c root items).value ∧
        (describeSource c source origin).run.value = .ok (rows.map (·.2)) ∧
        ∀ row ∈ rows, match row with
          | ((position, d), x) =>
            let segments := d.scope.segments ++ [x.simpleName]
            StructAt root items position d ∧
            x.simpleName = d.item.name.name ∧
            x.fullName = "::".intercalate segments ∧
            ((∃ p, parsePath x.fullName = some p ∧ p.names = segments) ↔
              (∀ name ∈ root.inner, StandsInPath name) ∧
                ∀ i ∈ modulesOn items position ++ [d.item.name],
                  i.name ∉ Ident.reserved ∨ i.name = "try") := by
  rw [value_describeSource]
  cases hprepare : prepare c source origin with
  | error fault => exact Or.inl ⟨fault, rfl, rfl⟩
  | ok prepared =>
    obtain ⟨root, items⟩ := prepared
    refine Or.inr ⟨root, items, rfl, ?_⟩
    intro m
    have hparse : parseFile source = some items := parseFile_of_prepare hprepare
    -- the structs are listed with their positions, so that the modules around them are known
    let found := (structsFrom root 0 items).filter fun e => isSelected m c e.2
    have hscan : (scan m c root items).value = found.map Prod.snd :=
      value_scan_selected m c root items
    refine ⟨found.map fun e => (e, (describe m c e.2).value), ?_, ?_, ?_⟩
    · rw [hscan, List.map_map]
      rfl
    · have hvalue : (describeItems c root items).value =
          (scan m c root items).value.map fun d => (describe m c d).value :=
        value_describeItems c root items
      rw [hscan, List.map_map] at hvalue
      rw [List.map_map]
      exact congrArg Except.ok hvalue
    · intro row hrow
      obtain ⟨e, he, rfl⟩ := List.mem_map.mp hrow
      have hat : StructAt root items e.1 e.2 :=
        mem_structsFrom_zero_iff.mp (List.mem_filter.mp he).1
      have hfull := hat.fullName c c.nullableAnnotations
      refine ⟨hat, rfl, hfull, ?_⟩
      rw [hfull]
      exact hat.parsePath_iff hparse

/-- A struct that is named by a raw keyword is described with a full name that is no path. -/
theorem fullName_rawKeyword :
    (describeSource .default (derivingText "::propgroup::PropertyMap" ⟨"type", true⟩)
        "type.rs").run.value =
      .ok [⟨"type", "crate::type", [⟨"x", "x", "u8", true, .nonNullable⟩]⟩] ∧
    parsePath "crate::type" = none := by
  constructor
  · decide +kernel
  · rw [← Option.isNone_iff_eq_none]
    decide +kernel

end Memberwise
