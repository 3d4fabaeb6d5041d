import Memberwise.Proofs.Directness
import Memberwise.Proofs.Fitting
import Memberwise.Proofs.Leaves

/-!
# Memberwise.Proofs.Stability — when the text of a canonical type stands for it again

The text of a canonical type goes into generated code, so it should be read as a type that is
resolved to the same canonical form. Whether it is rests on the written type that spells the
canonical form out.

* Its names have to be readable: `crate::type` is the canonical path of a type `r#type`.
* Its bounds have to fit: no parentheses stand around `dyn A + B` behind `&`, `*` or `->`.
* Its paths have to be direct: a path through two facades is not, since only the first one is
  replaced.

A readable text is read as the type that spells it out exactly if the bounds fit
(`parseType_eq_some_iff`), and this type is resolved to what it spells out exactly if the paths are
direct (`resolve_eq_literal_iff`).
-/

namespace Memberwise

open Source

/-- The text of a type in canonical form is read as a type that is resolved to it again. -/
def SymbolTable.Stable (table : SymbolTable) (scope : Scope) (t : ResolvedType) : Prop :=
  ∃ ty, parseType t.text = some ty ∧ table.resolve scope ty = some t

/-- A readable text is read as the type that spells it out exactly if the bounds of this type
fit. -/
theorem parseType_eq_some_iff {w : SourceType} {t : ResolvedType} (hw : literal w = some t)
    (h : w.Canonical .readable) : parseType t.text = some w ↔ w.Fits true := by
  constructor
  · intro hparse
    exact fits_of_parseType hparse
  · intro hfits
    exact parseType_of_readable hw h hfits

/-- Every type that is resolved in a file is spelled out by a written type without aliases. If its
text is readable, it is read as this type exactly if the bounds fit, and then it is stable exactly
if the paths are direct. -/
theorem stable_iff_direct {root scope : Scope} {items : List Item} {ty : SourceType}
    {t : ResolvedType} (hkeeps : (SymbolTable.ofItems root items).KeepsPrimitives scope)
    (h : (SymbolTable.ofItems root items).resolve scope ty = some t) :
    (∃ w, literal w = some t ∧ w.Canonical (.unaliased (.ofItems root items))) ∧
      ∀ w, literal w = some t → w.Canonical (.unaliased (.ofItems root items)) →
        w.Canonical .readable →
          (parseType t.text = some w ↔ w.Fits true) ∧
          (w.Fits true →
            ((SymbolTable.ofItems root items).Stable scope t ↔ w.Canonical .direct)) := by
  constructor
  · refine exists_canonical_of_resolveIn _ maxSteps scope [] ty ?_ h
    intro name u hu
    cases hu
  intro w hw hunaliased hreadable
  refine ⟨parseType_eq_some_iff hw hreadable, ?_⟩
  intro hfits
  have hread : parseType t.text = some w := (parseType_eq_some_iff hw hreadable).mpr hfits
  rw [← resolve_eq_literal_iff hkeeps hw hunaliased]
  constructor
  -- a text is read as one type only
  · rintro ⟨ty', hparse, hresolve⟩
    rw [hread, Option.some.injEq] at hparse
    rwa [hparse]
  · intro hresolve
    exact ⟨w, hread, hresolve⟩

/-! ## A stable type -/

/-- A named type with types as arguments. -/
def namedType (absolute : Bool) (names : List String) (args : List SourceType) : SourceType :=
  .path (.mk absolute (segmentsOf
    (if args.isEmpty then .none else .angle false (args.map .type) false) names))

/-- The names of a file with a type `Row` and `type Rows<T> = [Vec<(T, [Row; 4])>];`. -/
def rowTable : SymbolTable :=
  .ofItems .root
    [.declared (.plain "Row"),
     .typeAlias (.plain "Rows") [.type (.plain "T")]
       (.slice (namedType false ["Vec"]
         [.tuple [namedType false ["T"] [],
           .array (namedType false ["Row"] []) [.literal "4"]] false]))]

/-- The canonical form of `&'a Rows<u8>`. -/
def rowsForm : ResolvedType :=
  .reference (some "'a") false (.slice (.path "::std::vec::Vec"
    [.type (.tuple [.path "u8" [] .value, .array (.path "crate::Row" [] .value) "4"])] .reference))

/-- The path `::std::vec::Vec` with its arguments in `rowsSpelled`. -/
def rowPath : SourcePath :=
  .mk true (segmentsOf (.angle false [.type (.tuple [namedType false ["u8"] [],
    .array (namedType false ["crate", "Row"] []) [.literal "4"]] false)] false)
    ["std", "vec", "Vec"])

/-- The type that spells out the canonical form of `&'a Rows<u8>`. -/
def rowsSpelled : SourceType := .reference (some (.plain "a")) false (.slice (.path rowPath))

theorem canonical_rowsSpelled {q : Leaves} (hlifetime : q.lifetime (.plain "a"))
    (hpath : q.typePath rowPath) (hprimitive : q.typePath (.mk false [.mk (.plain "u8") .none]))
    (hrow : q.typePath (.mk false [.mk (.plain "crate") .none, .mk (.plain "Row") .none]))
    (hlength : q.length [.literal "4"]) : rowsSpelled.Canonical q := by
  have hsegments : SegmentsCanonical q false
      [.mk (.plain "crate") .none, .mk (.plain "Row") .none] :=
    ⟨rfl, rfl, rfl, trivial⟩
  have hlast : (PathArguments.angle false [.type (.tuple [namedType false ["u8"] [],
      .array (namedType false ["crate", "Row"] []) [.literal "4"]] false)]
      false).Canonical q false :=
    ⟨rfl, rfl, by simp, ⟨rfl, ⟨hprimitive, rfl, trivial⟩, ⟨⟨hrow, hsegments⟩, hlength⟩, trivial⟩,
      trivial⟩
  refine ⟨fun i hi => ?_, hpath, rfl, rfl, rfl, rfl, rfl, hlast⟩
  cases hi
  exact hlifetime

theorem stable_rowsForm :
    rowTable.KeepsPrimitives .root ∧
      rowTable.resolve .root
        (.reference (some (.plain "a")) false
          (namedType false ["Rows"] [namedType false ["u8"] []])) =
          some rowsForm ∧
      rowTable.Stable .root rowsForm := by
  have hkeeps : rowTable.KeepsPrimitives .root := by
    unfold SymbolTable.KeepsPrimitives
    decide +kernel
  have hresolve : rowTable.resolve .root (.reference (some (.plain "a")) false
      (namedType false ["Rows"] [namedType false ["u8"] []])) = some rowsForm := rfl
  have hunaliased : rowsSpelled.Canonical (.unaliased rowTable) := by
    -- Three paths, one for each way a canonical path can be rooted.
    refine canonical_rowsSpelled trivial ⟨⟨rfl, ?_⟩, rfl⟩ ⟨⟨rfl, ?_⟩, rfl⟩ ⟨⟨rfl, ?_⟩, rfl⟩ trivial
    · exact Rooted.absolute "std::vec::Vec"
    · exact Rooted.root (show "u8" ∈ roots by decide)
    · exact Rooted.below (show "crate" ∈ roots by decide) "Row"
  have hfour : Token.LiteralText "4".toList := by decide
  have hreadable : rowsSpelled.Canonical .readable :=
    canonical_rowsSpelled (show Ident.Lexical _ by decide) (show ReadablePath _ by decide)
      (show ReadablePath _ by decide) (show ReadablePath _ by decide) (readable_literal hfour).1
  have hdirect : rowsSpelled.Canonical .direct :=
    canonical_rowsSpelled trivial (show NamePath.Direct _ by decide)
      (show NamePath.Direct _ by decide) (show NamePath.Direct _ by decide) trivial
  -- Nothing in the form is a bare object, so it stands wherever a type may.
  have hfits : rowsSpelled.Fits true := by
    simp [rowsSpelled, rowPath, segmentsOf, namedType, SourceType.Fits, SourcePath.Fits,
      SegmentsFit, PathArguments.Fits, ArgsFit, GenericArgument.Fits, TypesFit]
  exact ⟨hkeeps, hresolve, (((stable_iff_direct hkeeps hresolve).2 rowsSpelled rfl hunaliased
    hreadable).2 hfits).mpr hdirect⟩

/-! ## Types that are not stable -/

/-- The text of the type that the text of a type stands for. -/
def SymbolTable.restated? (table : SymbolTable) (scope : Scope) (t : ResolvedType) :
    Option String := do
  let ty ← parseType t.text
  return (← table.resolve scope ty).text

theorem SymbolTable.Stable.restated? {table : SymbolTable} {scope : Scope} {t : ResolvedType}
    (h : table.Stable scope t) : table.restated? scope t = some t.text := by
  rcases h with ⟨ty, hparse, hresolve⟩
  rw [SymbolTable.restated?, hparse]
  simp [hresolve]

/-- The names of a file with a type `r#type` and `use crate as here;`. -/
def slipTable : SymbolTable :=
  .ofItems .root [.declared ⟨"type", true⟩, .use false (.rename (.plain "crate") (.plain "here"))]

/-- Types whose canonical forms are not stable: `&(dyn Send + Sync)`, `r#type`, a path through two
facades, and `here<u8>`. -/
def slips : List SourceType :=
  [.reference none false (.paren (.traitObject true
     [.trait false false [] (.mk false [.mk (.plain "Send") .none]),
      .trait false false [] (.mk false [.mk (.plain "Sync") .none])] false)),
   .path (.mk false [.mk ⟨"type", true⟩ .none]),
   namedType true ["alloc", "collections", "btree_map", "BTreeMap"]
     [namedType false ["u8"] [], namedType false ["u8"] []],
   namedType false ["here"] [namedType false ["u8"] []]]

theorem not_stable_slips :
    slipTable.KeepsPrimitives .root ∧
      ∀ ty ∈ slips, ∃ t, slipTable.resolve .root ty = some t ∧ ¬slipTable.Stable .root t := by
  have hkeeps : slipTable.KeepsPrimitives .root := by
    unfold SymbolTable.KeepsPrimitives
    decide +kernel
  -- For each slip the text is read back and resolved again, and the result differs.
  have hslips : ∀ ty ∈ slips, ((slipTable.resolve .root ty).map fun t =>
      slipTable.restated? .root t == some t.text) = some false := by
    unfold slips
    decide +kernel
  refine ⟨hkeeps, fun ty hty => ?_⟩
  rcases Option.map_eq_some_iff.mp (hslips ty hty) with ⟨t, ht, hrestated⟩
  refine ⟨t, ht, fun hstable => ?_⟩
  rw [hstable.restated?, beq_self_eq_true] at hrestated
  cases hrestated

end Memberwise
