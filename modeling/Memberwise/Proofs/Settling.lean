import Memberwise.Proofs.Declarations
import Memberwise.Proofs.Lookup
import Memberwise.Proofs.Resolution

/-!
# Memberwise.Proofs.Settling — answers in which the limits have no part

A look-up that runs out of steps gives no answer, and so does one that has too few steps left to
follow a glob. Where the missing answer is all there is, that is harmless. But a path whose first
name is not found leads into an external crate, and a name that one glob does not bring in may come
through the next one. There a look-up that was cut off passes for one that found nothing, and more
steps can change the answer: two imports that lead to each other give a different crate with each
further step, and a chain of globs gives way to another module (`cut_off_answers_change`).

A look-up *settles* if no cut-off has a part in its answer. Then more steps give the same answer
(`lookup_add_of_settles`), and likewise for paths and for types (`settled_answers_stay`).
-/

namespace Memberwise

open Source

/-- Whether everything up to the first path that brings something in is settled. -/
def settlesUpTo (brings : NamePath → Option String) (settled : NamePath → Bool) :
    List NamePath → Bool
  | [] => true
  | glob :: globs => settled glob && ((brings glob).isSome || settlesUpTo brings settled globs)

theorem findSome?_eq_of_settlesUpTo {brings brings' : NamePath → Option String}
    {settled : NamePath → Bool} (h : ∀ glob, settled glob = true → brings' glob = brings glob)
    {globs : List NamePath} (hglobs : settlesUpTo brings settled globs = true) :
    globs.findSome? brings' = globs.findSome? brings := by
  induction globs with
  | nil => rfl
  | cons glob globs ih =>
    rw [settlesUpTo, Bool.and_eq_true, Bool.or_eq_true] at hglobs
    -- The search stops at the first glob that brings something; all before it are settled.
    rcases hglobs with ⟨hglob, hrest⟩
    rw [List.findSome?_cons, List.findSome?_cons, h glob hglob]
    cases hbrings : brings glob with
    | some path => rfl
    | none =>
      rcases hrest with hsome | hmore
      · simp [hbrings] at hsome
      · exact ih hmore

namespace SymbolTable

/-! ## Names that nothing binds -/

/-- Whether a module of the file or a known external module gives a meaning to a name. -/
def binds (t : SymbolTable) (name : String) : Bool :=
  (t.modules.any fun entry => entry.2.declares name || (entry.2.import? name).isSome) ||
    knownModules.any fun entry => entry.2.contains name

variable {t : SymbolTable} {scope : Scope} {name : String}

theorem not_bound_of_binds_eq_false (h : t.binds name = false) {m : ModuleSymbols}
    (hm : t.module? scope = some m) : m.declares name = false ∧ m.import? name = none := by
  rw [binds, Bool.or_eq_false_iff, List.any_eq_false] at h
  have hentry := h.1 (scope, m) (mem_of_lookupLast hm)
  rw [Bool.not_eq_true, Bool.or_eq_false_iff] at hentry
  exact ⟨hentry.1, Option.isNone_iff_eq_none.mp (by simpa using hentry.2)⟩

theorem knownExport?_of_binds_eq_false (h : t.binds name = false) (module : String) :
    knownExport? module name = none := by
  rw [binds, Bool.or_eq_false_iff] at h
  cases hexports : knownModules.lookup module with
  | none => simp [knownExport?, hexports]
  | some exports =>
    rcases List.lookup_eq_some_iff.mp hexports with ⟨before, after, heq, -⟩
    have hnone := List.any_eq_false.mp h.2 (module, exports) (by simp [heq])
    simp only [knownExport?, hexports, Option.bind_eq_bind, Option.bind_some]
    exact if_neg hnone

/-- A name that nothing binds is found nowhere, whatever globs there are. -/
theorem lookup_of_binds_eq_false (h : t.binds name = false) (steps : Nat) (scope : Scope) :
    t.lookup steps scope name = none := by
  induction steps using Nat.strongRecOn generalizing scope with
  | ind steps ih =>
    cases hm : t.module? scope with
    | none => exact lookup_of_module?_eq_none hm steps
    | some m =>
      rcases not_bound_of_binds_eq_false h hm with ⟨hdeclares, himport⟩
      rcases Nat.lt_or_ge steps globSteps with hfew | hmany
      · exact lookup_unbound hm hdeclares himport (Or.inr hfew)
      · obtain ⟨k, rfl⟩ : ∃ k, steps = k + 2 := ⟨steps - 2, by unfold globSteps at hmany; omega⟩
        rw [lookup_globs hm hdeclares himport hmany, List.findSome?_eq_none_iff]
        intro glob _
        -- the module of a glob knows the name as little as an external one
        unfold viaGlob throughGlob
        cases canonicalWith (t.lookup (k + 1) scope) scope true glob with
        | none => rfl
        | some target =>
          have hexternal := knownExport?_of_binds_eq_false h target
          cases hparse : Scope.parse target with
          | none => simpa [hparse] using hexternal
          | some inner =>
            have hinner := ih k (by omega) inner
            simp [hparse, hexternal, hinner]

/-! ## Look-ups that settle -/

/-- The module of the file that a glob leads to. -/
def globTarget? (t : SymbolTable) (canonical : NamePath → Option String) (glob : NamePath) :
    Option Scope :=
  ((canonical glob).bind Scope.parse).filter fun inner => (t.module? inner).isSome

theorem throughGlob_congr {canonical canonical' : NamePath → Option String}
    {search search' : Scope → Option String} {glob : NamePath}
    (hcanonical : canonical' glob = canonical glob)
    (hsearch : ∀ inner, t.globTarget? canonical glob = some inner → search' inner = search inner) :
    t.throughGlob canonical' search' name glob = t.throughGlob canonical search name glob := by
  unfold throughGlob
  rw [hcanonical]
  cases htarget : canonical glob with
  | none => rfl
  | some target =>
    -- The inner search is asked only if the target names a module of the table.
    cases hparse : Scope.parse target with
    | none => simp [hparse]
    | some inner =>
      cases hinner : t.module? inner with
      | none => simp [hparse, hinner]
      | some m =>
        have hglob : t.globTarget? canonical glob = some inner := by
          simp [globTarget?, htarget, hparse, hinner]
        simp [hparse, hinner, hsearch inner hglob]

/-- Whether it is settled what a glob brings in: what its path stands for, and what the name means
in the module that it leads to. -/
def globSettles (t : SymbolTable) (find : String → Option String) (scope : Scope)
    (settled : String → Bool) (inside : Scope → Bool) (glob : NamePath) : Bool :=
  glob.lookedUp?.all settled && (t.globTarget? (canonicalWith find scope true) glob).all inside

/-- Whether no limit has a part in the answer of a look-up. The answer may be that the name is not
known. -/
def settles (t : SymbolTable) : Nat → Scope → String → Bool
  | 0, _, _ => false
  | 1, scope, name =>
    !t.binds name || (t.module? scope).all fun m =>
      m.declares name || ((m.import? name).isNone && m.globs.isEmpty)
  | steps + 2, scope, name =>
    !t.binds name || (t.module? scope).all fun m =>
      m.declares name ||
        match m.import? name with
        | some path => path.lookedUp?.all (t.settles (steps + 1) scope)
        | none =>
          m.globs.isEmpty || decide (globSteps ≤ steps + 2) &&
            settlesUpTo (t.viaGlob steps scope name)
              (t.globSettles (t.lookup (steps + 1) scope) scope (t.settles (steps + 1) scope)
                fun inner => t.settles steps inner name)
              m.globs

/-- The ways in which a look-up in a module can settle. -/
inductive SettlesIn (t : SymbolTable) (steps : Nat) (scope : Scope) (name : String)
    (m : ModuleSymbols) : Prop
  | declared (h : m.declares name = true)
  | imported (k : Nat) (path : NamePath) (hsteps : steps = k + 2)
      (hdeclares : m.declares name = false) (himport : m.import? name = some path)
      (hfirst : ∀ first, path.lookedUp? = some first → t.settles (k + 1) scope first = true)
  | unbound (hdeclares : m.declares name = false) (himport : m.import? name = none)
      (hglobs : m.globs = [])
  | globbed (k : Nat) (hsteps : steps = k + 2) (hmany : globSteps ≤ k + 2)
      (hdeclares : m.declares name = false) (himport : m.import? name = none)
      (hglobs : settlesUpTo (t.viaGlob k scope name)
        (t.globSettles (t.lookup (k + 1) scope) scope (t.settles (k + 1) scope)
          fun inner => t.settles k inner name) m.globs = true)

theorem settlesIn_of_settles {steps : Nat} (h : t.settles steps scope name = true)
    (hbinds : t.binds name = true) {m : ModuleSymbols} (hm : t.module? scope = some m) :
    t.SettlesIn steps scope name m := by
  -- With one step left, a name has to be declared here or be bound by nothing at all.
  match steps, h with
  | 1, h =>
    simp only [settles, hbinds, hm, Bool.not_true, Bool.false_or, Option.all_some, Bool.or_eq_true,
      Bool.and_eq_true] at h
    by_cases hdeclares : m.declares name = true
    · exact .declared hdeclares
    · rcases h with hdeclared | ⟨himport, hglobs⟩
      · exact absurd hdeclared hdeclares
      · exact .unbound (by simpa using hdeclares) (by simpa using himport) (by simpa using hglobs)
  | k + 2, h =>
    simp only [settles, hbinds, hm, Bool.not_true, Bool.false_or, Option.all_some,
      Bool.or_eq_true] at h
    by_cases hdeclares : m.declares name = true
    · exact .declared hdeclares
    · have hrest := h.resolve_left hdeclares
      have hdeclares : m.declares name = false := by simpa using hdeclares
      -- With two steps or more the import decides, and only without one are the globs searched.
      cases himport : m.import? name with
      | some path =>
        simp only [himport, Option.all_eq_true] at hrest
        exact .imported k path rfl hdeclares himport hrest
      | none =>
        simp only [himport, Bool.or_eq_true, Bool.and_eq_true, decide_eq_true_eq] at hrest
        rcases hrest with hglobs | ⟨hmany, hglobs⟩
        · exact .unbound hdeclares himport (by simpa using hglobs)
        · exact .globbed k rfl hmany hdeclares himport hglobs

/-- More steps do not change the answer of a look-up that settles. -/
theorem lookup_add_of_settles {steps : Nat} (h : t.settles steps scope name = true) (more : Nat) :
    t.lookup (steps + more) scope name = t.lookup steps scope name := by
  induction steps using Nat.strongRecOn generalizing scope name with
  | ind steps ih =>
    -- the paths of imports and globs are looked up with one step less
    have hpaths : ∀ k, steps = k + 2 → ∀ p : NamePath,
        (∀ first, p.lookedUp? = some first → t.settles (k + 1) scope first = true) →
          canonicalWith (t.lookup (k + more + 1) scope) scope true p =
            canonicalWith (t.lookup (k + 1) scope) scope true p := by
      intro k hk p hfirst
      apply canonicalWith_congr
      intro first hpath
      have hsame := ih (k + 1) (by omega) (hfirst first hpath)
      rwa [show k + 1 + more = k + more + 1 by omega] at hsame
    cases hbinds : t.binds name with
    | false => rw [lookup_of_binds_eq_false hbinds, lookup_of_binds_eq_false hbinds]
    | true =>
      cases hm : t.module? scope with
      | none => rw [lookup_of_module?_eq_none hm, lookup_of_module?_eq_none hm]
      | some m =>
        cases settlesIn_of_settles h hbinds hm with
        | declared hdeclares =>
          obtain ⟨k, rfl⟩ : ∃ k, steps = k + 1 := by
            cases steps with
            | zero => cases h
            | succ k => exact ⟨k, rfl⟩
          have hmore := lookup_declared hm hdeclares (k + more)
          rw [lookup_declared hm hdeclares k, ← hmore]
          congr 1
          omega
        | imported k path hsteps hdeclares himport hfirst =>
          subst hsteps
          have hmore := lookup_imported hm hdeclares himport (k + more)
          rw [show k + 2 + more = k + more + 2 by omega, hmore, hpaths k rfl path hfirst,
            lookup_imported hm hdeclares himport k]
        | unbound hdeclares himport hglobs =>
          rw [lookup_unbound hm hdeclares himport (Or.inl hglobs),
            lookup_unbound hm hdeclares himport (Or.inl hglobs)]
        | globbed k hsteps hmany hdeclares himport hglobs =>
          subst hsteps
          have hmore := lookup_globs hm hdeclares himport
            (show globSteps ≤ k + more + 2 by omega)
          have hsame : m.globs.findSome? (t.viaGlob (k + more) scope name) =
              m.globs.findSome? (t.viaGlob k scope name) := by
            refine findSome?_eq_of_settlesUpTo (fun glob hglob => ?_) hglobs
            simp only [globSettles, Bool.and_eq_true, Option.all_eq_true] at hglob
            rcases hglob with ⟨hpath, htarget⟩
            -- the glob leads to the same module, and the name means the same there
            apply throughGlob_congr
            · exact hpaths k rfl glob hpath
            · intro inner hinner
              exact ih k (by omega) (htarget inner hinner)
          rw [show k + 2 + more = k + more + 2 by omega, hmore, hsame,
            lookup_globs hm hdeclares himport hmany]

/-! ## Paths and types that settle -/

/-- Whether no limit has a part in what a path stands for. -/
def pathSettles (t : SymbolTable) (steps : Nat) (scope : Scope) (p : NamePath) : Bool :=
  p.lookedUp?.all (t.settles steps scope)

theorem canonical_add_of_pathSettles {steps : Nat} {alone : Bool} {p : NamePath} {path : String}
    (h : t.pathSettles steps scope p = true) (hpath : t.canonical steps scope alone p = some path)
    (more : Nat) : t.canonical (steps + more) scope alone p = some path := by
  cases steps with
  | zero => cases hpath
  | succ k =>
    rw [← hpath, show k + 1 + more = k + more + 1 by omega, canonical_succ, canonical_succ]
    apply canonicalWith_congr
    -- Only the path's first name is looked up, and its answer stays.
    intro first hfirst
    have hsettles : t.settles (k + 1) scope first = true := by
      simp only [pathSettles, Option.all_eq_true] at h
      exact h first hfirst
    have hsame := lookup_add_of_settles hsettles more
    rwa [show k + 1 + more = k + more + 1 by omega] at hsame

/-- Resolves a type as `resolveIn` does, but takes no path that does not settle. -/
def resolveSettled (t : SymbolTable) :
    Nat → Scope → List (String × ResolvedType) → SourceType → Option ResolvedType
  | 0, _, _, _ => none
  | steps + 1, scope, params, ty =>
    resolveType
      { canonical := fun p =>
          if t.pathSettles (steps + 1) scope p then t.canonical (steps + 1) scope false p else none
        expand := fun a args => do
          t.resolveSettled steps a.scope (← a.bind? args) a.target
        alias? := t.alias?
        params := params }
      ty

/-- What a type is resolved to without a part of the limits, it is resolved to with as many steps
and with more. -/
theorem resolveIn_add_of_resolveSettled {steps : Nat} {params : List (String × ResolvedType)}
    {ty : SourceType} {r : ResolvedType} (h : t.resolveSettled steps scope params ty = some r)
    (more : Nat) : t.resolveIn (steps + more) scope params ty = some r := by
  induction steps generalizing scope params ty r with
  | zero => cases h
  | succ steps ih =>
    rw [resolveSettled] at h
    rw [show steps + 1 + more = steps + more + 1 by omega, resolveIn]
    refine resolveType_mono ?_ ty h
    refine ⟨?_, rfl, ?_⟩
    · intro p path hp
      simp only at hp
      split at hp
      · next hsettles =>
        have hmore := canonical_add_of_pathSettles hsettles hp more
        rwa [show steps + 1 + more = steps + more + 1 by omega] at hmore
      · cases hp
    · -- the target of an alias is resolved with one step less
      intro path args u hu
      unfold TypeContext.named at hu ⊢
      cases halias : t.alias? path with
      | none => simpa [halias] using hu
      | some a =>
        simp only [halias] at hu ⊢
        rcases Option.bind_eq_some_iff.mp hu with ⟨bound, hbound, htarget⟩
        exact Option.bind_eq_some_iff.mpr ⟨bound, hbound, ih htarget⟩

end SymbolTable

/-- Answers in which the limits have no part stay the same with more steps: of a name, of a path and
of a type. -/
theorem settled_answers_stay (t : SymbolTable) (steps more : Nat) (scope : Scope) :
    (∀ name, t.settles steps scope name = true →
      t.lookup (steps + more) scope name = t.lookup steps scope name) ∧
    (∀ alone p path, t.pathSettles steps scope p = true →
      t.canonical steps scope alone p = some path →
        t.canonical (steps + more) scope alone p = some path) ∧
    (∀ params ty r, t.resolveSettled steps scope params ty = some r →
      t.resolveIn steps scope params ty = some r ∧
        t.resolveIn (steps + more) scope params ty = some r) := by
  refine ⟨?_, ?_, ?_⟩
  · intro name h
    exact SymbolTable.lookup_add_of_settles h more
  · intro alone p path h hpath
    exact SymbolTable.canonical_add_of_pathSettles h hpath more
  · intro params ty r h
    exact ⟨SymbolTable.resolveIn_add_of_resolveSettled h 0,
      SymbolTable.resolveIn_add_of_resolveSettled h more⟩

/-- The names of a file with imports that build on each other, a glob and an alias. -/
def layeredTable : SymbolTable :=
  .ofItems .root
    [.use false (.path (.plain "std") (.rename (.plain "collections") (.plain "maps"))),
     .use false (.path (.plain "maps") (.rename (.plain "HashMap") (.plain "Map"))),
     .use false (.path (.plain "self") (.path (.plain "inner") .glob)),
     .module (.plain "inner") (some [.declared (.plain "Tag")]),
     .typeAlias (.plain "Tagged") [.type (.plain "T")]
       (.path (.mk false [.mk (.plain "Map") (.angle false
         [.type (.path (.mk false [.mk (.plain "T") .none])),
          .type (.path (.mk false [.mk (.plain "Tag") .none]))] false)]))]

/-- The type `Tagged<u8>`. -/
def taggedType : SourceType :=
  .path (.mk false [.mk (.plain "Tagged") (.angle false
    [.type (.path (.mk false [.mk (.plain "u8") .none]))] false)])

/-- The canonical form of `Tagged<u8>`. -/
def taggedForm : ResolvedType :=
  .path "::std::collections::HashMap"
    [.type (.path "u8" [] .value), .type (.path "crate::inner::Tag" [] .value)] .reference

theorem settled_answers_stay_layered :
    (layeredTable.settles 32 .root "Map" = true ∧
      layeredTable.lookup 32 .root "Map" = some "::std::collections::HashMap") ∧
      layeredTable.lookup 33 .root "Map" = some "::std::collections::HashMap" ∧
      layeredTable.canonical 33 .root false ⟨false, ["Map", "Iter"]⟩ =
        some "::std::collections::HashMap::Iter" ∧
      layeredTable.resolveIn 33 .root [] taggedType = some taggedForm := by
  rcases settled_answers_stay layeredTable 32 1 .root with ⟨hnames, hpaths, htypes⟩
  have hname : layeredTable.settles 32 .root "Map" = true ∧
      layeredTable.lookup 32 .root "Map" = some "::std::collections::HashMap" := by
    decide +kernel
  have hpath : layeredTable.pathSettles 32 .root ⟨false, ["Map", "Iter"]⟩ = true ∧
      layeredTable.canonical 32 .root false ⟨false, ["Map", "Iter"]⟩ =
        some "::std::collections::HashMap::Iter" := by
    decide +kernel
  have htype : layeredTable.resolveSettled 32 .root [] taggedType = some taggedForm := rfl
  exact ⟨hname, (hnames "Map" hname.1).trans hname.2, hpaths false _ _ hpath.1 hpath.2,
    (htypes [] _ _ htype).2⟩

/-! ## Answers that change -/

/-- The names of a file with two imports that lead to each other: `use b as a; use a as b;`. -/
def mutualTable : SymbolTable :=
  .ofItems .root
    [.use false (.rename (.plain "b") (.plain "a")), .use false (.rename (.plain "a") (.plain "b"))]

/-- The item `use crate::m::*;`. -/
def globOf (m : String) : Item :=
  .use false (.path (.plain "crate") (.path (.plain m) .glob))

/-- The names of a file in which a type comes through a chain of globs, and another one of that name
through a single glob behind it. -/
def chainTable : SymbolTable :=
  .ofItems .root
    [globOf "a", globOf "z",
     .module (.plain "a") (some [globOf "b"]),
     .module (.plain "b") (some [globOf "c"]),
     .module (.plain "c") (some [globOf "d"]),
     .module (.plain "d") (some [globOf "e"]),
     .module (.plain "e") (some [.declared (.plain "T")]),
     .module (.plain "z") (some [.declared (.plain "T")])]

/-- One more step can change an answer, of a name, a path or a type, with either limit. -/
theorem cut_off_answers_change :
    mutualTable.lookup 32 .root "a" = some "::b" ∧
      mutualTable.lookup 33 .root "a" = some "::a" ∧
      mutualTable.canonical 32 .root false ⟨false, ["a", "T"]⟩ = some "::b::T" ∧
      mutualTable.canonical 33 .root false ⟨false, ["a", "T"]⟩ = some "::a::T" ∧
      (mutualTable.resolveIn 32 .root [] (.path (.mk false [.mk (.plain "a") .none]))).map
        ResolvedType.text = some "::b" ∧
      (mutualTable.resolveIn 33 .root [] (.path (.mk false [.mk (.plain "a") .none]))).map
        ResolvedType.text = some "::a" ∧
      chainTable.lookup 32 .root "T" = some "crate::z::T" ∧
      chainTable.lookup 33 .root "T" = some "crate::e::T" := by
  decide +kernel

end Memberwise
