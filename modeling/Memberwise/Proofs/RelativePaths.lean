import Memberwise.Proofs.LocalImports

/-!
# Memberwise.Proofs.RelativePaths — paths that start at a module around them

A path that starts with `super` segments goes on from an ancestor of its module, one further up with
each of them, and stands for nothing if there are too few (`climb_supers`). `self` before them
should make no difference, but a path that starts with `self` goes on from its own module with all
of its segments, `super` or not. So `self::super::Tag` does not stand for what `super::Tag` does,
unless there is no `super` in it (`relative_path_iff`).
-/

namespace Memberwise

/-! ## Ancestors -/

/-- The module that is `j` modules further out, if there are as many around. -/
def Scope.ancestor? (s : Scope) (j : Nat) : Option Scope :=
  if j ≤ s.inner.length then some ⟨s.inner.take (s.inner.length - j)⟩ else none

namespace Scope

variable (s : Scope)

theorem ancestor?_zero : s.ancestor? 0 = some s := by simp [ancestor?]

theorem ancestor?_succ (j : Nat) : s.ancestor? (j + 1) = s.parent.bind fun p => p.ancestor? j := by
  unfold ancestor? parent
  cases hinner : s.inner with
  | nil => simp
  | cons name inner =>
    have htake : (name :: inner).dropLast.take (inner.length - j) =
        (name :: inner).take (inner.length - j) := by
      rw [List.dropLast_eq_take, List.take_take, List.length_cons, Nat.min_eq_left (by omega)]
    simp [htake]

theorem inner_of_ancestor? {j : Nat} {a : Scope} (h : s.ancestor? j = some a) :
    ∃ names, a.inner ++ names = s.inner ∧ names.length = j := by
  unfold ancestor? at h
  split at h
  · next hj =>
    cases h
    refine ⟨s.inner.drop (s.inner.length - j), List.take_append_drop .., ?_⟩
    rw [List.length_drop]
    omega
  · cases h

end Scope

/-! ## Climbing -/

/-- The segments `super`, as often as given. -/
def supers (j : Nat) : List String := List.replicate j "super"

variable {s : Scope} {rest : List String}

theorem climb_of_head? (hrest : rest.head? ≠ some "super") :
    climb s rest = some (extend s.path rest) := by
  cases rest with
  | nil => rfl
  | cons segment rest =>
    have hsegment : segment ≠ "super" := by simpa using hrest
    rw [climb, if_neg hsegment]

/-- Each `super` leads one module further out. -/
theorem climb_supers (hrest : rest.head? ≠ some "super") (j : Nat) (s : Scope) :
    climb s (supers j ++ rest) = (s.ancestor? j).map fun a => extend a.path rest := by
  induction j generalizing s with
  | zero =>
    rw [s.ancestor?_zero]
    exact climb_of_head? hrest
  | succ j ih =>
    have hstep : climb s (supers (j + 1) ++ rest) =
        s.parent.bind fun p => climb p (supers j ++ rest) := by
      simp [supers, List.replicate_succ, climb]
    rw [hstep, s.ancestor?_succ, Option.map_bind]
    exact congrArg _ (funext fun p => ih p)

variable {find : String → Option String} {alone : Bool}

theorem canonicalWith_supers (hrest : rest.head? ≠ some "super") {j : Nat} (hj : 1 ≤ j) :
    canonicalWith find s alone ⟨false, supers j ++ rest⟩ =
      (s.ancestor? j).map fun a => extend a.path rest := by
  rw [← climb_supers hrest]
  obtain ⟨k, rfl⟩ : ∃ k, j = k + 1 := ⟨j - 1, by omega⟩
  rfl

/-- A path that starts with `self` goes on from its own module, whatever its segments are. -/
theorem canonicalWith_self (segments : List String) :
    canonicalWith find s alone ⟨false, "self" :: segments⟩ = some (extend s.path segments) := by
  show some (definingPath (extend s.path segments)) = _
  rw [Scope.path_eq_extend, extend_extend, definingPath_crate]

/-- With `super` in it, a path that goes on from a module does not stand for what is in an
ancestor: it has more segments. -/
theorem extend_supers_ne {j : Nat} (hj : j ≠ 0) {a : Scope} (ha : s.ancestor? j = some a) :
    extend s.path (supers j ++ rest) ≠ extend a.path rest := by
  obtain ⟨names, hnames, -⟩ := s.inner_of_ancestor? ha
  intro h
  have hcolons := congrArg colonCount h
  rw [Scope.path_eq_extend, Scope.path_eq_extend, extend_extend, extend_extend, colonCount_extend,
    colonCount_extend, ← hnames] at hcolons
  simp only [supers, List.length_append, List.length_replicate, List.flatMap_append,
    List.count_append] at hcolons
  omega

/-! ## Relative paths -/

/-- A path of `super` segments and others goes on from the ancestor of its module that is as many
modules further out, and stands for nothing if there are fewer around it. With `self` before it, the
same is true if there is no `super` in it, and never otherwise. -/
theorem relative_path_iff (t : SymbolTable) (steps : Nat) (s : Scope) (alone : Bool) (j : Nat)
    {rest : List String} (hrest : rest.head? ≠ some "super") :
    let path := (s.ancestor? j).map fun a => extend a.path rest
    (1 ≤ j → t.canonical (steps + 1) s alone ⟨false, supers j ++ rest⟩ = path) ∧
    (t.canonical (steps + 1) s alone ⟨false, "self" :: (supers j ++ rest)⟩ = path ↔ j = 0) := by
  intro path
  rw [SymbolTable.canonical_succ, SymbolTable.canonical_succ, canonicalWith_self]
  refine ⟨fun hj => canonicalWith_supers hrest hj, ?_, ?_⟩
  · intro h
    -- Behind `self` the words are appended as they are, which gives no path of an ancestor.
    obtain ⟨a, ha, hpath⟩ := Option.map_eq_some_iff.mp h.symm
    by_contra hj
    exact extend_supers_ne hj ha hpath.symm
  · rintro rfl
    rw [show path = some (extend s.path rest) by simp only [path, s.ancestor?_zero]; rfl]
    rfl

/-- The names of a file with a type in a module around another module:
`mod models { struct Tag; mod inner {} }`. -/
def modelsTable : SymbolTable :=
  .ofItems .root
    [.module (.plain "models")
      (some [.declared (.plain "Tag"), .module (.plain "inner") (some [])])]

theorem relative_path_models :
    let s : Scope := ⟨["models", "inner"]⟩
    (["Tag"].head? ≠ some "super" ∧ ["models", "Tag"].head? ≠ some "super") ∧
      modelsTable.canonical 33 s false ⟨false, ["super", "Tag"]⟩ = some "crate::models::Tag" ∧
      modelsTable.canonical 33 s false ⟨false, ["super", "super", "models", "Tag"]⟩ =
        some "crate::models::Tag" ∧
      modelsTable.canonical 33 s false ⟨false, ["super", "super", "super", "Tag"]⟩ = none ∧
      modelsTable.canonical 33 s false ⟨false, ["self", "Tag"]⟩ =
        some "crate::models::inner::Tag" := by
  intro s
  have htag : ["Tag"].head? ≠ some "super" := by decide
  have hmodels : ["models", "Tag"].head? ≠ some "super" := by decide
  exact ⟨⟨htag, hmodels⟩, (relative_path_iff modelsTable 32 s false 1 htag).1 (by decide),
    (relative_path_iff modelsTable 32 s false 2 hmodels).1 (by decide),
    (relative_path_iff modelsTable 32 s false 3 htag).1 (by decide),
    (relative_path_iff modelsTable 32 s false 0 htag).2.mpr rfl⟩

/-- Behind `self`, no `super` is climbed: a type of the parent module gets the path of a type that
there is not, and a path that leads out of the crate gets one as well. -/
theorem self_super_stays :
    let s : Scope := ⟨["models", "inner"]⟩
    ((s.ancestor? 1).map (fun a => extend a.path ["Tag"]) = some "crate::models::Tag" ∧
      modelsTable.canonical 33 s false ⟨false, ["self", "super", "Tag"]⟩ =
        some "crate::models::inner::super::Tag") ∧
      (Scope.root.ancestor? 1).map (fun a => extend a.path ["Tag"]) = none ∧
      modelsTable.canonical 33 .root false ⟨false, ["self", "super", "Tag"]⟩ =
        some "crate::super::Tag" := by
  decide +kernel

end Memberwise
