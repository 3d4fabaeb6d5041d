import Memberwise.Symbols.Lookup

/-!
# Memberwise.Proofs.Lookup — look-ups step by step

What a path stands for depends on look-ups in one way only: through its first segment, and only if
that segment is a name (`canonicalWith_congr`). So there are few things that a path can stand for,
one lemma for each.

A look-up of a name goes one of four ways, again one lemma for each: the module declares the name
(`lookup_declared`), imports it (`lookup_imported`), may get it through a glob (`lookup_globs`), or
does not know it (`lookup_unbound`). Everything that is proved about look-ups starts from these, and
no other proof opens the recursion.
-/

namespace Memberwise

/-! ## What a path stands for -/

/-- The words at the start of a path that are not looked up. -/
def pathWords : List String := ["crate", "self", "super", "Self"]

/-- The name on which it depends what a path stands for: its first segment, unless the path is
absolute or starts with a word that is not looked up. -/
def NamePath.lookedUp? (p : NamePath) : Option String :=
  match p.segments with
  | [] => none
  | first :: _ => if p.absolute || pathWords.contains first then none else some first

section

variable {find : String → Option String} {scope : Scope} {alone : Bool} {first : String}
  {rest : List String}

theorem NamePath.lookedUp?_cons (h : first ∉ pathWords) (rest : List String) :
    NamePath.lookedUp? ⟨false, first :: rest⟩ = some first := by
  simp [NamePath.lookedUp?, h]

theorem NamePath.eq_of_lookedUp? {absolute : Bool} {name : String}
    (h : NamePath.lookedUp? ⟨absolute, first :: rest⟩ = some name) : first = name := by
  simp only [NamePath.lookedUp?] at h
  split at h
  · cases h
  · exact Option.some.inj h

theorem ne_of_notMem_pathWords (h : first ∉ pathWords) :
    first ≠ "crate" ∧ first ≠ "self" ∧ first ≠ "super" ∧ first ≠ "Self" := by
  simpa [pathWords] using h

attribute [local simp] canonicalWith

theorem canonicalWith_found (h : first ∉ pathWords) {found : String}
    (hfound : find first = some found) :
    canonicalWith find scope alone ⟨false, first :: rest⟩ =
      some (definingPath (extend found rest)) := by
  rcases ne_of_notMem_pathWords h with ⟨hcrate, hself, hsuper, hSelf⟩
  simp [hcrate, hself, hsuper, hSelf, hfound]

/-- A longer path that starts with an unknown name leads into an external crate. -/
theorem canonicalWith_external (h : first ∉ pathWords) (hfound : find first = none)
    (hrest : rest ≠ []) :
    canonicalWith find scope alone ⟨false, first :: rest⟩ =
      some (definingPath (extend ("::" ++ first) rest)) := by
  rcases ne_of_notMem_pathWords h with ⟨hcrate, hself, hsuper, hSelf⟩
  simp [hcrate, hself, hsuper, hSelf, hfound, hrest]

theorem canonicalWith_crate (rest : List String) :
    canonicalWith find scope alone ⟨false, "crate" :: rest⟩ =
      some (definingPath (extend "crate" rest)) := rfl

/-- What a path stands for depends on a look-up of its first name only. -/
theorem canonicalWith_congr {find' : String → Option String} {p : NamePath}
    (h : ∀ first, p.lookedUp? = some first → find first = find' first) :
    canonicalWith find scope alone p = canonicalWith find' scope alone p := by
  rcases p with ⟨absolute, segments⟩
  cases segments with
  | nil => rfl
  | cons first rest =>
    cases absolute with
    | true => rfl
    | false =>
      by_cases hfirst : first ∈ pathWords
      · -- a word decides by itself
        have hwords : first = "crate" ∨ first = "self" ∨ first = "super" ∨ first = "Self" := by
          simpa [pathWords] using hfirst
        rcases hwords with rfl | rfl | rfl | rfl <;> rfl
      · have hfind : find first = find' first := h first (NamePath.lookedUp?_cons hfirst rest)
        simp only [canonicalWith, hfind]

end

/-! ## What a name stands for -/

namespace SymbolTable

/-- What one glob of a module brings in under a name, where `steps` are left for the module that
the glob leads to. -/
def viaGlob (t : SymbolTable) (steps : Nat) (scope : Scope) (name : String) (glob : NamePath) :
    Option String :=
  t.throughGlob (canonicalWith (t.lookup (steps + 1) scope) scope true)
    (fun inner => t.lookup steps inner name) name glob

variable {t : SymbolTable} {scope : Scope} {m : ModuleSymbols} {name : String}

attribute [local simp] lookup

theorem lookup_of_module?_eq_none (hm : t.module? scope = none) (steps : Nat) :
    t.lookup steps scope name = none := by
  match steps with
  | 0 => rfl
  | 1 => simp [hm]
  | steps + 2 => simp [hm]

theorem lookup_declared (hm : t.module? scope = some m) (h : m.declares name = true)
    (steps : Nat) : t.lookup (steps + 1) scope name = some (scope.join name) := by
  cases steps with
  | zero => simp [hm, h]
  | succ steps => simp [hm, h]

/-- With a single step only declarations are found. -/
theorem lookup_one (hm : t.module? scope = some m) (h : m.declares name = false) :
    t.lookup 1 scope name = none := by
  simp [hm, h]

theorem lookup_imported (hm : t.module? scope = some m) (hdeclares : m.declares name = false)
    {path : NamePath} (himport : m.import? name = some path) (steps : Nat) :
    t.lookup (steps + 2) scope name =
      canonicalWith (t.lookup (steps + 1) scope) scope true path := by
  simp [hm, hdeclares, himport]

theorem lookup_globs (hm : t.module? scope = some m) (hdeclares : m.declares name = false)
    (himport : m.import? name = none) {steps : Nat} (hsteps : globSteps ≤ steps + 2) :
    t.lookup (steps + 2) scope name = m.globs.findSome? (t.viaGlob steps scope name) := by
  have hfollowed : ¬steps + 2 < globSteps := by omega
  simp only [lookup, hm, hdeclares, himport, Option.bind_eq_bind, Option.bind_some,
    Bool.false_eq_true, if_false, hfollowed]
  rfl

/-- A name that the module neither declares nor imports is unknown if there are no globs, or too
few steps to follow them. -/
theorem lookup_unbound (hm : t.module? scope = some m) (hdeclares : m.declares name = false)
    (himport : m.import? name = none) {steps : Nat} (h : m.globs = [] ∨ steps < globSteps) :
    t.lookup steps scope name = none := by
  match steps with
  | 0 => rfl
  | 1 => exact lookup_one hm hdeclares
  | steps + 2 =>
    rcases Nat.lt_or_ge (steps + 2) globSteps with hfew | hmany
    · simp [hm, hdeclares, himport, hfew]
    · rcases h with hglobs | hfew
      · rw [lookup_globs hm hdeclares himport hmany, hglobs, List.findSome?_nil]
      · omega

/-- Without globs, look-ups in two modules agree if they declare the same names and their imports
lead to the same places. -/
theorem lookup_congr_of_globs_eq_nil {u : SymbolTable} {n : ModuleSymbols}
    (hm : t.module? scope = some m) (hn : u.module? scope = some n) (hglobs : m.globs = [])
    (hglobs' : n.globs = []) (hdeclares : ∀ name, m.declares name = n.declares name)
    (himports : ∀ name, m.import? name = n.import? name ∨
      ∃ p q, m.import? name = some p ∧ n.import? name = some q ∧
        ∀ steps, canonicalWith (t.lookup steps scope) scope true p =
          canonicalWith (u.lookup steps scope) scope true q) (steps : Nat) (name : String) :
    t.lookup steps scope name = u.lookup steps scope name := by
  -- Induction on the steps; only an import can make the two modules look further.
  induction steps generalizing name with
  | zero => rfl
  | succ steps ih =>
    by_cases hname : m.declares name = true
    · rw [lookup_declared hm hname, lookup_declared hn ((hdeclares name).symm.trans hname)]
    · have hnot : m.declares name = false := eq_false_of_ne_true hname
      have hnot' : n.declares name = false := (hdeclares name).symm.trans hnot
      cases steps with
      | zero => rw [lookup_one hm hnot, lookup_one hn hnot']
      | succ steps =>
        rcases himports name with hsame | ⟨p, q, hp, hq, hpq⟩
        · cases hpath : m.import? name with
          | none =>
            rw [lookup_unbound hm hnot hpath (Or.inl hglobs),
              lookup_unbound hn hnot' (hsame.symm.trans hpath) (Or.inl hglobs')]
          | some p =>
            rw [lookup_imported hm hnot hpath,
              lookup_imported hn hnot' (hsame.symm.trans hpath)]
            exact canonicalWith_congr fun first _ => ih first
        · rw [lookup_imported hm hnot hp, lookup_imported hn hnot' hq, hpq]

theorem canonical_succ (t : SymbolTable) (steps : Nat) (scope : Scope) (alone : Bool)
    (p : NamePath) :
    t.canonical (steps + 1) scope alone p =
      canonicalWith (t.lookup (steps + 1) scope) scope alone p := rfl

/-- Two tables that look up the first name of a path alike give the path the same meaning. -/
theorem canonical_congr {u : SymbolTable} {steps : Nat} {first : String}
    (h : t.lookup steps scope first = u.lookup steps scope first) (alone : Bool)
    (rest : List String) :
    t.canonical steps scope alone ⟨false, first :: rest⟩ =
      u.canonical steps scope alone ⟨false, first :: rest⟩ := by
  unfold canonical
  rw [canonicalWith_congr]
  intro name hname
  rwa [← NamePath.eq_of_lookedUp? hname]

end SymbolTable

end Memberwise
