import Memberwise.Proofs.CanonicalPath
import Memberwise.Proofs.Lookup
import Memberwise.Proofs.Nesting
import Memberwise.Proofs.Resolution

/-!
# Memberwise.Proofs.Agreement — tables that agree on some names

Two symbol tables agree on the names that satisfy `N` and the paths that satisfy `Q`
(`SymbolTable.AlikeOn`). If everything that one of them holds is written with such names
(`SymbolTable.WrittenIn`), a look-up that starts with such a name never leaves them, and so it has
the same answer in both (`AlikeOn.lookup`).

Types are looked up by their canonical path as well. Where `Q` is kept by all ways to form a
canonical path, a type that is written with such names is resolved alike (`AlikeOn.resolveIn`).
-/

namespace Memberwise

open Source

/-- Modules of which every question about a name that satisfies `N` has the same answer. -/
structure ModuleSymbols.AlikeOn (N : String → Prop) (m n : ModuleSymbols) : Prop where
  declares : ∀ name, N name → m.declares name = n.declares name
  imports : ∀ name, N name → m.import? name = n.import? name
  globs : m.globs = n.globs

namespace SymbolTable

/-- Tables of which every question about names that satisfy `N` and paths that satisfy `Q` has the
same answer. -/
structure AlikeOn (N Q : String → Prop) (t u : SymbolTable) : Prop where
  modules : ∀ s, t.module? s = none ∧ u.module? s = none ∨
    ∃ m n, t.module? s = some m ∧ u.module? s = some n ∧ m.AlikeOn N n
  aliases : ∀ path, Q path → t.alias? path = u.alias? path
  localTypes : ∀ path, Q path → t.isLocalType path = u.isLocalType path

/-- A table that is written with names that satisfy `N`, in modules that satisfy `S`. -/
structure WrittenIn (N : String → Prop) (S : Scope → Prop) (t : SymbolTable) : Prop
    extends t.Over N S where
  globs : ∀ s m, t.module? s = some m → ∀ p ∈ m.globs, p.Over N
  aliases : ∀ path a, t.alias? path = some a →
    S a.scope ∧ ∀ p ∈ a.target.paths, p.namePath.Over N

theorem writtenIn_all (t : SymbolTable) : t.WrittenIn (fun _ => True) (fun _ => True) where
  scope _ _ _ := True.intro
  imports _ _ _ _ p _ := p.over_all
  globs _ _ _ p _ := p.over_all
  aliases _ _ _ := ⟨True.intro, fun p _ => p.namePath.over_all⟩

end SymbolTable

theorem Kept.all : Kept (fun _ => True) (fun _ => True) fun _ => True :=
  ⟨fun _ => True.intro, fun _ _ => True.intro, fun _ _ => True.intro, fun _ _ _ _ => True.intro,
    fun _ _ _ _ => True.intro⟩

/-- The name on which it depends what a path stands for is one of its names. -/
theorem NamePath.Over.lookedUp? {N : String → Prop} {p : NamePath} (hp : p.Over N) {first : String}
    (h : p.lookedUp? = some first) : N first := by
  rcases p with ⟨absolute, segments⟩
  cases segments with
  | nil => cases h
  | cons name rest =>
    have hname : name = first := NamePath.eq_of_lookedUp? h
    rcases hp with habsolute | hnames
    · rw [show absolute = true from habsolute] at h
      cases h
    · rw [← hname]
      exact hnames name List.mem_cons_self

namespace SymbolTable.AlikeOn

variable {N Q : String → Prop} {S : Scope → Prop} {t u : SymbolTable}

theorem isSome_module? (h : t.AlikeOn N Q u) (s : Scope) :
    (t.module? s).isSome = (u.module? s).isSome := by
  rcases h.modules s with ⟨ht, hu⟩ | ⟨m, n, ht, hu, -⟩ <;> rw [ht, hu]
  rfl

/-- A glob brings in the same, if it leads to the same place, which is searched alike. -/
theorem throughGlob (h : t.AlikeOn N Q u) {canonical canonical' : NamePath → Option String}
    {search search' : Scope → Option String} {glob : NamePath}
    (hglob : canonical glob = canonical' glob) (hsearch : ∀ s, search s = search' s)
    (name : String) :
    t.throughGlob canonical search name glob = u.throughGlob canonical' search' name glob := by
  simp only [SymbolTable.throughGlob, hglob, h.isSome_module?, hsearch]

/-- Names that satisfy `N` are looked up alike. The induction is on the steps, two at a time, since
a glob takes two. -/
theorem lookup (h : t.AlikeOn N Q u) (ht : t.WrittenIn N S) :
    ∀ (steps : Nat) (s : Scope) (name : String), N name →
      t.lookup steps s name = u.lookup steps s name
  | 0, _, _, _ => rfl
  | 1, s, name, hname => by
    rcases h.modules s with ⟨htm, hum⟩ | ⟨m, n, htm, hum, hmn⟩
    · rw [lookup_of_module?_eq_none htm, lookup_of_module?_eq_none hum]
    · simp only [SymbolTable.lookup, htm, hum, Option.bind_eq_bind, Option.bind_some,
        hmn.declares name hname]
  | steps + 2, s, name, hname => by
    -- imports are followed from the same module
    have hcanonical : ∀ p : NamePath, p.Over N →
        canonicalWith (t.lookup (steps + 1) s) s true p =
          canonicalWith (u.lookup (steps + 1) s) s true p := by
      intro p hp
      apply canonicalWith_congr
      intro first hfirst
      exact h.lookup ht (steps + 1) s first (hp.lookedUp? hfirst)
    rcases h.modules s with ⟨htm, hum⟩ | ⟨m, n, htm, hum, hmn⟩
    · rw [lookup_of_module?_eq_none htm, lookup_of_module?_eq_none hum]
    · -- a glob moves to another module, where fewer steps are left
      have hglobs : m.globs.findSome? (t.throughGlob (canonicalWith (t.lookup (steps + 1) s) s true)
            (fun inner => t.lookup steps inner name) name) =
          m.globs.findSome? (u.throughGlob (canonicalWith (u.lookup (steps + 1) s) s true)
            (fun inner => u.lookup steps inner name) name) := by
        apply findSome?_congr
        intro glob hglob
        refine h.throughGlob (hcanonical glob (ht.globs s m htm glob hglob)) ?_ name
        intro inner
        exact h.lookup ht steps inner name hname
      simp only [SymbolTable.lookup, htm, hum, Option.bind_eq_bind, Option.bind_some,
        ← hmn.declares name hname, ← hmn.imports name hname, ← hmn.globs, ← hglobs]
      cases himport : m.import? name with
      | none => rfl
      | some p => simp only [hcanonical p (ht.imports s m htm name p himport)]

theorem canonical (h : t.AlikeOn N Q u) (ht : t.WrittenIn N S) (steps : Nat) (s : Scope)
    (alone : Bool) {p : NamePath} (hp : p.Over N) :
    t.canonical steps s alone p = u.canonical steps s alone p := by
  unfold SymbolTable.canonical
  rw [canonicalWith_congr]
  intro first hfirst
  exact h.lookup ht steps s first (hp.lookedUp? hfirst)

/-- Types with names that satisfy `N` are resolved alike. -/
theorem resolveIn (h : t.AlikeOn N Q u) (ht : t.WrittenIn N S) (hkept : Kept N S Q) :
    ∀ (steps : Nat) (s : Scope) (params : List (String × ResolvedType)) (ty : SourceType), S s →
      (∀ p ∈ ty.paths, p.namePath.Over N) →
      t.resolveIn steps s params ty = u.resolveIn steps s params ty
  | 0, _, _, _, _, _ => rfl
  | steps + 1, s, params, ty, hs, hty => by
    simp only [SymbolTable.resolveIn]
    apply resolveType_congr_on _ ty hty
    refine ⟨fun p hp => h.canonical ht (steps + 1) s false hp, rfl, ?_⟩
    intro p hp path hpath args
    -- the path has the property that is kept, so it is an alias in both tables or in neither
    have hcanonical : t.canonical (steps + 1) s false p.namePath = some path := hpath
    have halias : t.alias? path = u.alias? path :=
      h.aliases path (hkept.canonical ht.toOver hs hp hcanonical)
    unfold TypeContext.named
    simp only [← halias]
    cases ha : t.alias? path with
    | none => rfl
    | some a =>
      refine congrArg (Option.bind (a.bind? args)) (funext fun bound => ?_)
      obtain ⟨hscope, htarget⟩ := ht.aliases path a ha
      exact h.resolveIn ht hkept steps a.scope bound a.target hscope htarget

theorem attribute? (h : t.AlikeOn N Q u) (ht : t.WrittenIn N S) {p : SourcePath}
    (hp : p.namePath.Over N) (s : Scope) : t.attribute? p s = u.attribute? p s := by
  have hcanonical := h.canonical ht maxSteps s false hp
  unfold SymbolTable.attribute?
  -- A bare name of an attribute is looked up first; any other path goes straight to the tables.
  split
  · next name habsolute hnames =>
    have hname : N name := by
      rcases hp with hp | hp
      · exact absurd (habsolute.symm.trans hp) (by decide)
      · apply hp
        show name ∈ p.names
        rw [hnames]
        exact List.mem_singleton_self name
    rw [h.lookup ht maxSteps s name hname, hcanonical]
  · exact hcanonical

end SymbolTable.AlikeOn

end Memberwise
