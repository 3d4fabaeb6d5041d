import Memberwise.Symbols.Table

/-!
# Memberwise.Proofs.Declarations — where a file declares its aliases

The table of a file is put together module by module. An alias in it is declared in the module at
the root or in a module nested in it, and its path is its name below that module
(`declaredIn_of_alias?`).
-/

namespace Memberwise

open Source

theorem mem_of_lookupLast {α β : Type} [BEq α] [LawfulBEq α] {key : α} {entries : List (α × β)}
    {b : β} (h : lookupLast key entries = some b) : (key, b) ∈ entries := by
  rw [lookupLast, List.lookup_eq_some_iff] at h
  rcases h with ⟨before, after, hentries, -⟩
  rw [← List.mem_reverse, hentries]
  simp

/-! ## Scopes inside a module -/

namespace Scope

/-- Whether a module is `root` or nested in it. -/
def Within (root s : Scope) : Prop := root.inner <+: s.inner

theorem Within.refl (root : Scope) : root.Within root := List.prefix_refl _

theorem Within.child {root s : Scope} (h : root.Within s) (name : String) :
    root.Within (s.child name) :=
  h.trans (List.prefix_append _ _)

theorem Within.of_child {root s : Scope} {name : String} (h : (root.child name).Within s) :
    root.Within s :=
  (List.prefix_append _ _).trans h

/-- No module nested in `root` is `root` itself. -/
theorem Within.ne_of_child {root s : Scope} {name : String} (h : (root.child name).Within s) :
    s ≠ root := by
  intro heq
  have hlength := h.length_le
  rw [heq] at hlength
  simp only [Scope.child, List.length_append, List.length_singleton] at hlength
  omega

end Scope

/-! ## Aliases -/

namespace SymbolTable

/-- The entry of an alias that is declared in `root` or in a module nested in it. -/
structure DeclaredIn (root : Scope) (entry : String × Alias) : Prop where
  within : root.Within entry.2.scope
  path : ∃ name, entry.1 = entry.2.scope.join name

theorem DeclaredIn.of_child {root : Scope} {name : String} {entry : String × Alias}
    (h : DeclaredIn (root.child name) entry) : DeclaredIn root entry :=
  ⟨h.within.of_child, h.path⟩

theorem declaredIn_ofModule {scope : Scope} {items : List Item} {entry : String × Alias}
    (h : entry ∈ (ofModule scope items).aliases) : DeclaredIn scope entry := by
  rcases List.mem_filterMap.mp h with ⟨item, -, hitem⟩
  unfold aliasOf? at hitem
  split at hitem
  · cases hitem
    exact ⟨Scope.Within.refl scope, _, rfl⟩
  · cases hitem

mutual

theorem declaredIn_ofNested {scope : Scope} :
    ∀ (item : Item), ∀ entry ∈ (ofNested scope item).aliases, DeclaredIn scope entry
  -- What a module holds is declared one level deeper than the module itself.
  | .module i (some items) => by
    intro entry hentry
    rw [ofNested] at hentry
    rcases List.mem_append.mp hentry with hown | hnested
    · exact (declaredIn_ofModule hown).of_child
    · exact (declaredIn_ofNestedAll items entry hnested).of_child
  | .module _ none => by simp [ofNested, empty]
  | .use .. => by simp [ofNested, empty]
  | .struct _ => by simp [ofNested, empty]
  | .declared _ => by simp [ofNested, empty]
  | .typeAlias .. => by simp [ofNested, empty]
  | .externCrate .. => by simp [ofNested, empty]
  | .other => by simp [ofNested, empty]

theorem declaredIn_ofNestedAll {scope : Scope} :
    ∀ (items : List Item), ∀ entry ∈ (ofNestedAll scope items).aliases, DeclaredIn scope entry
  | [] => by simp [ofNestedAll, empty]
  | item :: items => by
    intro entry hentry
    rw [ofNestedAll] at hentry
    rcases List.mem_append.mp hentry with hfirst | hrest
    · exact declaredIn_ofNested item entry hfirst
    · exact declaredIn_ofNestedAll items entry hrest

end

/-- Every alias of a file is declared in it, under its own path. -/
theorem declaredIn_of_alias? {root : Scope} {items : List Item} {path : String} {a : Alias}
    (h : (ofItems root items).alias? path = some a) : DeclaredIn root (path, a) := by
  rcases List.mem_append.mp (mem_of_lookupLast h) with hown | hnested
  · exact declaredIn_ofModule hown
  · exact declaredIn_ofNestedAll items _ hnested

end SymbolTable

end Memberwise
