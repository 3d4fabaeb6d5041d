import Memberwise.Proofs.Indexing
import Memberwise.Proofs.LocalImports

/-!
# Memberwise.Proofs.Scopes — module paths and their texts

Tables keep modules and items under written paths, while scopes are lists of names. The two agree
on the scopes that can be reached: reading a path, going into a module with a plain name and going
out of one all keep the names plain (`Scope.Reached.plain`), and the path of a scope with plain
names reads as this scope again.
-/

namespace Memberwise

namespace Scope

/-- A scope that is read from a text, or got from such a scope by going into modules with plain
names and out of modules. -/
inductive Reached : Scope → Prop where
  | parsed {text : String} {s : Scope} (hparse : parse text = some s) : Reached s
  | child {s : Scope} {name : String} (hs : Reached s) (hname : isPlainName name.toList = true) :
      Reached (s.child name)
  | parent {s t : Scope} (hs : Reached s) (hparent : s.parent = some t) : Reached t

/-! ## One step -/

theorem plain_of_parse {text : String} {s : Scope} (h : parse text = some s) :
    ∀ name ∈ s.inner, isPlainName name.toList = true := by
  rw [parse] at h
  split at h
  · next first rest _ =>
    split at h
    · next hplain =>
      -- Parsing succeeds only if all names are plain, and they become the scope's.
      cases h
      rw [Bool.and_eq_true, List.all_eq_true] at hplain
      intro name hname
      obtain ⟨cs, hcs, rfl⟩ := List.mem_map.mp hname
      rw [String.toList_ofList]
      exact hplain.2 cs hcs
    · cases h
  · cases h

theorem parent_child (s : Scope) (name : String) : (s.child name).parent = some s := by
  simp [parent, child]

theorem parent_eq_some {s t : Scope} (h : s.parent = some t) : ∃ name, s = t.child name := by
  rw [parent] at h
  split at h
  · cases h
  · next hinner =>
    cases h
    rw [List.isEmpty_iff] at hinner
    exact ⟨s.inner.getLast hinner, by rw [child, List.dropLast_concat_getLast]⟩

theorem parent_eq_none {s : Scope} : s.parent = none ↔ s = root := by
  obtain ⟨inner⟩ := s
  simp [parent, root]

theorem path_child (s : Scope) (name : String) : (s.child name).path = s.join name := by
  rw [join_eq_intercalate]
  rfl

theorem child_inj {s t : Scope} {name other : String} (h : s.child name = t.child other) :
    s = t ∧ name = other := by
  obtain ⟨inner⟩ := s
  obtain ⟨inner'⟩ := t
  simpa [child] using h

/-! ## Any number of steps -/

/-- The names of a scope that can be reached are plain. -/
theorem Reached.plain {s : Scope} (h : Reached s) :
    ∀ name ∈ s.inner, isPlainName name.toList = true := by
  induction h with
  | parsed hparse => exact plain_of_parse hparse
  | child _ hname ih =>
    intro other hother
    rcases List.mem_append.mp hother with hother | hother
    · exact ih other hother
    · rwa [List.mem_singleton.mp hother]
  | parent _ hparent ih =>
    obtain ⟨name, rfl⟩ := parent_eq_some hparent
    exact fun other hother => ih other (List.mem_append_left _ hother)

theorem Reached.parse_path {s : Scope} (h : Reached s) : parse s.path = some s :=
  parse_path_of_plain h.plain

/-- Different scopes have different paths. -/
theorem Reached.path_inj {s t : Scope} (hs : Reached s) (ht : Reached t) (h : s.path = t.path) :
    s = t :=
  Option.some.inj (hs.parse_path.symm.trans ((congrArg parse h).trans ht.parse_path))

/-- Scopes that can be reached can be told from their texts, and so can the items in them; going
out of a module undoes going into it, and is possible everywhere but at the crate root. -/
theorem reached_told_apart {s t : Scope} (hs : Reached s) (ht : Reached t) :
    parse s.path = some s ∧
      (s.path = t.path → s = t) ∧
      (∀ name other, isPlainName name.toList = true → isPlainName other.toList = true →
        s.join name = t.join other → s = t ∧ name = other) ∧
      (∀ name, (s.child name).parent = some s) ∧
      (s.parent = none ↔ s = root) := by
  refine ⟨hs.parse_path, hs.path_inj ht, fun name other hname hother heq => ?_, parent_child s,
    parent_eq_none⟩
  rw [← path_child, ← path_child] at heq
  exact child_inj ((hs.child hname).path_inj (ht.child hother) heq)

/-- The module `models` of a file, and `models::inner` left again. -/
theorem reached_told_apart_models :
    let s := root.child "models"
    let t : Scope := ⟨["models", "inner"]⟩
    Reached s ∧ Reached t ∧ parse "crate :: models" = some s ∧ t.parent = some s ∧
      parse "crate::models" = some s ∧ s.path ≠ t.path ∧ s.join "inner" ≠ t.join "inner" := by
  intro s t
  have hs : Reached s := .parsed (show parse "crate :: models" = some s by decide)
  have ht : Reached t := hs.child (show isPlainName "inner".toList = true by decide)
  obtain ⟨hparse, hpath, hjoin, -, -⟩ := reached_told_apart hs ht
  refine ⟨hs, ht, by decide, by decide, hparse, fun heq => ?_, fun heq => ?_⟩
  · exact absurd (hpath heq) (by decide)
  · exact absurd (hjoin "inner" "inner" (by decide) (by decide) heq).1 (by decide)

end Scope

end Memberwise
