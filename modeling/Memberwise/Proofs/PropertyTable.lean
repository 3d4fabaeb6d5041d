import Memberwise.PropertyTable
import Memberwise.Proofs.Grouping

/-!
# Memberwise.Proofs.PropertyTable — the first entry of a name wins

A table is filled by one loop that passes over names it has. Positions in the index are therefore
those of the entries that were kept, not those of the entries that were given; the invariant
`PropertyTable.Holds` says that the index is one of the names (`Indexes`). With it, a table gives
each name the type of the first entry with this name (`PropertyTable.ofList_firstWins`).
-/

namespace Memberwise.PropertyTable

variable {τ : Type}

/-- The type in the first entry with a name. -/
def firstType? (entries : List (String × τ)) (name : String) : Option τ :=
  (entries.find? fun entry => entry.1 == name).map Prod.snd

theorem isSome_firstType? (entries : List (String × τ)) (name : String) :
    (firstType? entries name).isSome = (entries.map Prod.fst).contains name := by
  rw [firstType?, Option.isSome_map, contains_map_eq_any, Bool.eq_iff_iff, List.find?_isSome,
    List.any_eq_true]

theorem firstType?_concat (entries : List (String × τ)) (entry : String × τ) (name : String) :
    firstType? (entries ++ [entry]) name =
      (firstType? entries name).or (if entry.1 == name then some entry.2 else none) := by
  rw [firstType?, firstType?, List.find?_append, Option.map_or, List.find?_singleton]
  congr 1
  split <;> rfl

theorem firstType?_eq_none {entries : List (String × τ)} {name : String}
    (h : (entries.map Prod.fst).contains name = false) : firstType? entries name = none := by
  rw [← isSome_firstType?] at h
  exact Option.not_isSome_iff_eq_none.mp (Bool.eq_false_iff.mp h)

theorem names_push (entries : Array (String × τ)) (index : Std.HashMap String Nat)
    (entry : String × τ) :
    names ⟨entries.push entry, index⟩ = entries.toList.map Prod.fst ++ [entry.1] := by
  simp [names, toList]

/-! ## The loop -/

/-- What holds after the entries `done` were given: the names are the distinct ones, each entry has
the first type of its name, and the index gives the position of each name. -/
structure Holds (t : PropertyTable τ) (done : List (String × τ)) : Prop where
  names : t.names = (done.map Prod.fst).eraseDups
  types : ∀ entry ∈ t.toList, firstType? done entry.1 = some entry.2
  index : Indexes t.index t.names

theorem Holds.empty : (empty : PropertyTable τ).Holds [] where
  names := rfl
  types := by simp [PropertyTable.empty, toList]
  index := fun name => by simp [PropertyTable.empty, PropertyTable.names, toList]

variable {t : PropertyTable τ} {done : List (String × τ)}

theorem Holds.contains_eq (h : t.Holds done) (name : String) :
    t.contains name = (done.map Prod.fst).contains name := by
  rw [contains, Std.HashMap.contains_eq_isSome_getElem?, h.index.isSome_eq, h.names,
    contains_eraseDups]

/-- An entry with a name that was given changes nothing. -/
theorem Holds.add_seen (h : t.Holds done) {entry : String × τ}
    (hseen : (done.map Prod.fst).contains entry.1 = true) : t.Holds (done ++ [entry]) := by
  constructor
  · rw [List.map_append, List.map_singleton, eraseDups_concat, if_pos hseen]
    exact h.names
  · intro kept hkept
    rw [firstType?_concat, h.types kept hkept]
    rfl
  · exact h.index

/-- An entry with a new name goes to the end, and so does its position. -/
theorem Holds.add_new (h : t.Holds done) {entry : String × τ}
    (hnew : (done.map Prod.fst).contains entry.1 = false) :
    Holds ⟨t.entries.push entry, t.index.insert entry.1 t.entries.size⟩ (done ++ [entry]) := by
  constructor
  · rw [names_push, List.map_append, List.map_singleton, eraseDups_concat, hnew,
      if_neg Bool.false_ne_true, ← h.names]
    rfl
  · intro kept hkept
    rw [toList, Array.toList_push, List.mem_append, List.mem_singleton] at hkept
    rw [firstType?_concat]
    rcases hkept with hkept | rfl
    · rw [h.types kept hkept]
      rfl
    · -- no entry that was given before has the name
      rw [firstType?_eq_none hnew]
      simp
  · have hunknown : t.names.contains entry.1 = false := by
      rw [h.names, contains_eraseDups, hnew]
    have hindex := h.index.insert hunknown
    rw [PropertyTable.names, toList, List.length_map, Array.length_toList] at hindex
    rw [names_push]
    exact hindex

theorem Holds.add (h : t.Holds done) (entry : String × τ) :
    (t.add entry.1 entry.2).Holds (done ++ [entry]) := by
  have hcontains := h.contains_eq entry.1
  rw [contains] at hcontains
  rw [PropertyTable.add]
  split
  · next hseen =>
    exact h.add_seen (hcontains.symm.trans hseen)
  · next hnew =>
    exact h.add_new (hcontains.symm.trans (eq_false_of_ne_true hnew))

theorem Holds.ofList (entries : List (String × τ)) : (ofList entries).Holds entries := by
  induction entries using List.reverseRecOn with
  | nil => exact Holds.empty
  | append_singleton entries entry ih =>
    rw [PropertyTable.ofList, List.foldl_append]
    exact ih.add entry

/-! ## Reading a table -/

/-- Positions in the index are those of the names. -/
theorem Holds.index_eq_some_iff (h : t.Holds done) {name : String} {position : Nat} :
    t.index[name]? = some position ↔
      ∃ hp : position < t.entries.size, t.entries[position].1 = name := by
  have hdistinct := pairwise_eraseDups (done.map Prod.fst)
  rw [← h.names] at hdistinct
  rw [h.index.eq_some_iff hdistinct]
  simp [PropertyTable.names, toList]

theorem Holds.get?_eq (h : t.Holds done) (name : String) :
    t.get? name = firstType? done name := by
  cases hindex : t.index[name]? with
  | some position =>
    obtain ⟨hp, hname⟩ := h.index_eq_some_iff.mp hindex
    have htype := h.types t.entries[position] (Array.getElem_mem_toList hp)
    rw [hname] at htype
    simp [get?, hindex, hp, htype]
  | none =>
    have hunknown := h.contains_eq name
    rw [contains, Std.HashMap.contains_eq_isSome_getElem?, hindex] at hunknown
    rw [firstType?_eq_none hunknown.symm]
    simp [get?, hindex]

/-- A table holds what was given first for each name, and all ways to read it agree. -/
structure FirstWins (t : PropertyTable τ) (entries : List (String × τ)) : Prop where
  names : t.names = (entries.map Prod.fst).eraseDups
  get? : ∀ name, t.get? name = (entries.find? fun entry => entry.1 == name).map Prod.snd
  contains : ∀ name, t.contains name = (t.get? name).isSome
  size : t.size = (entries.map Prod.fst).eraseDups.length
  toList : (t.toList.map fun (name, type) => (name, some type)) =
    t.names.map fun name => (name, t.get? name)
  /-- The index gives the position of each name among the entries, and no other position. -/
  index : ∀ name position, t.index[name]? = some position ↔
    ∃ hp : position < t.entries.size, t.entries[position].1 = name

/-- Whatever entries a table is built from, the first one of each name wins. -/
theorem ofList_firstWins (entries : List (String × τ)) : (ofList entries).FirstWins entries := by
  have h := Holds.ofList entries
  constructor
  · exact h.names
  · exact h.get?_eq
  · intro name
    rw [h.contains_eq, h.get?_eq, isSome_firstType?]
  · rw [← h.names]
    simp [PropertyTable.names, PropertyTable.toList, PropertyTable.size]
  · rw [PropertyTable.names, List.map_map]
    refine List.map_congr_left fun entry hentry => ?_
    simp only [Function.comp_apply, h.get?_eq, h.types entry hentry]
  · intro name position
    exact h.index_eq_some_iff

end Memberwise.PropertyTable
