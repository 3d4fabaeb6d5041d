import Mathlib.Data.List.Induction
import Memberwise.Grouping
import Memberwise.TypeIdentity

/-!
# Memberwise.Proofs.Grouping — grouping is a stable partition

The groups of a sequence are its distinct keys in the order in which they are first seen, each with
the elements that have it, in their order (`toList_groupBy`). Keys count as one if they compare
equal, which need not mean that they are the same; the group gets the first of them.

The loop keeps an index beside the groups, which gives the position of each key that was seen, and
nothing else (`Indexes`). The invariant `GroupsBuilder.Holds` relates the two, so that the positions
in the index are those of the groups (`GroupsBuilder.Holds.slots_eq_some_iff`). However groups are
read, they hold the same (`groupBy_stable_partition`).
-/

namespace Memberwise

variable {κ ε : Type} [BEq κ] [EquivBEq κ]

/-! ## Distinct keys -/

/-- The last key counts if none before it is equal to it. The induction is on the length, since the
distinct keys after the first are those of a shorter list. -/
theorem eraseDups_concat (ks : List κ) (k : κ) :
    (ks ++ [k]).eraseDups =
      if ks.contains k = true then ks.eraseDups else ks.eraseDups ++ [k] := by
  generalize hn : ks.length = n
  induction n using Nat.strongRecOn generalizing ks with
  | _ n ih =>
    cases ks with
    | nil => simp [List.eraseDups_cons]
    | cons x xs =>
      have hlength : (xs.filter fun a => !a == x).length < n := by
        have hle := List.length_filter_le (fun a => !a == x) xs
        simp only [List.length_cons] at hn
        omega
      rw [List.cons_append, List.eraseDups_cons, List.eraseDups_cons, List.filter_append,
        List.contains_cons]
      by_cases hk : (k == x) = true
      · simp [hk]
      · have hx : (x == k) = false := by
          rw [BEq.comm]
          exact eq_false_of_ne_true hk
        -- the keys that are equal to the first one are not equal to the last
        have hothers : (xs.filter fun a => !a == x).contains k = xs.contains k := by
          rw [Bool.eq_iff_iff, List.contains_iff_exists_mem_beq, List.contains_iff_exists_mem_beq]
          constructor
          · rintro ⟨a, ha, hka⟩
            exact ⟨a, (List.mem_filter.mp ha).1, hka⟩
          · rintro ⟨a, ha, hka⟩
            refine ⟨a, List.mem_filter.mpr ⟨ha, ?_⟩, hka⟩
            rw [Bool.not_eq_true', ← BEq.congr_left hka]
            exact eq_false_of_ne_true hk
        have hlast : [k].filter (fun a => !a == x) = [k] := by simp [hk]
        rw [hlast, ih _ hlength _ rfl, hothers, eq_false_of_ne_true hk, Bool.false_or]
        split <;> rfl

/-- No key is lost with its duplicates. -/
theorem contains_eraseDups (ks : List κ) (k : κ) :
    ks.eraseDups.contains k = ks.contains k := by
  induction ks using List.reverseRecOn with
  | nil => rfl
  | append_singleton ks l ih =>
    rw [eraseDups_concat, List.contains_append]
    split
    · next hl =>
      -- a key that is equal to the last one is equal to one before it
      rw [ih]
      cases hkl : [l].contains k with
      | false => rw [Bool.or_false]
      | true =>
        have hequal : (k == l) = true := by simpa using hkl
        obtain ⟨a, ha, hla⟩ := List.contains_iff_exists_mem_beq.mp hl
        rw [Bool.or_true, List.contains_iff_exists_mem_beq]
        exact ⟨a, ha, BEq.trans hequal hla⟩
    · rw [List.contains_append, ih]

/-- Without duplicates no two keys are equal. -/
theorem pairwise_eraseDups (ks : List κ) :
    ks.eraseDups.Pairwise fun a b => (a == b) = false := by
  -- Induction from the end, as duplicates are dropped in favour of the first one.
  induction ks using List.reverseRecOn with
  | nil => simp
  | append_singleton ks k ih =>
    rw [eraseDups_concat]
    split
    · exact ih
    · next h =>
      rw [← contains_eraseDups, List.contains_iff_exists_mem_beq] at h
      rw [List.pairwise_append]
      refine ⟨ih, List.pairwise_singleton _ _, ?_⟩
      intro a ha b hb
      rw [List.mem_singleton.mp hb, BEq.comm]
      exact eq_false_of_ne_true fun hka => h ⟨a, ha, hka⟩

/-- Equal keys are found at the same place. -/
theorem findIdx?_beq_congr {k l : κ} (h : (k == l) = true) (ks : List κ) :
    ks.findIdx? (· == k) = ks.findIdx? (· == l) := by
  have hsame : (fun a => a == k) = fun a => a == l := funext fun a => BEq.congr_right h
  rw [hsame]

omit [EquivBEq κ] in
/-- A key has a place exactly if it is there. -/
theorem isSome_findIdx?_beq [PartialEquivBEq κ] (ks : List κ) (k : κ) :
    (ks.findIdx? (· == k)).isSome = ks.contains k := by
  rw [List.findIdx?_isSome, Bool.eq_iff_iff, List.any_eq_true, List.contains_iff_exists_mem_beq]
  constructor
  · rintro ⟨a, ha, hak⟩
    exact ⟨a, ha, BEq.symm hak⟩
  · rintro ⟨a, ha, hka⟩
    exact ⟨a, ha, BEq.symm hka⟩

/-- Among distinct keys, one is found where it stands. -/
theorem findIdx?_eq_some_iff_of_pairwise {ks : List κ}
    (h : ks.Pairwise fun a b => (a == b) = false) {k : κ} {i : Nat} :
    ks.findIdx? (· == k) = some i ↔ ∃ hi : i < ks.length, (ks[i] == k) = true := by
  rw [List.findIdx?_eq_some_iff_getElem]
  constructor
  · rintro ⟨hi, hk, -⟩
    exact ⟨hi, hk⟩
  · rintro ⟨hi, hk⟩
    refine ⟨hi, hk, fun j hj hjk => ?_⟩
    have hdistinct := List.pairwise_iff_getElem.mp h j i (by omega) hi hj
    rw [BEq.trans hjk (BEq.symm hk)] at hdistinct
    cases hdistinct

/-! ## The groups as they should be -/

/-- The distinct keys of a sequence, each with the elements that have it. -/
def partitionBy (key : ε → κ) (source : List ε) : List (κ × List ε) :=
  (source.map key).eraseDups.map fun k => (k, source.filter fun e => key e == k)

omit [EquivBEq κ] in
/-- The keys of a partition are those of the elements, without duplicates. -/
theorem map_fst_partitionBy (key : ε → κ) (source : List ε) :
    (partitionBy key source).map Prod.fst = (source.map key).eraseDups := by
  simp [partitionBy, Function.comp_def]

/-- A key is there exactly if an element has it. -/
theorem contains_map_eq_any (key : ε → κ) (source : List ε) (k : κ) :
    (source.map key).contains k = source.any fun e => key e == k := by
  rw [Bool.eq_iff_iff, List.contains_iff_exists_mem_beq, List.any_eq_true]
  constructor
  · rintro ⟨l, hl, hkl⟩
    obtain ⟨e, he, rfl⟩ := List.mem_map.mp hl
    exact ⟨e, he, BEq.symm hkl⟩
  · rintro ⟨e, he, hek⟩
    exact ⟨key e, List.mem_map_of_mem he, BEq.symm hek⟩

/-- An element with a new key makes a group of its own, at the end. -/
theorem partitionBy_concat_new {key : ε → κ} {source : List ε} {e : ε}
    (h : (source.map key).contains (key e) = false) :
    partitionBy key (source ++ [e]) = partitionBy key source ++ [(key e, [e])] := by
  -- The groups that are there do not take the new element, whose key differs from all of theirs.
  have hothers : ∀ k ∈ (source.map key).eraseDups,
      (k, (source ++ [e]).filter fun x => key x == k) = (k, source.filter fun x => key x == k) := by
    intro k hk
    have hne : (key e == k) = false := by
      rw [← contains_eraseDups] at h
      refine eq_false_of_ne_true fun hek => ?_
      rw [List.contains_iff_exists_mem_beq.mpr ⟨k, hk, hek⟩] at h
      cases h
    simp [hne]
  -- No earlier element has the key, so its group is the new element alone.
  have hnone : source.filter (fun x => key x == key e) = [] := by
    rw [List.filter_eq_nil_iff]
    intro x hx hkey
    rw [contains_map_eq_any, List.any_eq_true.mpr ⟨x, hx, hkey⟩] at h
    cases h
  rw [partitionBy, List.map_append, List.map_singleton, eraseDups_concat, h,
    if_neg Bool.false_ne_true, List.map_append, List.map_congr_left hothers]
  simp [partitionBy, hnone]

/-- An element with a key that was seen goes to the end of the group of its key. -/
theorem partitionBy_concat_seen {key : ε → κ} {source : List ε} {e : ε} {slot : Nat}
    (h : (source.map key).eraseDups.findIdx? (· == key e) = some slot) :
    partitionBy key (source ++ [e]) =
      (partitionBy key source).modify slot fun (k, es) => (k, es ++ [e]) := by
  have hdistinct := pairwise_eraseDups (source.map key)
  have hseen : (source.map key).contains (key e) = true := by
    rw [← contains_eraseDups, ← isSome_findIdx?_beq, h]
    rfl
  apply List.ext_getElem?
  intro i
  rw [partitionBy, List.map_append, List.map_singleton, eraseDups_concat, if_pos hseen, partitionBy,
    List.getElem?_modify, List.getElem?_map, List.getElem?_map]
  cases hi : (source.map key).eraseDups[i]? with
  | none => split <;> rfl
  | some k =>
    obtain ⟨hlt, hk⟩ := List.getElem?_eq_some_iff.mp hi
    -- only the slot of the key has an equal key
    have hslot : (key e == k) = true ↔ slot = i := by
      rw [BEq.comm]
      constructor
      · intro hkey
        have hfound := (findIdx?_eq_some_iff_of_pairwise hdistinct).mpr ⟨hlt, hk ▸ hkey⟩
        exact Option.some.inj (h.symm.trans hfound)
      · rintro rfl
        obtain ⟨_, hkey⟩ := (findIdx?_eq_some_iff_of_pairwise hdistinct).mp h
        exact hk ▸ hkey
    by_cases heq : slot = i
    · simp [heq, hslot.mpr heq]
    · have hne : (key e == k) = false := eq_false_of_ne_true fun hkey => heq (hslot.mp hkey)
      simp [heq, hne]

/-- Every element is in one group. -/
theorem perm_elements_partitionBy (key : ε → κ) (source : List ε) :
    ((partitionBy key source).flatMap Prod.snd).Perm source := by
  induction source using List.reverseRecOn with
  | nil => simp [partitionBy]
  | append_singleton source e ih =>
    cases hslot : (source.map key).eraseDups.findIdx? (· == key e) with
    | none =>
      have hnew : (source.map key).contains (key e) = false := by
        rw [← contains_eraseDups, ← isSome_findIdx?_beq, hslot]
        rfl
      rw [partitionBy_concat_new hnew, List.flatMap_append, List.flatMap_singleton]
      exact ih.append_right _
    | some slot =>
      obtain ⟨hlt, -⟩ := List.findIdx?_eq_some_iff_getElem.mp hslot
      have hbound : slot < (partitionBy key source).length := by
        rwa [partitionBy, List.length_map]
      -- the groups before and after the one that grows
      let before := ((partitionBy key source).take slot).flatMap Prod.snd
      let after := ((partitionBy key source).drop (slot + 1)).flatMap Prod.snd
      have hgroups : (partitionBy key source).flatMap Prod.snd =
          before ++ (((partitionBy key source)[slot]).2 ++ after) := by
        rw [← List.flatMap_cons, List.getElem_cons_drop, ← List.flatMap_append,
          List.take_append_drop]
      rw [hgroups] at ih
      rw [partitionBy_concat_seen hslot, List.modify_eq_take_cons_drop hbound, List.flatMap_append,
        List.flatMap_cons]
      calc before ++ ((((partitionBy key source)[slot]).2 ++ [e]) ++ after)
        _ = (before ++ ((partitionBy key source)[slot]).2) ++ ([e] ++ after) := by
            simp only [List.append_assoc]
        _ |>.Perm ((before ++ ((partitionBy key source)[slot]).2) ++ (after ++ [e])) :=
            List.perm_append_comm.append_left _
        _ = (before ++ (((partitionBy key source)[slot]).2 ++ after)) ++ [e] := by
            simp only [List.append_assoc]
        _ |>.Perm (source ++ [e]) := ih.append_right _

/-! ## The loop -/

omit [BEq κ] [EquivBEq κ] in
/-- An element is added to its group alone. -/
theorem toList_modify_push (groups : Array (κ × Array ε)) (slot : Nat) (e : ε) :
    (Groups.mk (groups.modify slot fun (k, es) => (k, es.push e))).toList =
      (Groups.mk groups).toList.modify slot fun (k, es) => (k, es ++ [e]) := by
  apply List.ext_getElem?
  intro i
  simp only [Groups.toList, Array.toList_modify, List.getElem?_map, List.getElem?_modify]
  split <;> cases groups.toList[i]? <;> simp

variable [Hashable κ] [LawfulHashable κ]

/-- An index of keys gives the position of each, and nothing else. -/
def Indexes (index : Std.HashMap κ Nat) (ks : List κ) : Prop :=
  ∀ k, index[k]? = ks.findIdx? (· == k)

namespace Indexes

variable {index : Std.HashMap κ Nat} {ks : List κ}

omit [LawfulHashable κ] in
/-- A key has a slot exactly if it was seen. -/
theorem isSome_eq (h : Indexes index ks) (k : κ) : (index[k]?).isSome = ks.contains k := by
  rw [h k, isSome_findIdx?_beq]

omit [LawfulHashable κ] in
/-- The slot of a key is its place among the keys. -/
theorem eq_some_iff (h : Indexes index ks) (hdistinct : ks.Pairwise fun a b => (a == b) = false)
    {k : κ} {i : Nat} : index[k]? = some i ↔ ∃ hi : i < ks.length, (ks[i] == k) = true := by
  rw [h k, findIdx?_eq_some_iff_of_pairwise hdistinct]

/-- A new key gets the position behind the others. -/
theorem insert (h : Indexes index ks) {k : κ} (hnew : ks.contains k = false) :
    Indexes (index.insert k ks.length) (ks ++ [k]) := by
  intro l
  rw [Std.HashMap.getElem?_insert, List.findIdx?_append, ← h l]
  by_cases hkl : (k == l) = true
  · have hnone : index[l]? = none := by
      rw [← Option.not_isSome_iff_eq_none, h l, ← findIdx?_beq_congr hkl, isSome_findIdx?_beq, hnew]
      exact Bool.false_ne_true
    simp [hkl, hnone]
  · simp [hkl]

end Indexes

namespace GroupsBuilder

omit [EquivBEq κ] [LawfulHashable κ] in
/-- What holds after `done` was grouped: the groups are those of `done`, and the index is that of
their keys. -/
structure Holds (b : GroupsBuilder κ ε) (key : ε → κ) (done : List ε) : Prop where
  groups : (Groups.mk b.groups).toList = partitionBy key done
  slots : Indexes b.slots (done.map key).eraseDups

/-- At first there are no groups and no elements. -/
theorem Holds.empty (key : ε → κ) : (GroupsBuilder.empty : GroupsBuilder κ ε).Holds key [] :=
  ⟨rfl, fun k => by simp [GroupsBuilder.empty]⟩

section

variable {b : GroupsBuilder κ ε} {key : ε → κ} {done : List ε}

omit [EquivBEq κ] [LawfulHashable κ] in
/-- The groups stand in the order in which their keys are first seen. -/
theorem Holds.map_fst_groups (h : b.Holds key done) :
    b.groups.toList.map Prod.fst = (done.map key).eraseDups := by
  rw [← map_fst_partitionBy, ← h.groups, Groups.toList, List.map_map]
  rfl

omit [LawfulHashable κ] in
/-- The index gives the positions of the groups by their keys, and no others. -/
theorem Holds.slots_eq_some_iff (h : b.Holds key done) {k : κ} {slot : Nat} :
    b.slots[k]? = some slot ↔ ∃ hslot : slot < b.groups.size, (b.groups[slot].1 == k) = true := by
  rw [h.slots.eq_some_iff (pairwise_eraseDups _)]
  simp only [← h.map_fst_groups, List.getElem_map, List.length_map, Array.length_toList,
    Array.getElem_toList]

/-- Adding an element keeps the invariant. -/
theorem Holds.add (h : b.Holds key done) (e : ε) : (b.add (key e) e).Holds key (done ++ [e]) := by
  have hseen := h.slots.isSome_eq (key e)
  rw [contains_eraseDups] at hseen
  unfold GroupsBuilder.add
  -- the index knows the key exactly if an element before has an equal one
  cases hfound : b.slots[key e]? with
  | some slot =>
    have hslot := (h.slots (key e)).symm.trans hfound
    have hold : (done.map key).contains (key e) = true := by
      rw [← hseen, hfound]
      rfl
    constructor
    · rw [partitionBy_concat_seen hslot, ← h.groups]
      exact toList_modify_push b.groups slot e
    · rw [List.map_append, List.map_singleton, eraseDups_concat, if_pos hold]
      exact h.slots
  | none =>
    have hnew : (done.map key).contains (key e) = false := by
      rw [← hseen, hfound]
      rfl
    constructor
    · rw [partitionBy_concat_new hnew, ← h.groups]
      simp [Groups.toList]
    · have hsize : b.groups.size = (done.map key).eraseDups.length := by
        rw [← h.map_fst_groups, List.length_map, Array.length_toList]
      rw [List.map_append, List.map_singleton, eraseDups_concat, hnew, if_neg Bool.false_ne_true,
        hsize]
      exact h.slots.insert ((contains_eraseDups _ _).trans hnew)

/-- Adding elements one after another keeps the invariant. -/
theorem Holds.addAll (h : b.Holds key done) (source : List ε) :
    (b.addAll key source).Holds key (done ++ source) := by
  induction source generalizing b done with
  | nil => simpa [GroupsBuilder.addAll] using h
  | cons e source ih =>
    have hrest := ih (h.add e)
    rw [List.append_assoc, List.singleton_append] at hrest
    exact hrest

end

/-- After all elements the groups hold all of them. -/
theorem Holds.run (key : ε → κ) (source : List ε) :
    (GroupsBuilder.empty.addAll key source).Holds key source :=
  (Holds.empty key).addAll source

end GroupsBuilder

/-- Grouping gives the distinct keys in the order in which they are first seen, each with its
elements in their order. -/
theorem toList_groupBy (key : ε → κ) (source : List ε) :
    (groupBy key source).toList = partitionBy key source :=
  (GroupsBuilder.Holds.run key source).groups

/-! ## Reading the groups -/

/-- The elements with a key, if there are any. -/
def elementsWith? (key : ε → κ) (source : List ε) (k : κ) : Option (List ε) :=
  if source.any fun e => key e == k then some (source.filter fun e => key e == k) else none

omit [Hashable κ] [LawfulHashable κ] in
/-- No two groups of a partition have equal keys. -/
theorem pairwise_partitionBy (key : ε → κ) (source : List ε) :
    (partitionBy key source).Pairwise fun a b => (a.1 == b.1) = false := by
  have hdistinct := pairwise_eraseDups (source.map key)
  rwa [← map_fst_partitionBy, List.pairwise_map] at hdistinct

omit [Hashable κ] [LawfulHashable κ] in
/-- A key that an element has is equal to the key of one group, which holds its elements. -/
theorem exists_mem_partitionBy {key : ε → κ} {source : List ε} {k : κ}
    (h : (source.any fun e => key e == k) = true) :
    ∃ l, (l == k) = true ∧ (l, source.filter fun e => key e == k) ∈ partitionBy key source := by
  rw [← contains_map_eq_any, ← contains_eraseDups, List.contains_iff_exists_mem_beq] at h
  obtain ⟨l, hl, hkl⟩ := h
  have hsame : (fun e => key e == k) = fun e => key e == l :=
    funext fun e => BEq.congr_right hkl
  refine ⟨l, BEq.symm hkl, List.mem_map.mpr ⟨l, hl, ?_⟩⟩
  rw [hsame]

omit [Hashable κ] [LawfulHashable κ] in
/-- A partition has a group exactly for the keys of elements. -/
theorem contains_map_fst_partitionBy (key : ε → κ) (source : List ε) (k : κ) :
    ((partitionBy key source).map Prod.fst).contains k = source.any fun e => key e == k := by
  rw [map_fst_partitionBy, contains_eraseDups, contains_map_eq_any]

omit [Hashable κ] [LawfulHashable κ] in
/-- Of groups with distinct keys, the one with a key is found. -/
theorem find?_eq_some_of_pairwise {groups : List (κ × List ε)}
    (h : groups.Pairwise fun a b => (a.1 == b.1) = false) {k l : κ} {es : List ε}
    (hl : (l == k) = true) (hmem : (l, es) ∈ groups) :
    (groups.find? fun (k', _) => k' == k) = some (l, es) := by
  obtain ⟨before, after, rfl⟩ := List.append_of_mem hmem
  rw [List.pairwise_append] at h
  refine List.find?_eq_some_iff_append.mpr ⟨hl, before, after, rfl, ?_⟩
  intro g hg
  have hdistinct := h.2.2 g hg (l, es) List.mem_cons_self
  rw [BEq.congr_right hl] at hdistinct
  simpa using hdistinct

/-- Looking a key up in the groups gives the elements that have it. -/
theorem get?_groupBy (key : ε → κ) (source : List ε) (k : κ) :
    (groupBy key source).get? k = elementsWith? key source k := by
  rw [Groups.get?, toList_groupBy, elementsWith?]
  split
  · next h =>
    obtain ⟨l, hl, hmem⟩ := exists_mem_partitionBy h
    rw [find?_eq_some_of_pairwise (pairwise_partitionBy key source) hl hmem]
    rfl
  · next h =>
    rw [← contains_map_fst_partitionBy, List.contains_iff_exists_mem_beq] at h
    rw [Option.map_eq_none_iff, List.find?_eq_none]
    intro g hg hk
    exact h ⟨g.1, List.mem_map_of_mem hg, BEq.symm hk⟩

/-! ## Groups as a map -/

/-- A key is in the map exactly if an element has it. -/
theorem mem_toMap_groupBy {key : ε → κ} {source : List ε} {k : κ} :
    k ∈ (groupBy key source).toMap ↔ ∃ e ∈ source, (key e == k) = true := by
  rw [Groups.toMap, toList_groupBy, Std.HashMap.mem_ofList, contains_map_fst_partitionBy,
    List.any_eq_true]

/-- The map holds, for each key, the elements that have it, in their order. -/
theorem getElem?_toMap_groupBy (key : ε → κ) (source : List ε) (k : κ) :
    (groupBy key source).toMap[k]? = elementsWith? key source k := by
  rw [Groups.toMap, toList_groupBy, elementsWith?]
  split
  · next h =>
    obtain ⟨l, hl, hmem⟩ := exists_mem_partitionBy h
    exact Std.HashMap.getElem?_ofList_of_mem hl (pairwise_partitionBy key source) hmem
  · next h =>
    rw [← contains_map_fst_partitionBy] at h
    exact Std.HashMap.getElem?_ofList_of_contains_eq_false (eq_false_of_ne_true h)

/-- The map has one entry for each distinct key. -/
theorem size_toMap_groupBy (key : ε → κ) (source : List ε) :
    (groupBy key source).toMap.size = (source.map key).eraseDups.length := by
  rw [Groups.toMap, toList_groupBy, Std.HashMap.size_ofList (pairwise_partitionBy key source),
    partitionBy, List.length_map]

/-- A map of entries with distinct keys has these entries. -/
theorem toList_ofList_perm {ν : Type} {entries : List (κ × ν)}
    (h : entries.Pairwise fun a b => (a.1 == b.1) = false) :
    (Std.HashMap.ofList entries).toList.Perm entries := by
  induction entries using List.reverseRecOn with
  | nil => simp
  | append_singleton entries entry ih =>
    rw [List.pairwise_append] at h
    have hbefore := ih h.1
    have hinsert : Std.HashMap.ofList (entries ++ [entry]) =
        (Std.HashMap.ofList entries).insert entry.1 entry.2 := by
      rw [Std.HashMap.ofList_eq_insertMany_empty, Std.HashMap.insertMany_append,
        Std.HashMap.insertMany_list_singleton, ← Std.HashMap.ofList_eq_insertMany_empty]
    -- no entry that is there has the key of the new one
    have hkept : (Std.HashMap.ofList entries).toList.filter (fun a => ¬(entry.1 == a.1) = true) =
        (Std.HashMap.ofList entries).toList := by
      refine List.filter_eq_self.mpr fun a ha => ?_
      have hdistinct := h.2.2 a (hbefore.mem_iff.mp ha) entry List.mem_cons_self
      rw [BEq.comm, hdistinct]
      rfl
    have hlast := Std.HashMap.toList_insert_perm (m := Std.HashMap.ofList entries)
      (k := entry.1) (v := entry.2)
    rw [hkept] at hlast
    rw [hinsert]
    exact hlast.trans ((hbefore.cons entry).trans (List.perm_append_singleton _ _).symm)

/-! ## All readings together -/

/-- Groups are a stable partition of a sequence, and all ways to read them agree. -/
structure Groups.Partitions (g : Groups κ ε) (key : ε → κ) (source : List ε) : Prop where
  /-- The keys are the distinct ones, in the order in which they are first seen. -/
  keys : g.keys = (source.map key).eraseDups
  /-- Each key comes with its elements, in their order. -/
  toList : g.toList = g.keys.map fun k => (k, source.filter fun e => key e == k)
  toArray : g.toArray = (g.toList.map fun (k, es) => (k, es.toArray)).toArray
  size : g.size = g.keys.length
  isEmpty : g.isEmpty = source.isEmpty
  /-- Every element is in one group. -/
  elements : (g.toList.flatMap Prod.snd).Perm source
  elementCount : g.elementCount = source.length
  get? : ∀ k, g.get? k = elementsWith? key source k
  toMap : ∀ k, g.toMap[k]? = g.get? k
  /-- The map loses no group. -/
  toList_toMap : g.toMap.toList.Perm g.toList

omit [BEq κ] [EquivBEq κ] [Hashable κ] [LawfulHashable κ] in
/-- Groups are known by their lists. -/
theorem Groups.toArray_eq (g : Groups κ ε) :
    g.toArray = (g.toList.map fun (k, es) => (k, es.toArray)).toArray := by
  simp [Groups.toList, Function.comp_def]

/-- There are no groups exactly if there are no elements. -/
theorem isEmpty_groupBy (key : ε → κ) (source : List ε) :
    (groupBy key source).isEmpty = source.isEmpty := by
  have hempty : (groupBy key source).isEmpty = (groupBy key source).toList.isEmpty := by
    simp [Groups.isEmpty, Groups.toList]
  rw [hempty, toList_groupBy, partitionBy]
  cases source with
  | nil => rfl
  | cons e source => simp [List.eraseDups_cons]

/-- The keys stand in the order in which they are first seen. -/
theorem keys_groupBy (key : ε → κ) (source : List ε) :
    (groupBy key source).keys = (source.map key).eraseDups := by
  rw [Groups.keys, toList_groupBy, map_fst_partitionBy]

/-- Grouping partitions the elements. -/
theorem partitions_groupBy (key : ε → κ) (source : List ε) :
    (groupBy key source).Partitions key source := by
  -- Every reader is a view of the list of groups, which is the partition by key.
  have hlist := toList_groupBy key source
  have hperm := perm_elements_partitionBy key source
  rw [← hlist] at hperm
  constructor
  · exact keys_groupBy key source
  · rw [keys_groupBy, hlist, partitionBy]
  · exact Groups.toArray_eq _
  · rw [Groups.keys, Groups.toList, List.length_map, List.length_map, Array.length_toList]
    rfl
  · exact isEmpty_groupBy key source
  · exact hperm
  · exact hperm.length_eq
  · exact get?_groupBy key source
  · intro k
    rw [getElem?_toMap_groupBy, get?_groupBy]
  · rw [Groups.toMap, hlist]
    exact toList_ofList_perm (pairwise_partitionBy key source)

/-- The groups of a sequence partition it stably, and after every part of it, the index gives the
position of the group of each key that was seen, and no other position. -/
theorem groupBy_stable_partition (key : ε → κ) (source : List ε) :
    (groupBy key source).Partitions key source ∧
      ∀ done rest, source = done ++ rest →
        let b := (GroupsBuilder.empty : GroupsBuilder κ ε).addAll key done
        ∀ k slot, b.slots[k]? = some slot ↔
          ∃ h : slot < b.groups.size, (b.groups[slot].1 == k) = true := by
  constructor
  · exact partitions_groupBy key source
  · intro done rest _ b k slot
    exact (GroupsBuilder.Holds.run key done).slots_eq_some_iff

/-- Identities with different names make one group if they are equal, under the first name. -/
theorem groupBy_stable_partition_identities :
    let values : List TypeIdentity := [.string, .vec .string, ⟨"::std::string::String", "String"⟩]
    (EquivBEq TypeIdentity ∧ LawfulHashable TypeIdentity) ∧
      (groupBy id values).Partitions id values ∧
      (groupBy id values).keys.map TypeIdentity.name =
        ["alloc::string::String", "alloc::vec::Vec<alloc::string::String>"] := by
  intro values
  have hgroups := (groupBy_stable_partition id values).1
  refine ⟨⟨inferInstance, inferInstance⟩, hgroups, ?_⟩
  rw [hgroups.keys]
  decide +kernel

end Memberwise
