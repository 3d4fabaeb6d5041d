import Memberwise.Artifact
import Memberwise.Proofs.NameMatch

/-!
# Memberwise.Proofs.Branches — what collapsing branches does to a request

A request selects the first member whose name it matches. Generated code has a branch only for the
first member of each key, a key being a type and the small form of a whole name, and takes the first
branch whose name the request matches.

The two agree exactly if the first member with the key of the selected one matches the request too.
This can fail, since a capital sigma at the end of a word has one small form in a whole name and
another one on its own. It cannot fail for names without capital sigmas.
-/

namespace Memberwise

open Text

/-! ## The members that get a branch -/

/-- The first member of each key that is not yet `seen`. -/
def firstOfKeys (seen : List (String × String)) : List Member → List Member
  | [] => []
  | m :: ms =>
    if seen.contains m.branchKey then firstOfKeys seen ms
    else m :: firstOfKeys (m.branchKey :: seen) ms

theorem map_member_branchesAfter (seen : List (String × String)) (used : List String)
    (members : List Member) :
    (branchesAfter seen used members).value.map Branch.member = firstOfKeys seen members := by
  induction members generalizing seen used with
  | nil => rfl
  | cons m ms ih =>
    rw [branchesAfter, firstOfKeys]
    split
    · exact ih seen used
    · exact congrArg (m :: ·) (ih _ _)

/-- Branches are made for the first member of each key, in order. -/
theorem map_member_branches (members : List Member) :
    (branches members).value.map Branch.member = firstOfKeys [] members :=
  map_member_branchesAfter [] [] members

theorem firstOfKeys_sublist {seen : List (String × String)} {members : List Member} :
    (firstOfKeys seen members).Sublist members := by
  induction members generalizing seen with
  | nil => exact List.Sublist.refl _
  | cons m ms ih =>
    rw [firstOfKeys]
    split
    · exact ih.cons m
    · exact ih.cons_cons m

theorem branchKey_notMem_seen {seen : List (String × String)} {members : List Member} {m : Member}
    (h : m ∈ firstOfKeys seen members) : m.branchKey ∉ seen := by
  induction members generalizing seen with
  | nil => simp [firstOfKeys] at h
  | cons x xs ih =>
    rw [firstOfKeys] at h
    split at h
    · exact ih h
    · next hseen =>
      rcases List.mem_cons.mp h with rfl | htail
      · simpa using hseen
      · exact fun hmem => ih htail (List.mem_cons_of_mem _ hmem)

/-! ## Selection -/

/-- The first member that a request matches. -/
def selected? (members : List Member) (requested : String) : Option Member :=
  members.find? fun m => namesMatch requested m.name

/-- The first branch that a request matches. -/
def selectedBranch? (members : List Member) (requested : String) : Option Branch :=
  (branches members).value.find? fun b => namesMatch requested b.member.name

/-- The member that the branch of a key is for. -/
def keyHolder? (members : List Member) (key : String × String) : Option Member :=
  members.find? fun m => m.branchKey == key

theorem member_selectedBranch? (members : List Member) (requested : String) :
    (selectedBranch? members requested).map Branch.member =
      (firstOfKeys [] members).find? fun m => namesMatch requested m.name := by
  rw [← map_member_branches, List.find?_map]
  rfl

/-- Looking among the first members of their keys finds the first member at all, unless its key was
seen before or its key is held by a member that is not looked for. The induction is on the members
that are left; `seen` holds the keys of those before them. -/
theorem find?_firstOfKeys_iff (p : Member → Bool) (seen : List (String × String))
    (members : List Member) :
    (firstOfKeys seen members).find? p = members.find? p ↔
      ∀ m, members.find? p = some m →
        m.branchKey ∉ seen ∧ ∀ a, keyHolder? members m.branchKey = some a → p a = true := by
  induction members generalizing seen with
  | nil => simp [firstOfKeys]
  | cons x xs ih =>
    by_cases hp : p x = true
    · -- the first member is the one that is looked for
      simp only [List.find?_cons_of_pos hp, Option.some.injEq, forall_eq']
      by_cases hseen : x.branchKey ∈ seen
      · have hlost : (firstOfKeys seen (x :: xs)).find? p ≠ some x := by
          intro hfound
          exact branchKey_notMem_seen (List.mem_of_find?_eq_some hfound) hseen
        simp [hlost, hseen]
      · have hholder : keyHolder? (x :: xs) x.branchKey = some x := by simp [keyHolder?]
        simp [firstOfKeys, hseen, hp, hholder]
    · simp only [List.find?_cons_of_neg hp]
      by_cases hseen : x.branchKey ∈ seen
      · have hdrop : firstOfKeys seen (x :: xs) = firstOfKeys seen xs := by
          simp [firstOfKeys, hseen]
        rw [hdrop, ih]
        -- a key that was seen has no holder left to find
        refine forall₂_congr fun m _ => and_congr_right fun hm => ?_
        have hne : x.branchKey ≠ m.branchKey := fun heq => hm (heq ▸ hseen)
        simp [keyHolder?, hne]
      · have hkeep : firstOfKeys seen (x :: xs) = x :: firstOfKeys (x.branchKey :: seen) xs := by
          simp [firstOfKeys, hseen]
        rw [hkeep, List.find?_cons_of_neg hp, ih]
        refine forall₂_congr fun m _ => ?_
        -- the member that takes the key now is its holder from here on
        by_cases hkey : x.branchKey = m.branchKey
        · simp [keyHolder?, hkey, hp]
        · simp [keyHolder?, hkey, Ne.symm hkey]

theorem lowerEach_eq_of_branchKey_eq {a b : Member} (ha : 'Σ' ∉ a.name.toList)
    (hb : 'Σ' ∉ b.name.toList) (h : a.branchKey = b.branchKey) :
    lowerEach a.name = lowerEach b.name := by
  have hname : lowerText a.name = lowerText b.name := congrArg Prod.fst h
  rw [lowerText_of_no_sigma ha, lowerText_of_no_sigma hb] at hname
  exact String.ofList_injective hname

theorem namesMatch_selected? {members : List Member} {requested : String} {m : Member}
    (h : selected? members requested = some m) : lowerEach requested = lowerEach m.name := by
  have hmatch := List.find?_some h
  exact namesMatch_iff.mp hmatch

theorem branchKey_keyHolder? {members : List Member} {key : String × String} {a : Member}
    (h : keyHolder? members key = some a) : a.branchKey = key := by
  have hkey := List.find?_some h
  exact beq_iff_eq.mp hkey

/-- Collapsing branches keeps what a request selects exactly if the first member with the key of the
selected member has, character by character, the same small letters. The two can differ in nothing
but small sigmas, and do not differ at all if no name holds a capital sigma. -/
theorem collapse_keeps_selection_iff (members : List Member) (requested : String) :
    ((selectedBranch? members requested).map Branch.member = selected? members requested ↔
      ∀ m, selected? members requested = some m →
        ∀ a, keyHolder? members m.branchKey = some a → lowerEach a.name = lowerEach m.name) ∧
    (∀ m a : Member, keyHolder? members m.branchKey = some a →
      (lowerEach a.name).map sigmaMerged = (lowerEach m.name).map sigmaMerged) ∧
    ((∀ m ∈ members, 'Σ' ∉ m.name.toList) →
      (selectedBranch? members requested).map Branch.member = selected? members requested) := by
  have hiff : (selectedBranch? members requested).map Branch.member = selected? members requested ↔
      ∀ m, selected? members requested = some m →
        ∀ a, keyHolder? members m.branchKey = some a → lowerEach a.name = lowerEach m.name := by
    rw [member_selectedBranch?, selected?, find?_firstOfKeys_iff]
    -- Both sides quantify over the selected member, whose name matches the request.
    refine forall₂_congr fun m hm => ?_
    have hm' := namesMatch_selected? hm
    simp only [List.not_mem_nil, not_false_eq_true, true_and, namesMatch_iff, hm']
    exact forall₂_congr fun a _ => eq_comm
  refine ⟨hiff, ?_, ?_⟩
  · intro m a ha
    exact sigmaMerged_lowerEach_of_lowerText_eq (congrArg Prod.fst (branchKey_keyHolder? ha))
  -- Without a capital sigma the lowercase of a name is taken character by character.
  · intro hsigma
    refine hiff.mpr fun m hm a ha => ?_
    have hmem : m ∈ members := List.mem_of_find?_eq_some hm
    have hamem : a ∈ members := List.mem_of_find?_eq_some ha
    exact lowerEach_eq_of_branchKey_eq (hsigma a hamem) (hsigma m hmem) (branchKey_keyHolder? ha)

/-- The sign for kelvin and the letter are two spellings of one name. -/
theorem collapse_keeps_selection_kelvin :
    let members : List Member :=
      [⟨"kind", "kind", "u8", true, .nonNullable⟩,
        ⟨"\u212Aind", "\u212Aind", "u8", true, .nonNullable⟩]
    (∀ m ∈ members, 'Σ' ∉ m.name.toList) ∧
      (selectedBranch? members "KIND").map Branch.member = selected? members "KIND" :=
  ⟨by decide, (collapse_keeps_selection_iff _ _).2.2 (by decide)⟩

/-- A name that ends in a final sigma is collapsed into one that ends in a capital sigma, which a
request for the former does not match. -/
theorem collapse_loses_final_sigma :
    let members : List Member :=
      [⟨"ΑΣ", "ΑΣ", "u8", true, .nonNullable⟩, ⟨"ας", "ας", "u8", true, .nonNullable⟩]
    selected? members "ας" = some ⟨"ας", "ας", "u8", true, .nonNullable⟩ ∧
      selectedBranch? members "ας" = none := by
  decide +kernel

end Memberwise
