import Memberwise.Proofs.Lexing
import Memberwise.Text.CaseMap

/-!
# Memberwise.Proofs.CaseMapping — small and capital letters in identifiers

The tables of case mappings and of identifier characters are compared range by range: a range moves
as a whole, so its images start identifiers if they lie in one range of such characters
(`CodeTable.covers`), and the range stays where it is if it meets no range that moves
(`CodeTable.avoids`). The few ranges for which neither holds are looked through one by one.

Both mappings keep letters letters (`keepsWords_upper`, `keepsWords_lower`), so the capital or small
form of a character that starts identifiers is a word (`isWord_upperChar`, `isWord_lowerChar`). A
character that can only continue them is its own form, apart from the combining iota, whose capital
form is a letter (`upperChar_of_extra`).
-/

namespace Memberwise.Text

open Token (IsWord)

/-! ## Ranges in tables -/

/-- Whether a range lies in one range of the set. -/
def CodeTable.covers : CodeTable → Nat → Nat → Bool
  | [], _, _ => false
  | (first, last, step) :: rest, low, high =>
    if last < low then CodeTable.covers rest low high
    else decide (first ≤ low) && decide (high ≤ last) && step == 1

/-- Whether a range ends before the set goes on. -/
def CodeTable.avoids : CodeTable → Nat → Nat → Bool
  | [], _, _ => true
  | (first, last, _) :: rest, low, high =>
    if last < low then CodeTable.avoids rest low high
    else decide (high < first) && decide (high ≤ last)

section

variable {t : CodeTable} {low high n : Nat}

/-- A range that a table covers is in the table. -/
theorem CodeTable.has_of_covers (h : t.covers low high = true) (hlow : low ≤ n) (hhigh : n ≤ high) :
    t.has n = true := by
  induction t with
  | nil => cases h
  | cons r t ih =>
    obtain ⟨first, last, step⟩ := r
    rw [covers] at h
    -- Ranges that end before the interval are skipped; the first other one has to hold it.
    split at h
    · rw [has, if_neg (by omega)]
      exact ih h
    · simp only [Bool.and_eq_true, decide_eq_true_eq, beq_iff_eq] at h
      obtain ⟨⟨hfirst, hlast⟩, rfl⟩ := h
      rw [has, if_pos (by omega), decide_eq_true (by omega), Nat.mod_one]
      rfl

/-- A range that a table avoids is not in the table. -/
theorem CodeTable.has_of_avoids (h : t.avoids low high = true) (hlow : low ≤ n) (hhigh : n ≤ high) :
    t.has n = false := by
  induction t with
  | nil => rfl
  | cons r t ih =>
    obtain ⟨first, last, step⟩ := r
    rw [avoids] at h
    split at h
    · rw [has, if_neg (by omega)]
      exact ih h
    · simp only [Bool.and_eq_true, decide_eq_true_eq] at h
      rw [has, if_pos (by omega), decide_eq_false (by omega), Bool.false_and]

end

/-- An image comes from one of the ranges of its map. -/
theorem CodeMap.exists_range_of_image? {m : CodeMap} {n image : Nat} (h : m.image? n = some image) :
    ∃ r ∈ m, r.1 ≤ n ∧ n ≤ r.2.1 ∧ (n - r.1) % r.2.2.1 = 0 ∧ image = r.2.2.2 + (n - r.1) := by
  induction m with
  | nil => cases h
  | cons r m ih =>
    obtain ⟨first, last, step, base⟩ := r
    rw [image?] at h
    -- The first range that does not end before the number is the one it lies in, if any.
    split at h
    · next hlast =>
      split at h
      · next hfirst =>
        exact ⟨_, List.mem_cons_self, hfirst.1, hlast, hfirst.2, (Option.some.inj h).symm⟩
      · cases h
    · obtain ⟨r, hr, hrange⟩ := ih h
      exact ⟨r, List.mem_cons_of_mem _ hr, hrange⟩

/-- Whether what the map moves within the set stays in the set. -/
def CodeTable.isClosed (t : CodeTable) (m : CodeMap) : Bool :=
  m.all fun (first, last, step, image) =>
    t.covers image (image + (last - first)) ||
      (List.range (last - first + 1)).all fun k =>
        k % step != 0 || !t.has (first + k) || t.has (image + k)

/-- A table that is closed under a map has the images of its code points. -/
theorem CodeTable.has_image {t : CodeTable} {m : CodeMap} (h : t.isClosed m = true) {n image : Nat}
    (hn : t.has n = true) (himage : m.image? n = some image) : t.has image = true := by
  obtain ⟨⟨first, last, step, base⟩, hr, hfirst, hlast, hstep, rfl⟩ :=
    CodeMap.exists_range_of_image? himage
  dsimp only at hfirst hlast hstep ⊢
  have hrange := List.all_eq_true.mp h _ hr
  rw [Bool.or_eq_true] at hrange
  rcases hrange with hcovers | hpoints
  · exact has_of_covers hcovers (by omega) (by omega)
  · have hpoint := List.all_eq_true.mp hpoints (n - first) (List.mem_range.mpr (by omega))
    rw [Nat.add_sub_cancel' hfirst, hn, hstep] at hpoint
    exact hpoint

/-! ## Characters that start identifiers -/

/-- A valid code point is that of its character. -/
theorem toNat_ofNat_of_isValidChar {n : Nat} (h : n.isValidChar) : (Char.ofNat n).toNat = n := by
  rw [Char.ofNat, dif_pos h]
  rfl

/-- Code points that start identifiers are those of characters. -/
theorem toNat_ofNat_of_has {n : Nat} (h : identStart.has n = true) : (Char.ofNat n).toNat = n := by
  have hranges : ∀ r ∈ identStart, r.2.1 < 0xD800 ∨ (0xDFFF < r.1 ∧ r.2.1 < 0x110000) := by
    decide +kernel
  obtain ⟨r, hr, hfirst, hlast⟩ := CodeTable.exists_range_of_has h
  apply toNat_ofNat_of_isValidChar
  rcases hranges r hr with hlow | ⟨hhigh, hmax⟩
  · exact Or.inl (by omega)
  · exact Or.inr ⟨by omega, by omega⟩

/-- The start of a word is a word. -/
theorem isWord_singleton {c : Char} (h : isIdentStart c = true) : IsWord [c] :=
  ⟨c, [], rfl, h, by simp⟩

/-- Under a case mapping, letters stay letters, and what can only continue identifiers stays as it
is, except for the code point `skip`, for which the mapping may have an entry of its own. -/
structure KeepsWords (single : CodeMap) (expansions : List (Nat × List Nat)) (skip : Nat) :
    Prop where
  letters : identStart.isClosed single = true
  words : ∀ e ∈ expansions, IsWord (e.2.map Char.ofNat)
  extras : ∀ r ∈ single, r.1 = skip ∧ r.2.1 = skip ∨ identExtra.avoids r.1 r.2.1 = true
  expansions : ∀ e ∈ expansions, identExtra.has e.1 = false

/-- The combining iota has a capital form, which is a letter. -/
theorem keepsWords_upper : KeepsWords upperMap upperExpansions 0x345 := by
  constructor <;> decide +kernel

/-- Small letters keep words. -/
theorem keepsWords_lower : KeepsWords lowerMap lowerExpansions 0 := by
  constructor <;> decide +kernel

section

variable {single : CodeMap} {expansions : List (Nat × List Nat)} {skip : Nat} {c : Char}

/-- What such a mapping makes of the start of a word is a word. -/
theorem KeepsWords.isWord_mapCase (hkeeps : KeepsWords single expansions skip)
    (h : identStart.has c.toNat = true) : IsWord (mapCase single expansions c) := by
  rw [mapCase]
  -- A letter goes to a letter, to a word of several characters, or to itself.
  cases himage : single.image? c.toNat with
  | some n =>
    have hn : identStart.has n = true := CodeTable.has_image hkeeps.letters h himage
    apply isWord_singleton
    rw [isIdentStart, toNat_ofNat_of_has hn, hn, Bool.or_true]
  | none =>
    cases hlookup : expansions.lookup c.toNat with
    | some ns =>
      obtain ⟨before, after, heq, -⟩ := List.lookup_eq_some_iff.mp hlookup
      exact hkeeps.words (c.toNat, ns) (by simp [heq])
    | none =>
      apply isWord_singleton
      rw [isIdentStart, h, Bool.or_true]

/-- Such a mapping leaves what can only go on with a word. -/
theorem KeepsWords.mapCase_of_extra (hkeeps : KeepsWords single expansions skip)
    (h : identExtra.has c.toNat = true) (hskip : c.toNat ≠ skip) :
    mapCase single expansions c = [c] := by
  have himage : single.image? c.toNat = none := by
    refine Option.eq_none_iff_forall_ne_some.mpr fun n hn => ?_
    obtain ⟨r, hr, hfirst, hlast, -⟩ := CodeMap.exists_range_of_image? hn
    -- No range of images meets the extra characters, save perhaps at the one that is skipped.
    rcases hkeeps.extras r hr with ⟨hf, hl⟩ | havoids
    · omega
    · rw [CodeTable.has_of_avoids havoids hfirst hlast] at h
      cases h
  have hlookup : expansions.lookup c.toNat = none := by
    refine Option.eq_none_iff_forall_ne_some.mpr fun ns hns => ?_
    obtain ⟨before, after, heq, -⟩ := List.lookup_eq_some_iff.mp hns
    rw [hkeeps.expansions (c.toNat, ns) (by simp [heq])] at h
    cases h
  rw [mapCase, himage, hlookup]

end

/-- The capital form of a character that starts identifiers is a word. -/
theorem isWord_upperChar {c : Char} (h : isIdentStart c = true) : IsWord (upperChar c) := by
  rw [isIdentStart, Bool.or_eq_true, beq_iff_eq] at h
  rcases h with rfl | h
  · decide
  · exact keepsWords_upper.isWord_mapCase h

/-- The small form of a character that starts identifiers is a word. -/
theorem isWord_lowerChar {c : Char} (h : isIdentStart c = true) : IsWord (lowerChar c) := by
  rw [isIdentStart, Bool.or_eq_true, beq_iff_eq] at h
  rcases h with rfl | h
  · decide
  · exact keepsWords_lower.isWord_mapCase h

/-! ## Characters that continue identifiers -/

/-- A character that can only continue identifiers is its own capital form, unless it is the
combining iota. -/
theorem upperChar_of_extra {c : Char} (h : identExtra.has c.toNat = true) (hiota : c ≠ '\u0345') :
    upperChar c = [c] :=
  keepsWords_upper.mapCase_of_extra h fun heq => hiota (Char.toNat_inj.mp heq)

/-- What can only go on with a word has no small letter. -/
theorem lowerChar_of_extra {c : Char} (h : identExtra.has c.toNat = true) : lowerChar c = [c] := by
  have hzero : c.toNat ≠ 0 := by
    intro heq
    rw [heq] at h
    revert h
    decide
  exact keepsWords_lower.mapCase_of_extra h hzero

/-- What starts a word can go on with one. -/
theorem isIdentContinue_of_isIdentStart {c : Char} (h : isIdentStart c = true) :
    isIdentContinue c = true := by
  rw [isIdentStart, Bool.or_eq_true, beq_iff_eq] at h
  rcases h with rfl | h
  · decide
  · rw [isIdentContinue, h, Bool.true_or]

/-- A digit can go on with a word. -/
theorem isIdentContinue_of_isDigit {c : Char} (h : c.isDigit = true) :
    isIdentContinue c = true := by
  simp only [Char.isDigit, Bool.and_eq_true, decide_eq_true_eq] at h
  have hdigits : identExtra.covers 0x30 0x39 = true := by decide
  have hextra : identExtra.has c.toNat = true := CodeTable.has_of_covers hdigits h.1 h.2
  rw [isIdentContinue, hextra, Bool.or_true]

end Memberwise.Text

namespace Memberwise

open Text

/-- The characters of a word continue words. -/
theorem Token.IsWord.isIdentContinue {cs : List Char} (h : IsWord cs) :
    ∀ c ∈ cs, isIdentContinue c = true := by
  obtain ⟨first, more, rfl, hfirst, hmore⟩ := h
  exact List.forall_mem_cons.mpr ⟨isIdentContinue_of_isIdentStart hfirst, hmore⟩

/-- What can go on with a word can do so in capital letters. -/
theorem isIdentContinue_upperChar {c : Char} (h : isIdentContinue c = true) :
    ∀ d ∈ upperChar c, isIdentContinue d = true := by
  rw [isIdentContinue, Bool.or_eq_true] at h
  rcases h with h | h
  · exact (isWord_upperChar (by rw [isIdentStart, h, Bool.or_true])).isIdentContinue
  · by_cases hiota : c = '\u0345'
    · subst hiota
      exact List.all_eq_true.mp (by decide)
    · rw [upperChar_of_extra h hiota, List.forall_mem_singleton, isIdentContinue, h, Bool.or_true]

/-- What can go on with a word can do so in small letters. -/
theorem isIdentContinue_lowerChar {c : Char} (h : isIdentContinue c = true) :
    ∀ d ∈ lowerChar c, isIdentContinue d = true := by
  rw [isIdentContinue, Bool.or_eq_true] at h
  rcases h with h | h
  · exact (isWord_lowerChar (by rw [isIdentStart, h, Bool.or_true])).isIdentContinue
  · rw [lowerChar_of_extra h, List.forall_mem_singleton, isIdentContinue, h, Bool.or_true]

end Memberwise
