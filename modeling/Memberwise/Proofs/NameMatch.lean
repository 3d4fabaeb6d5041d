import Memberwise.NameMatch
import Memberwise.Proofs.CaseMapping

/-!
# Memberwise.Proofs.NameMatch — two ways to disregard case

A requested name is compared character by character, and the branches of a type are compared by
the small form of whole names. Here both are brought to one form, the list of the small letters of
each character:

* `namesMatch_iff`: the shorter way for ASCII names decides the same question as the general one,
  so matching is an equivalence (`namesMatch_equivalence`);
* `ascii_of_lowerChar`: a character that is not ASCII has no small form in ASCII, the Kelvin sign
  apart, so that this sign alone is what an ASCII name can match beside ASCII;
* `lowerText_of_no_sigma`: the small form of a whole text is that list unless a capital sigma
  occurs in it;
* `sigmaMerged_lowerEach_of_lowerText_eq`: whole texts with the same small form have lists that
  differ at most in which of the two small sigmas they hold.
-/

namespace Memberwise

open Text

/-! ## ASCII -/

theorem lowerChar_ofNat_of_ascii :
    ∀ n < 128, lowerChar (Char.ofNat n) = [(Char.ofNat n).toLower] := by
  decide

theorem lowerChar_of_ascii {c : Char} (h : c.toNat < 128) : lowerChar c = [c.toLower] := by
  have hc := lowerChar_ofNat_of_ascii c.toNat h
  rwa [Char.ofNat_toNat] at hc

theorem flatMap_lowerChar_of_ascii {cs : List Char} (h : ∀ c ∈ cs, c.toNat < 128) :
    cs.flatMap lowerChar = cs.map Char.toLower := by
  induction cs with
  | nil => rfl
  | cons c cs ih =>
    have hc : lowerChar c = [c.toLower] := lowerChar_of_ascii (h c (by simp))
    have hcs := ih fun d hd => h d (by simp [hd])
    simp only [List.flatMap_cons, List.map_cons, hc, hcs, List.singleton_append]

theorem lowerEach_of_ascii {s : String} (h : isAsciiText s = true) :
    lowerEach s = s.toList.map Char.toLower := by
  apply flatMap_lowerChar_of_ascii
  intro c hc
  have hall := List.all_eq_true.mp h c hc
  exact of_decide_eq_true hall

/-- Names match exactly if their characters have the same small letters, whether they are ASCII or
not. -/
theorem namesMatch_iff {requested declared : String} :
    namesMatch requested declared = true ↔ lowerEach requested = lowerEach declared := by
  unfold namesMatch
  split
  · next h =>
    rcases (Bool.and_eq_true _ _).mp h with ⟨hr, hd⟩
    rw [beq_iff_eq, lowerEach_of_ascii hr, lowerEach_of_ascii hd]
  · exact beq_iff_eq

/-! ## The Kelvin sign -/

/-- What a range of the case mapping moves is ASCII, or the Kelvin sign, or goes to characters
beyond ASCII. -/
theorem lowerMap_ranges :
    ∀ r ∈ lowerMap, r.2.1 < 128 ∨ (r.1 = 0x212A ∧ r.2.1 = 0x212A) ∨
      (128 ≤ r.2.2.2 ∧ r.2.2.2 + (r.2.1 - r.1) < 0xD800) ∨
      (0xDFFF < r.2.2.2 ∧ r.2.2.2 + (r.2.1 - r.1) < 0x110000) := by
  decide +kernel

/-- A character whose small form is ASCII is ASCII itself, or the Kelvin sign. -/
theorem ascii_of_lowerChar {c : Char} (h : ∀ d ∈ lowerChar c, d.toNat < 128) :
    c.toNat < 128 ∨ c = '\u212A' := by
  rw [lowerChar, mapCase] at h
  cases himage : lowerMap.image? c.toNat with
  | some n =>
    rw [himage] at h
    have hn : (Char.ofNat n).toNat < 128 := h _ List.mem_cons_self
    obtain ⟨r, hr, hfirst, hlast, -, rfl⟩ := CodeMap.exists_range_of_image? himage
    rcases lowerMap_ranges r hr with hascii | ⟨hf, hl⟩ | ⟨hbeyond, hmax⟩ | ⟨hbeyond, hmax⟩
    · left
      omega
    · right
      have hcode : c.toNat = 0x212A := by omega
      exact Char.toNat_inj.mp hcode
    · rw [toNat_ofNat_of_isValidChar (Or.inl (by omega))] at hn
      omega
    · rw [toNat_ofNat_of_isValidChar (Or.inr ⟨by omega, by omega⟩)] at hn
      omega
  | none =>
    rw [himage] at h
    cases hlookup : lowerExpansions.lookup c.toNat with
    | some ns =>
      -- the one character with several small ones keeps a dot, which is not ASCII
      have hdot : ∀ e ∈ lowerExpansions, '\u0307' ∈ e.2.map Char.ofNat := by decide
      obtain ⟨before, after, heq, -⟩ := List.lookup_eq_some_iff.mp hlookup
      rw [hlookup] at h
      have hlt := h '\u0307' (hdot (c.toNat, ns) (by simp [heq]))
      exact absurd hlt (by decide)
    | none =>
      rw [hlookup] at h
      left
      exact h c List.mem_cons_self

/-- A character in the small form that it has if it is ASCII or the Kelvin sign. -/
def kelvinFolded (c : Char) : Char := if c = '\u212A' then 'k' else c.toLower

theorem lowerChar_eq_kelvinFolded {c : Char} (h : c.toNat < 128 ∨ c = '\u212A') :
    lowerChar c = [kelvinFolded c] := by
  by_cases hkelvin : c = '\u212A'
  · subst hkelvin
    decide +kernel
  · have hascii : c.toNat < 128 := h.resolve_right hkelvin
    rw [lowerChar_of_ascii hascii, kelvinFolded, if_neg hkelvin]

/-- A character that is neither ASCII nor the Kelvin sign is not folded into ASCII. -/
theorem ascii_of_kelvinFolded {c : Char} (h : (kelvinFolded c).toNat < 128) :
    c.toNat < 128 ∨ c = '\u212A' := by
  by_cases hkelvin : c = '\u212A'
  · exact Or.inr hkelvin
  · rw [kelvinFolded, if_neg hkelvin] at h
    left
    by_cases hcapital : c.val ≥ 'A'.val ∧ c.val ≤ 'Z'.val
    · have hlast : c.toNat ≤ 'Z'.toNat := UInt32.le_iff_toNat_le.mp hcapital.2
      exact Nat.lt_of_le_of_lt hlast (by decide)
    · -- only the capital letters of ASCII have another form
      have hsame : c.toLower = c := dif_neg hcapital
      rwa [hsame] at h

theorem flatMap_lowerChar_eq_map_kelvinFolded {cs : List Char}
    (h : ∀ c ∈ cs, c.toNat < 128 ∨ c = '\u212A') :
    cs.flatMap lowerChar = cs.map kelvinFolded := by
  induction cs with
  | nil => rfl
  | cons c cs ih =>
    obtain ⟨hc, hcs⟩ := List.forall_mem_cons.mp h
    rw [List.flatMap_cons, lowerChar_eq_kelvinFolded hc, ih hcs]
    rfl

theorem ascii_of_mem_map_toLower {s : String} (h : isAsciiText s = true) :
    ∀ d ∈ s.toList.map Char.toLower, d.toNat < 128 := by
  have hbelow : ∀ n < 128, (Char.ofNat n).toLower.toNat < 128 := by decide
  intro d hd
  obtain ⟨c, hc, rfl⟩ := List.mem_map.mp hd
  have hsmall := hbelow c.toNat (of_decide_eq_true (List.all_eq_true.mp h c hc))
  rwa [Char.ofNat_toNat] at hsmall

/-- An ASCII name matches the names with the same letters, where the Kelvin sign counts as the
letter `k`. -/
theorem namesMatch_iff_of_ascii {requested declared : String} (h : isAsciiText requested = true) :
    namesMatch requested declared = true ↔
      requested.toList.map Char.toLower = declared.toList.map kelvinFolded := by
  have hascii := ascii_of_mem_map_toLower h
  rw [namesMatch_iff, lowerEach_of_ascii h]
  -- Either side being in ASCII forces the other to be so after folding.
  constructor
  · intro heq
    rw [heq] at hascii ⊢
    refine flatMap_lowerChar_eq_map_kelvinFolded fun c hc => ?_
    exact ascii_of_lowerChar fun d hd => hascii d (List.mem_flatMap.mpr ⟨c, hc, hd⟩)
  · intro heq
    rw [heq] at hascii ⊢
    refine (flatMap_lowerChar_eq_map_kelvinFolded fun c hc => ?_).symm
    exact ascii_of_kelvinFolded (hascii _ (List.mem_map_of_mem hc))

/-! ## An equivalence -/

/-- Names match exactly if their characters have the same small letters one after another. So
matching is an equivalence, also among names of which some are ASCII and others are not; between
these the Kelvin sign makes the only difference. -/
theorem namesMatch_equivalence :
    (∀ a b, namesMatch a b = true ↔
      a.toList.flatMap lowerChar = b.toList.flatMap lowerChar) ∧
    Equivalence (fun a b => namesMatch a b = true) ∧
    ∀ a b, isAsciiText a = true →
      (namesMatch a b = true ↔ a.toList.map Char.toLower = b.toList.map kelvinFolded) := by
  refine ⟨fun a b => namesMatch_iff, ?_, fun a b h => namesMatch_iff_of_ascii h⟩
  constructor
  · intro a
    exact namesMatch_iff.mpr rfl
  · intro a b hab
    exact namesMatch_iff.mpr (namesMatch_iff.mp hab).symm
  · intro a b c hab hbc
    exact namesMatch_iff.mpr ((namesMatch_iff.mp hab).trans (namesMatch_iff.mp hbc))

/-- Two ASCII names match through a name with the Kelvin sign. -/
theorem namesMatch_equivalence_kelvin :
    isAsciiText "mark" = true ∧ namesMatch "mark" "MAR\u212A" = true ∧
      namesMatch "MAR\u212A" "Mark" = true ∧ namesMatch "mark" "Mark" = true := by
  have hsmall : namesMatch "mark" "MAR\u212A" = true :=
    (namesMatch_equivalence.2.2 "mark" "MAR\u212A" (by decide)).mpr (by decide +kernel)
  have hlarge : namesMatch "Mark" "MAR\u212A" = true :=
    (namesMatch_equivalence.2.2 "Mark" "MAR\u212A" (by decide)).mpr (by decide +kernel)
  have hback := namesMatch_equivalence.2.1.symm hlarge
  exact ⟨by decide, hsmall, hback, namesMatch_equivalence.2.1.trans hsmall hback⟩

/-! ## Whole texts -/

/-- A character, with one small sigma for both. -/
def sigmaMerged (c : Char) : Char := if c = 'ς' then 'σ' else c

theorem lowerChar_sigma : lowerChar 'Σ' = ['σ'] := by decide

/-- Reading a text as a whole changes nothing but small sigmas. -/
theorem sigmaMerged_lowerFrom (before cs : List Char) :
    (lowerFrom before cs).map sigmaMerged = (cs.flatMap lowerChar).map sigmaMerged := by
  induction cs generalizing before with
  | nil => rfl
  | cons c cs ih =>
    rw [lowerFrom, List.flatMap_cons, List.map_append, List.map_append, ih]
    congr 1
    by_cases hc : c = 'Σ'
    · subst hc
      rw [if_pos rfl, lowerChar_sigma]
      split <;> decide
    · rw [if_neg hc]

theorem lowerFrom_of_no_sigma {cs : List Char} (h : 'Σ' ∉ cs) (before : List Char) :
    lowerFrom before cs = cs.flatMap lowerChar := by
  induction cs generalizing before with
  | nil => rfl
  | cons c cs ih =>
    have hc : c ≠ 'Σ' := fun heq => h (by simp [heq])
    have hcs : 'Σ' ∉ cs := fun hmem => h (by simp [hmem])
    rw [lowerFrom, if_neg hc, ih hcs, List.flatMap_cons]

theorem lowerText_of_no_sigma {s : String} (h : 'Σ' ∉ s.toList) :
    lowerText s = String.ofList (lowerEach s) := by
  rw [lowerText, lowerFrom_of_no_sigma h, lowerEach]

/-- Texts with the same small form differ, character by character, at most in their small sigmas. -/
theorem sigmaMerged_lowerEach_of_lowerText_eq {a b : String} (h : lowerText a = lowerText b) :
    (lowerEach a).map sigmaMerged = (lowerEach b).map sigmaMerged := by
  have hlists : lowerFrom [] a.toList = lowerFrom [] b.toList := String.ofList_injective h
  have hmerged := congrArg (List.map sigmaMerged) hlists
  rwa [sigmaMerged_lowerFrom, sigmaMerged_lowerFrom] at hmerged

end Memberwise
