import Memberwise.Proofs.CaseMapping
import Memberwise.Proofs.StringLiterals

/-!
# Memberwise.Proofs.NumberLiterals — the texts of numbers

A number is read in two ways: as one with a point or an exponent, and else as a whole number. Both
look past its end: at what follows the point, at a letter that may start an exponent or the base.
Here the text that was read as a number is read as the same number before anything that ends a
token.
-/

namespace Memberwise.Token

open Text

/-! ## Points and exponents -/

/-- What follows the digits of a number: no digit and no underscore. -/
def EndsDigits (rest : List Char) : Prop := ∀ c ∈ rest.head?, isDigitOrGap c = false

/-- What ends a token ends a row of digits. -/
theorem EndsToken.endsDigits {rest : List Char} (h : EndsToken rest) : EndsDigits rest := by
  intro c hc
  obtain ⟨-, -, hdigit, -, hothers⟩ := tokenEnds_facts c (h c hc)
  have hgap : (c == '_') = false := beq_false_of_ne fun heq => hothers (by simp [heq])
  rw [isDigitOrGap, hdigit, hgap, Bool.or_self]

/-- The digits at the start of a text. -/
theorem exists_digits (cs : List Char) :
    ∃ ds rest, cs = ds ++ rest ∧ (∀ d ∈ ds, isDigitOrGap d = true) ∧ EndsDigits rest ∧
      cs.dropWhile isDigitOrGap = rest := by
  refine ⟨_, _, List.takeWhile_append_dropWhile.symm, List.all_eq_true.mp List.all_takeWhile,
    fun c hc => ?_, rfl⟩
  have hne : cs.dropWhile isDigitOrGap ≠ [] := by
    intro hnil
    rw [hnil] at hc
    cases hc
  rw [List.head?_eq_some_head hne] at hc
  cases hc
  exact List.head_dropWhile_not isDigitOrGap hne

/-- A row of digits is passed over up to what ends it. -/
theorem dropWhile_digits {ds rest : List Char} (hds : ∀ d ∈ ds, isDigitOrGap d = true)
    (hrest : EndsDigits rest) : (ds ++ rest).dropWhile isDigitOrGap = rest := by
  rw [List.dropWhile_append_of_pos hds]
  cases rest with
  | nil => rfl
  | cons c rest => rw [List.dropWhile_cons_of_neg (by simp [hrest c rfl])]

/-- An exponent that has a digit ends with its row of digits. -/
theorem exponent?_valued {signed : Bool} {rest : List Char} (h : EndsDigits rest) :
    exponent? signed true rest = some rest := by
  cases rest with
  | nil => rfl
  | cons c rest =>
    have hc := h c rfl
    rw [isDigitOrGap, Bool.or_eq_false_iff] at hc
    simp [exponent?, hc.1, hc.2]

/-- The exponent of a number has signs, digits and underscores only. -/
def isExponentChar (c : Char) : Bool := c == '+' || c == '-' || isDigitOrGap c

/-- A number has characters of words, points and signs only. -/
def isNumberChar (c : Char) : Bool := isIdentContinue c || c == '.' || c == '+' || c == '-'

/-- Digits and their gaps could stand in a word. -/
theorem isIdentContinue_of_isDigitOrGap {c : Char} (h : isDigitOrGap c = true) :
    isIdentContinue c = true := by
  rw [isDigitOrGap, Bool.or_eq_true, beq_iff_eq] at h
  rcases h with h | rfl
  · exact isIdentContinue_of_isDigit h
  · decide

/-- What could stand in a word can stand in a number. -/
theorem isNumberChar_of_isIdentContinue {c : Char} (h : isIdentContinue c = true) :
    isNumberChar c = true := by simp [isNumberChar, h]

/-- What can stand in an exponent can stand in a number. -/
theorem isNumberChar_of_isExponentChar {c : Char} (h : isExponentChar c = true) :
    isNumberChar c = true := by
  rw [isExponentChar, Bool.or_eq_true] at h
  rcases h with h | h
  · rw [isNumberChar, Bool.or_assoc, h, Bool.or_true]
  · exact isNumberChar_of_isIdentContinue (isIdentContinue_of_isDigitOrGap h)

/-- A suffix is made of characters of words. -/
theorem Suffix.isIdentContinue {s : List Char} (h : Suffix s) :
    ∀ c ∈ s, isIdentContinue c = true := by
  rcases h with rfl | h
  · nofun
  · exact h.isIdentContinue

/-- What is taken of an exponent is taken again before any text that ends a row of digits. -/
theorem exponent?_sound {signed valued : Bool} {cs rest : List Char}
    (h : exponent? signed valued cs = some rest) :
    EndsDigits rest ∧ ∃ x, cs = x ++ rest ∧ (∀ c ∈ x, isExponentChar c = true) ∧
      ∀ rest', EndsDigits rest' → exponent? signed valued (x ++ rest') = some rest' := by
  have hcons : ∀ {c : Char} {x : List Char}, isExponentChar c = true →
      (∀ d ∈ x, isExponentChar d = true) → ∀ d ∈ c :: x, isExponentChar d = true :=
    fun hc hx => List.forall_mem_cons.mpr ⟨hc, hx⟩
  have hnil : ∀ c ∈ ([] : List Char), isExponentChar c = true := fun _ hc => by cases hc
  fun_induction exponent? signed valued cs with
  | case1 signed =>
    cases h
    exact ⟨fun c hc => (by cases hc), [], rfl, hnil, fun _ => exponent?_valued⟩
  | case2 => cases h
  | case3 signed c cs hsign =>
    cases h
    -- what ends the digits of an exponent is left in the text
    refine ⟨fun d hd => ?_, [], rfl, hnil, fun _ => exponent?_valued⟩
    cases hd
    rw [Bool.or_eq_true, beq_iff_eq, beq_iff_eq] at hsign
    rcases hsign with rfl | rfl <;> decide
  | case4 => cases h
  | case5 signed valued c cs hsign hvalued hsigned ih =>
    obtain ⟨hends, x, rfl, hx, hread⟩ := ih h
    refine ⟨hends, c :: x, rfl, hcons (by simp [isExponentChar, hsign]) hx, fun rest' hrest' => ?_⟩
    rw [List.cons_append, exponent?, if_pos hsign, if_neg hvalued, if_neg hsigned]
    exact hread rest' hrest'
  | case6 signed valued c cs hsign hdigit ih =>
    obtain ⟨hends, x, rfl, hx, hread⟩ := ih h
    refine ⟨hends, c :: x, rfl, hcons (by simp [isExponentChar, isDigitOrGap, hdigit]) hx,
      fun rest' hrest' => ?_⟩
    rw [List.cons_append, exponent?, if_neg hsign, if_pos hdigit]
    exact hread rest' hrest'
  | case7 signed valued c cs hsign hdigit hgap ih =>
    obtain ⟨hends, x, rfl, hx, hread⟩ := ih h
    refine ⟨hends, c :: x, rfl, hcons (by simp [isExponentChar, isDigitOrGap, hgap]) hx,
      fun rest' hrest' => ?_⟩
    rw [List.cons_append, exponent?, if_neg hsign, if_neg hdigit, if_pos hgap]
    exact hread rest' hrest'
  | case8 signed c cs hsign hdigit hgap =>
    cases h
    refine ⟨fun d hd => ?_, [], rfl, hnil, fun _ => exponent?_valued⟩
    cases hd
    rw [isDigitOrGap, Bool.or_eq_false_iff]
    exact ⟨Bool.eq_false_iff.mpr hdigit, Bool.eq_false_iff.mpr hgap⟩
  | case9 => cases h

/-- An exponent that has a digit is always read. -/
theorem exponent?_valued_ne_none {signed : Bool} {cs : List Char} :
    exponent? signed true cs ≠ none := by
  induction cs with
  | nil => simp [exponent?]
  | cons c cs ih =>
    rw [exponent?]
    split_ifs <;> simp_all

/-- Where word characters give no exponent, they give none before the end of the token. -/
theorem exponent?_word {signed : Bool} {x rest rest' : List Char}
    (hx : ∀ c ∈ x, isIdentContinue c = true) (h : exponent? signed false (x ++ rest) = none)
    (hrest' : EndsToken rest') : exponent? signed false (x ++ rest') = none := by
  -- Induction on the word: gaps are skipped, and the first other character decides.
  induction x with
  | nil =>
    cases rest' with
    | nil => rfl
    | cons c rest' =>
      obtain ⟨-, -, hdigit, -, hothers⟩ := tokenEnds_facts c (hrest' c rfl)
      simp only [List.mem_cons, List.not_mem_nil, or_false, not_or] at hothers
      simp [exponent?, hdigit, hothers]
  | cons c x ih =>
    obtain ⟨hc, hx⟩ := List.forall_mem_cons.mp hx
    have hsigns : ∀ d ∈ ['+', '-'], isIdentContinue d = false := forall_mem_of_all (by decide)
    have hplus : c ≠ '+' := ne_of_class hc (hsigns _ (by decide))
    have hminus : c ≠ '-' := ne_of_class hc (hsigns _ (by decide))
    have hnone := @exponent?_valued_ne_none signed (x ++ rest)
    -- With a digit there would be an exponent, against the hypothesis.
    by_cases hdigit : c.isDigit = true
    · simp [exponent?, hplus, hminus, hdigit, hnone] at h
    · by_cases hgap : c = '_'
      · simp only [hgap, List.cons_append, exponent?] at h ⊢
        exact ih hx h
      · simp [exponent?, hplus, hminus, hdigit, hgap]

/-- The text goes on with the rest of a number: its suffix `s`, and then nothing that could go on
with that. -/
structure NumberTail (s rest : List Char) : Prop where
  suffix : Suffix s
  stops : ∀ c ∈ rest.head?, isIdentContinue c = false

/-- What is taken after a number is its suffix, and after that the token ends. -/
theorem numberEnd?_sound {cs rest : List Char} (h : numberEnd? cs = some rest) :
    ∃ s, cs = s ++ rest ∧ NumberTail s rest := by
  unfold numberEnd? at h
  extract_lets after at h
  split at h
  · cases h
  · next hstops =>
    have hafter : after = rest := Option.some.inj h
    obtain ⟨s, heq, hs⟩ := skipSuffix_sound hafter
    refine ⟨s, heq, hs, fun c hc => Bool.eq_false_iff.mpr fun hcontinue => hstops ?_⟩
    rw [hafter, Option.mem_def.mp hc]
    exact hcontinue

/-- After a number, a suffix before the end of the token is taken whole. -/
theorem numberEnd?_complete {s rest : List Char} (hs : Suffix s) (hrest : EndsToken rest) :
    numberEnd? (s ++ rest) = some rest := by
  unfold numberEnd?
  extract_lets after
  have hafter : after = rest := skipSuffix_complete hs hrest
  have hstops : rest.head?.any isIdentContinue = false := by
    cases rest with
    | nil => rfl
    | cons c rest => exact (tokenEnds_facts c (hrest c rfl)).2.1
  rw [hafter, hstops]
  rfl

/-- A question about the next character has the same answer where the text goes on in the same way
and where the token ends. -/
theorem head?_any_append {p : Char → Bool} (hp : ∀ c ∈ tokenEnds, p c = false)
    {x rest rest' : List Char} (h : (x ++ rest).head?.any p = false) (hrest' : EndsToken rest') :
    (x ++ rest').head?.any p = false := by
  cases x with
  | nil =>
    cases rest' with
    | nil => rfl
    | cons c rest' => exact hp c (hrest' c rfl)
  | cons c x => exact h

/-- Whether a row of digits ends is decided by the next character. -/
theorem endsDigits_iff {cs : List Char} : EndsDigits cs ↔ cs.head?.any isDigitOrGap = false := by
  cases cs with
  | nil => exact iff_of_true (fun c hc => by cases hc) rfl
  | cons c cs => simp [EndsDigits]

/-- A row of digits still ends if the token ends in its place. -/
theorem EndsDigits.append {s rest rest' : List Char} (h : EndsDigits (s ++ rest))
    (hrest' : EndsToken rest') : EndsDigits (s ++ rest') := by
  rw [endsDigits_iff] at h ⊢
  refine head?_any_append (fun c hc => ?_) h hrest'
  exact (EndsToken.cons hc []).endsDigits c rfl

/-- After the digits of a number: an exponent or nothing. -/
def exponentOrNone (cs : List Char) : List Char :=
  match cs with
  | c :: rest =>
    if c == 'e' || c == 'E' then (exponent? false false rest).getD (c :: rest) else c :: rest
  | [] => []

/-- An exponent with its letter is made of characters of numbers. -/
theorem numberChars_exponent {c : Char} {x : List Char} (he : (c == 'e' || c == 'E') = true)
    (hx : ∀ d ∈ x, isExponentChar d = true) : ∀ d ∈ c :: x, isNumberChar d = true := by
  refine List.forall_mem_cons.mpr ⟨?_, fun d hd => isNumberChar_of_isExponentChar (hx d hd)⟩
  rw [Bool.or_eq_true, beq_iff_eq, beq_iff_eq] at he
  rcases he with rfl | rfl <;> decide

/-- Where the token ends, there is no exponent. -/
theorem exponentOrNone_of_endsToken {rest : List Char} (h : EndsToken rest) :
    exponentOrNone rest = rest := by
  cases rest with
  | nil => rfl
  | cons c rest =>
    have hothers := (tokenEnds_facts c (h c rfl)).2.2.2.2
    simp only [List.mem_cons, List.not_mem_nil, or_false, not_or] at hothers
    simp [exponentOrNone, hothers]

/-- A suffix that starts no exponent starts none before anything that ends a token. -/
theorem exponentOrNone_suffix {s rest rest' : List Char} (hs : Suffix s)
    (h : exponentOrNone (s ++ rest) = s ++ rest) (hrest' : EndsToken rest') :
    exponentOrNone (s ++ rest') = s ++ rest' := by
  rcases hs with rfl | ⟨c, more, rfl, -, hmore⟩
  · exact exponentOrNone_of_endsToken hrest'
  · rw [List.cons_append, exponentOrNone] at h ⊢
    split
    · next he =>
      rw [if_pos he] at h
      -- an exponent would take something
      have hexponent : exponent? false false (more ++ rest) = none := by
        cases hread : exponent? false false (more ++ rest) with
        | none => rfl
        | some after =>
          obtain ⟨-, y, heq, -, -⟩ := exponent?_sound hread
          rw [hread, Option.getD_some] at h
          have hlength := congrArg List.length heq
          rw [h] at hlength
          simp at hlength
          omega
      rw [exponent?_word hmore hexponent hrest']
      rfl
    · rfl

/-- An exponent is read alike whatever ends the token after it. -/
theorem exponentOrNone_local {cs s rest : List Char} (h : exponentOrNone cs = s ++ rest)
    (hcs : EndsDigits cs) (htail : NumberTail s rest) :
    ∃ x, cs = x ++ (s ++ rest) ∧ (∀ c ∈ x, isNumberChar c = true) ∧ ∀ rest', EndsToken rest' →
      exponentOrNone (x ++ (s ++ rest')) = s ++ rest' := by
  -- Where no exponent is read nothing is taken, and the tail alone decides.
  have hstay : exponentOrNone (s ++ rest) = s ++ rest → ∀ rest', EndsToken rest' →
      exponentOrNone (s ++ rest') = s ++ rest' :=
    fun hsame _ hrest' => exponentOrNone_suffix htail.suffix hsame hrest'
  unfold exponentOrNone at h
  split at h
  · next c after =>
    split at h
    · next he =>
      cases hread : exponent? false false after with
      | none =>
        rw [hread, Option.getD_none] at h
        refine ⟨[], h, nofun, hstay ?_⟩
        rw [← h, exponentOrNone, if_pos he, hread, Option.getD_none]
      | some m =>
        rw [hread, Option.getD_some] at h
        subst h
        -- The exponent's digits end before the tail, so they are taken whatever follows.
        obtain ⟨hends, y, rfl, hchars, hy⟩ := exponent?_sound hread
        refine ⟨c :: y, rfl, numberChars_exponent he hchars, fun rest' hrest' => ?_⟩
        rw [List.cons_append, exponentOrNone, if_pos he, hy _ (hends.append hrest'),
          Option.getD_some]
    · next he =>
      refine ⟨[], h, nofun, hstay ?_⟩
      rw [← h, exponentOrNone, if_neg he]
  · refine ⟨[], h, nofun, hstay ?_⟩
    rw [← h]
    rfl

/-- A fraction has digits and perhaps an exponent, and starts with neither a point nor a letter. -/
theorem fraction?_eq (cs : List Char) :
    fraction? cs =
      if cs.head?.any (fun c => c == '.' || isIdentStart c) then none
      else some (exponentOrNone (cs.dropWhile isDigitOrGap)) := by
  rw [fraction?]
  split
  · rfl
  · generalize cs.dropWhile isDigitOrGap = t
    cases t with
    | nil => rfl
    | cons c rest =>
      simp only [exponentOrNone]
      split <;> rfl

/-- A fraction is read alike whatever ends the token after it. -/
theorem fraction?_local {cs s rest : List Char} (h : fraction? cs = some (s ++ rest))
    (htail : NumberTail s rest) :
    ∃ x, cs = x ++ (s ++ rest) ∧ (∀ c ∈ x, isNumberChar c = true) ∧
      ∀ rest', EndsToken rest' → fraction? (x ++ (s ++ rest')) = some (s ++ rest') := by
  rw [fraction?_eq] at h
  split at h
  · cases h
  · next hhead =>
    obtain ⟨ds, t, rfl, hds, ht, hdrop⟩ := exists_digits cs
    rw [hdrop] at h
    obtain ⟨x, rfl, hchars, hx⟩ := exponentOrNone_local (Option.some.inj h) ht htail
    have hdigits : ∀ d ∈ ds, isNumberChar d = true := fun d hd =>
      isNumberChar_of_isIdentContinue (isIdentContinue_of_isDigitOrGap (hds d hd))
    refine ⟨ds ++ x, (List.append_assoc _ _ _).symm, List.forall_mem_append.mpr ⟨hdigits, hchars⟩,
      fun rest' hrest' => ?_⟩
    -- what ends a token starts neither a range nor a method call
    have hstart : (ds ++ x ++ (s ++ rest')).head?.any (fun c => c == '.' || isIdentStart c) =
        false := by
      rw [← List.append_assoc]
      have hends : ∀ c ∈ tokenEnds, (c == '.' || isIdentStart c) = false := by
        intro c hc
        obtain ⟨hident, -, -, -, hothers⟩ := tokenEnds_facts c hc
        simp_all
      have hhere : (ds ++ x ++ s ++ rest).head?.any (fun c => c == '.' || isIdentStart c) =
          false := by simpa using hhead
      exact head?_any_append hends hhere hrest'
    have hdigits : EndsDigits (x ++ (s ++ rest')) := by
      rw [← List.append_assoc] at ht ⊢
      exact ht.append hrest'
    rw [fraction?_eq, hstart, List.append_assoc, dropWhile_digits hds hdigits, hx rest' hrest']
    rfl

/-- What follows the whole digits of a number with a point or an exponent. -/
def floatAfter (cs : List Char) : Option (List Char) :=
  match cs with
  | '.' :: rest => fraction? rest
  | c :: rest => if c == 'e' || c == 'E' then exponent? false false rest else none
  | [] => none

/-- The digits before the point are passed over. -/
theorem floatDigits?_append {d : Char} {ds t : List Char} (hd : d.isDigit = true)
    (hds : ∀ e ∈ ds, isDigitOrGap e = true) (ht : EndsDigits t) :
    floatDigits? (d :: ds ++ t) = floatAfter t := by
  have hall : ∀ e ∈ d :: ds, isDigitOrGap e = true :=
    List.forall_mem_cons.mpr ⟨by rw [isDigitOrGap, hd, Bool.true_or], hds⟩
  have hstart : (!((d :: ds ++ t).head?.any Char.isDigit)) = false := by simp [hd]
  rw [floatDigits?, dropWhile_digits hall ht, hstart]
  rfl

/-- What is read as a number with a fraction or an exponent starts with digits. -/
theorem exists_of_floatDigits? {cs rest : List Char} (h : floatDigits? cs = some rest) :
    ∃ d ds t, cs = d :: ds ++ t ∧ d.isDigit = true ∧ (∀ e ∈ ds, isDigitOrGap e = true) ∧
      EndsDigits t ∧ floatAfter t = some rest := by
  obtain ⟨ds, t, rfl, hds, ht, -⟩ := exists_digits cs
  -- A float starts with a digit, never with a gap.
  cases ds with
  | nil =>
    rw [List.nil_append, floatDigits?] at h
    split at h
    · cases h
    · next hdigit =>
      cases t with
      | nil => simp at hdigit
      | cons c t =>
        have hc := ht c rfl
        rw [isDigitOrGap, Bool.or_eq_false_iff] at hc
        simp [hc.1] at hdigit
  | cons d ds =>
    obtain ⟨-, hds'⟩ := List.forall_mem_cons.mp hds
    cases hdigit : d.isDigit with
    | false =>
      rw [List.cons_append, floatDigits?_eq_none hdigit] at h
      cases h
    | true =>
      rw [floatDigits?_append hdigit hds' ht] at h
      exact ⟨d, ds, t, rfl, hdigit, hds', ht, h⟩

/-- What comes after the digits is read alike whatever ends the token after it. -/
theorem floatAfter_local {cs s rest : List Char} (h : floatAfter cs = some (s ++ rest))
    (htail : NumberTail s rest) :
    ∃ x, cs = x ++ (s ++ rest) ∧ (∀ c ∈ x, isNumberChar c = true) ∧
      ∀ rest', EndsToken rest' → floatAfter (x ++ (s ++ rest')) = some (s ++ rest') := by
  unfold floatAfter at h
  -- After the first digits comes a point with a fraction, or an exponent.
  split at h
  · obtain ⟨x, rfl, hchars, hx⟩ := fraction?_local h htail
    exact ⟨'.' :: x, rfl, List.forall_mem_cons.mpr ⟨by decide, hchars⟩, hx⟩
  · next c after hpoint =>
    split at h
    · next he =>
      obtain ⟨hends, y, rfl, hchars, hy⟩ := exponent?_sound h
      refine ⟨c :: y, rfl, numberChars_exponent he hchars, fun rest' hrest' => ?_⟩
      rw [List.cons_append, floatAfter, if_pos he, hy _ (hends.append hrest')]
      exact hpoint
    · cases h
  · cases h

/-- A text that is read in a certain way before anything that ends a token, and has the characters
of a number. -/
structure NumberText (read : List Char → Option (List Char)) (text : List Char) : Prop where
  start : ∃ d ds, text = d :: ds ∧ d.isDigit = true
  chars : ∀ c ∈ text, isNumberChar c = true
  again : ∀ rest, EndsToken rest → read (text ++ rest) = some rest

/-- A number with a point or an exponent. -/
theorem float_local {cs rest : List Char} (h : floatDigits? cs >>= numberEnd? = some rest) :
    ∃ text, cs = text ++ rest ∧
      NumberText (fun cs => floatDigits? cs >>= numberEnd?) text := by
  obtain ⟨after, hfloat, hend⟩ := Option.bind_eq_some_iff.mp h
  obtain ⟨s, rfl, htail⟩ := numberEnd?_sound hend
  obtain ⟨d, ds, t, rfl, hd, hds, ht, hafter⟩ := exists_of_floatDigits? hfloat
  obtain ⟨x, rfl, hchars, hx⟩ := floatAfter_local hafter htail
  -- The literal is its digits, what follows the point, and the suffix.
  refine ⟨d :: ds ++ (x ++ s), by simp, ⟨d, _, rfl, hd⟩, fun c hc => ?_, fun rest' hrest' => ?_⟩
  · rw [List.mem_append, List.mem_cons, List.mem_append] at hc
    obtain (rfl | hc) | hc | hc := hc
    · exact isNumberChar_of_isIdentContinue (isIdentContinue_of_isDigit hd)
    · exact isNumberChar_of_isIdentContinue (isIdentContinue_of_isDigitOrGap (hds c hc))
    · exact hchars c hc
    · exact isNumberChar_of_isIdentContinue (htail.suffix.isIdentContinue c hc)
  · have hdigits : EndsDigits (x ++ (s ++ rest')) := by
      rw [← List.append_assoc] at ht ⊢
      exact ht.append hrest'
    rw [List.append_assoc, List.append_assoc, floatDigits?_append hd hds hdigits, hx rest' hrest']
    exact numberEnd?_complete htail.suffix hrest'

/-! ## Whole numbers -/

/-- A character that goes on with the digits of a whole number in a base. -/
def isBaseDigit (base : Nat) (c : Char) : Bool :=
  c.isDigit || isHexDigit c && decide (hexValue c < base) || c == '_'

/-- Digits of a base end where no digit of it comes. -/
theorem digits?_done {base : Nat} {cs : List Char} (h : cs.head?.any (isBaseDigit base) = false) :
    digits? base false cs = some cs := by
  cases cs with
  | nil => rfl
  | cons c cs =>
    have hc : isBaseDigit base c = false := h
    simp only [isBaseDigit, Bool.or_eq_false_iff] at hc
    simp [digits?, hc.1.1, hc.1.2, hc.2]

/-- A decimal digit counts as a digit in every base. -/
theorem isBaseDigit_of_isDigit {base : Nat} {c : Char} (h : c.isDigit = true) :
    isBaseDigit base c = true := by
  rw [isBaseDigit, h, Bool.true_or, Bool.true_or]

/-- The digits that are taken are taken again before any text that starts with none. -/
theorem digits?_sound {base : Nat} {empty : Bool} {cs rest : List Char}
    (h : digits? base empty cs = some rest) :
    rest.head?.any (isBaseDigit base) = false ∧ ∃ x, cs = x ++ rest ∧ (empty = true → x ≠ []) ∧
      (∀ c ∈ x, isBaseDigit base c = true) ∧
      ∀ rest', rest'.head?.any (isBaseDigit base) = false →
        digits? base empty (x ++ rest') = some rest' := by
  fun_induction digits? base empty cs with
  | case1 => cases h
  | case2 empty hempty =>
    cases h
    refine ⟨rfl, [], rfl, fun heq => absurd heq hempty, nofun, fun rest' hrest' => ?_⟩
    rw [Bool.eq_false_iff.mpr hempty]
    exact digits?_done hrest'
  | case3 empty c cs hdigit hvalue ih =>
    obtain ⟨hends, x, rfl, -, hx, hread⟩ := ih h
    refine ⟨hends, c :: x, rfl, nofun, List.forall_mem_cons.mpr ⟨isBaseDigit_of_isDigit hdigit, hx⟩,
      fun rest' hrest' => ?_⟩
    rw [List.cons_append, digits?, if_pos hdigit, if_pos hvalue, hread rest' hrest']
  | case4 => cases h
  | case5 empty c cs hdigit hhex ih =>
    obtain ⟨hends, x, rfl, -, hx, hread⟩ := ih h
    have hc : isBaseDigit base c = true := by
      simp only [Bool.and_eq_true] at hhex
      simp [isBaseDigit, hhex]
    refine ⟨hends, c :: x, rfl, nofun, List.forall_mem_cons.mpr ⟨hc, hx⟩, fun rest' hrest' => ?_⟩
    rw [List.cons_append, digits?, if_neg hdigit, if_pos hhex, hread rest' hrest']
  | case6 => cases h
  | case7 empty c cs hdigit hhex hgap hempty ih =>
    obtain ⟨hends, x, rfl, hne, hx, hread⟩ := ih h
    have hc : isBaseDigit base c = true := by simp [isBaseDigit, hgap]
    refine ⟨hends, c :: x, rfl, nofun, List.forall_mem_cons.mpr ⟨hc, hx⟩, fun rest' hrest' => ?_⟩
    rw [List.cons_append, digits?, if_neg hdigit, if_neg hhex, if_pos hgap, if_neg hempty,
      hread rest' hrest']
  | case8 => cases h
  | case9 empty c cs hdigit hhex hgap hempty =>
    cases h
    refine ⟨?_, [], rfl, fun heq => absurd heq hempty, nofun, fun rest' hrest' => ?_⟩
    -- no case of a digit applies to the character that is left
    · simp_all [isBaseDigit]
    · rw [Bool.eq_false_iff.mpr hempty]
      exact digits?_done hrest'

/-- Hexadecimal digits could stand in a word. -/
theorem isIdentContinue_of_isHexDigit {c : Char} (h : isHexDigit c = true) :
    isIdentContinue c = true := by
  rw [isHexDigit, Bool.or_eq_true, Bool.or_eq_true, decide_eq_true_eq, decide_eq_true_eq] at h
  have hlower : identStart.covers 0x61 0x66 = true := by decide
  have hupper : identStart.covers 0x41 0x46 = true := by decide
  rcases h with (h | h) | h
  · exact isIdentContinue_of_isDigit h
  · have hstart : identStart.has c.toNat = true := CodeTable.has_of_covers hlower h.1 h.2
    rw [isIdentContinue, hstart, Bool.true_or]
  · have hstart : identStart.has c.toNat = true := CodeTable.has_of_covers hupper h.1 h.2
    rw [isIdentContinue, hstart, Bool.true_or]

/-- Digits of any base could stand in a word. -/
theorem isIdentContinue_of_isBaseDigit {base : Nat} {c : Char} (h : isBaseDigit base c = true) :
    isIdentContinue c = true := by
  rw [isBaseDigit, Bool.or_eq_true, Bool.or_eq_true, Bool.and_eq_true, beq_iff_eq] at h
  rcases h with (h | h) | rfl
  · exact isIdentContinue_of_isDigit h
  · exact isIdentContinue_of_isHexDigit h.1
  · decide

/-- What ends a token is a digit of no base. -/
theorem isBaseDigit_of_tokenEnds {base : Nat} : ∀ c ∈ tokenEnds, isBaseDigit base c = false := by
  intro c hc
  rw [Bool.eq_false_iff]
  intro hbase
  exact absurd (isIdentContinue_of_isBaseDigit hbase) (by simp [(tokenEnds_facts c hc).2.1])

/-- The letters that name a base after a zero. -/
def baseLetters : List Char := ['x', 'o', 'b']

/-- A number that starts with no base is read as decimal. -/
theorem intDigits?_decimal {cs : List Char} (h : ∀ b ∈ baseLetters, ¬['0', b] <+: cs) :
    intDigits? cs = digits? 10 true cs := by
  unfold intDigits?
  split
  · exact absurd ⟨_, rfl⟩ (h 'x' (by decide))
  · exact absurd ⟨_, rfl⟩ (h 'o' (by decide))
  · exact absurd ⟨_, rfl⟩ (h 'b' (by decide))
  · rfl

/-- A number that starts with no base starts with none before another end of the token. -/
theorem not_prefix_base {b : Char} {x rest rest' : List Char} (hb : b ∈ baseLetters) (hx : x ≠ [])
    (h : ¬['0', b] <+: x ++ rest) (hrest' : EndsToken rest') : ¬['0', b] <+: x ++ rest' := by
  rintro ⟨t, ht⟩
  -- The prefix has two characters: the word has both, or ends before the letter.
  cases x with
  | nil => exact hx rfl
  | cons c x =>
    cases x with
    | nil =>
      have hends : ∀ b ∈ baseLetters, b ∉ tokenEnds := forall_mem_of_all (by decide)
      obtain ⟨-, rfl⟩ := List.cons.inj ht
      exact hends b hb (hrest' b rfl)
    | cons d x =>
      simp only [List.cons_append, List.cons.injEq, List.nil_append] at ht
      obtain ⟨rfl, rfl, -⟩ := ht
      exact h ⟨x ++ rest, rfl⟩

/-- Digits are read alike whatever ends the token after them. -/
theorem digits?_local {base : Nat} {cs s rest : List Char}
    (h : digits? base true cs = some (s ++ rest)) :
    ∃ x, cs = x ++ (s ++ rest) ∧ x ≠ [] ∧ (∀ c ∈ x, isIdentContinue c = true) ∧
      ∀ rest', EndsToken rest' → digits? base true (x ++ (s ++ rest')) = some (s ++ rest') := by
  obtain ⟨hends, x, rfl, hne, hx, hread⟩ := digits?_sound h
  refine ⟨x, rfl, hne rfl, fun c hc => isIdentContinue_of_isBaseDigit (hx c hc),
    fun rest' hrest' => hread _ ?_⟩
  exact head?_any_append isBaseDigit_of_tokenEnds hends hrest'

/-- A whole number is read alike whatever ends the token after it. -/
theorem intDigits?_local {cs s rest : List Char} (h : intDigits? cs = some (s ++ rest)) :
    ∃ x, cs = x ++ (s ++ rest) ∧ x ≠ [] ∧ (∀ c ∈ x, isIdentContinue c = true) ∧
      ∀ rest', EndsToken rest' → intDigits? (x ++ (s ++ rest')) = some (s ++ rest') := by
  have hstart : ∀ {b : Char} {x : List Char}, b ∈ baseLetters →
      (∀ c ∈ x, isIdentContinue c = true) → ∀ c ∈ '0' :: b :: x, isIdentContinue c = true := by
    intro b x hb hx
    have hletters : ∀ b ∈ baseLetters, isIdentContinue b = true := forall_mem_of_all (by decide)
    exact List.forall_mem_cons.mpr ⟨by decide, List.forall_mem_cons.mpr ⟨hletters b hb, hx⟩⟩
  unfold intDigits? at h
  split at h
  · obtain ⟨x, rfl, -, hx, hread⟩ := digits?_local h
    exact ⟨'0' :: 'x' :: x, rfl, nofun, hstart (by decide) hx, hread⟩
  · obtain ⟨x, rfl, -, hx, hread⟩ := digits?_local h
    exact ⟨'0' :: 'o' :: x, rfl, nofun, hstart (by decide) hx, hread⟩
  · obtain ⟨x, rfl, -, hx, hread⟩ := digits?_local h
    exact ⟨'0' :: 'b' :: x, rfl, nofun, hstart (by decide) hx, hread⟩
  -- a decimal literal must not become one with a base before another rest
  · next hhex hoctal hbinary =>
    have hdecimal : ∀ b ∈ baseLetters, ¬['0', b] <+: cs := by
      rintro b hb ⟨t, rfl⟩
      simp only [baseLetters, List.mem_cons, List.not_mem_nil, or_false] at hb
      rcases hb with rfl | rfl | rfl
      · exact hhex t rfl
      · exact hoctal t rfl
      · exact hbinary t rfl
    obtain ⟨x, rfl, hne, hx, hread⟩ := digits?_local h
    refine ⟨x, rfl, hne, hx, fun rest' hrest' => ?_⟩
    rw [intDigits?_decimal, hread rest' hrest']
    intro b hb
    have hstart := hdecimal b hb
    rw [← List.append_assoc] at hstart ⊢
    exact not_prefix_base hb (by simp [hne]) hstart hrest'

/-- What is taken of a text, if nothing of the kind starts what ends a token, is taken of the part
before that. -/
theorem exists_of_append_eq {p : Char → Bool} (hp : ∀ c ∈ tokenEnds, p c = false)
    {x rest z after : List Char} (h : x ++ rest = z ++ after) (hz : ∀ c ∈ z, p c = true)
    (hrest : EndsToken rest) : ∃ y, x = z ++ y ∧ after = y ++ rest := by
  obtain ⟨y, rfl, rfl⟩ | ⟨y, rfl, rfl⟩ := List.append_eq_append_iff.mp h
  · cases y with
    | nil => exact ⟨[], by simp, rfl⟩
    | cons c y =>
      have hc := hz c (by simp)
      rw [hp c (hrest c rfl)] at hc
      cases hc
  · exact ⟨y, rfl, rfl⟩

/-- Where word characters end a token, a number with a point or an exponent stops in them. -/
theorem floatDigits?_word {x rest after : List Char} (hx : ∀ c ∈ x, isIdentContinue c = true)
    (hrest : EndsToken rest) (h : floatDigits? (x ++ rest) = some after) :
    ∃ y, after = y ++ rest ∧ ∀ c ∈ y, isIdentContinue c = true := by
  obtain ⟨d, ds, t, heq, hd, hds, ht, hafter⟩ := exists_of_floatDigits? h
  have hall : ∀ e ∈ d :: ds, isDigitOrGap e = true :=
    List.forall_mem_cons.mpr ⟨by rw [isDigitOrGap, hd, Bool.true_or], hds⟩
  obtain ⟨y, rfl, rfl⟩ := exists_of_append_eq
    (fun c hc => (EndsToken.cons hc []).endsDigits c rfl) heq hall hrest
  obtain ⟨-, hy⟩ := List.forall_mem_append.mp hx
  -- only the letter of an exponent can follow the digits
  cases y with
  | nil =>
    cases rest with
    | nil => cases hafter
    | cons c rest =>
      have hothers := (tokenEnds_facts c (hrest c rfl)).2.2.2.2
      simp only [List.mem_cons, List.not_mem_nil, or_false, not_or] at hothers
      simp [floatAfter, hothers] at hafter
  | cons c y =>
    obtain ⟨hc, hy⟩ := List.forall_mem_cons.mp hy
    have hpoint : c ≠ '.' := ne_of_class hc (by decide)
    have hexponent : exponent? false false (y ++ rest) = some after := by
      simp only [List.cons_append, floatAfter] at hafter
      split at hafter
      · exact hafter
      · cases hafter
    obtain ⟨-, z, heq, hz, -⟩ := exponent?_sound hexponent
    have hends : ∀ c ∈ tokenEnds, isExponentChar c = false := forall_mem_of_all (by decide)
    obtain ⟨y', rfl, rfl⟩ := exists_of_append_eq hends heq hz hrest
    exact ⟨y', rfl, (List.forall_mem_append.mp hy).2⟩

/-- A word after a number is taken whole. -/
theorem numberEnd?_word {x rest r : List Char} (hx : ∀ c ∈ x, isIdentContinue c = true)
    (hrest : EndsToken rest) (h : numberEnd? (x ++ rest) = some r) : r = rest := by
  obtain ⟨s, heq, hs, hstops⟩ := numberEnd?_sound h
  have hends : ∀ c ∈ tokenEnds, isIdentContinue c = false := fun c hc => (tokenEnds_facts c hc).2.1
  obtain ⟨y, rfl, rfl⟩ := exists_of_append_eq hends heq hs.isIdentContinue hrest
  cases y with
  | nil => rfl
  | cons c y =>
    have hc := hx c (by simp)
    rw [hstops c rfl] at hc
    cases hc

/-- What follows a number. -/
def number? (cs : List Char) : Option (List Char) :=
  (floatDigits? cs >>= numberEnd?) <|> (intDigits? cs >>= numberEnd?)

/-- A text that is read as a number is read as a number before anything that ends a token. -/
theorem number?_sound {cs rest : List Char} (h : number? cs = some rest) :
    ∃ text, cs = text ++ rest ∧ NumberText number? text := by
  cases hfloat : floatDigits? cs >>= numberEnd? with
  | some after =>
    rw [number?, hfloat] at h
    obtain rfl : after = rest := Option.some.inj h
    obtain ⟨text, rfl, hstart, hchars, hagain⟩ := float_local hfloat
    refine ⟨text, rfl, hstart, hchars, fun rest' hrest' => ?_⟩
    rw [number?, hagain rest' hrest']
    rfl
  | none =>
    rw [number?, hfloat] at h
    obtain ⟨after, hint, hend⟩ := Option.bind_eq_some_iff.mp h
    obtain ⟨s, rfl, htail⟩ := numberEnd?_sound hend
    obtain ⟨x, rfl, hne, hx, hread⟩ := intDigits?_local hint
    -- it is no floating literal; then it is a word, and no other rest makes one of it
    have hword : ∀ c ∈ x ++ s, isIdentContinue c = true :=
      List.forall_mem_append.mpr ⟨hx, htail.suffix.isIdentContinue⟩
    refine ⟨x ++ s, by simp, ?_, fun c hc => isNumberChar_of_isIdentContinue (hword c hc),
      fun rest' hrest' => ?_⟩
    · cases x with
      | nil => exact absurd rfl hne
      | cons d ds =>
        cases hd : d.isDigit with
        | true => exact ⟨d, ds ++ s, rfl, hd⟩
        | false =>
          rw [List.cons_append, intDigits?_eq_none hd] at hint
          cases hint
    · have hint' : intDigits? (x ++ s ++ rest') >>= numberEnd? = some rest' := by
        rw [List.append_assoc, hread rest' hrest']
        exact numberEnd?_complete htail.suffix hrest'
      rw [number?, hint']
      cases hfloat' : floatDigits? (x ++ s ++ rest') >>= numberEnd? with
      | none => rfl
      | some r =>
        obtain ⟨after, hdigits, hend'⟩ := Option.bind_eq_some_iff.mp hfloat'
        obtain ⟨y, rfl, hy⟩ := floatDigits?_word hword hrest' hdigits
        rw [numberEnd?_word hy hrest' hend']
        rfl

/-! ## Decimal digits -/

/-- A decimal digit has a value below ten. -/
theorem hexValue_of_isDigit {c : Char} (h : c.isDigit = true) : hexValue c < 10 := by
  have hbounds : 48 ≤ c.toNat ∧ c.toNat ≤ 57 := by
    simpa [Char.isDigit, UInt32.le_iff_toNat_le] using h
  rw [hexValue, if_pos h]
  omega

/-- Decimal digits with gaps are taken to the end. -/
theorem digits?_gaps {ds : List Char} (h : ∀ d ∈ ds, isDigitOrGap d = true) :
    digits? 10 false ds = some [] := by
  induction ds with
  | nil => rfl
  | cons d ds ih =>
    obtain ⟨hd, hds⟩ := List.forall_mem_cons.mp h
    rw [isDigitOrGap, Bool.or_eq_true, beq_iff_eq] at hd
    rcases hd with hd | rfl
    · rw [digits?, if_pos hd, if_pos (hexValue_of_isDigit hd)]
      exact ih hds
    · exact ih hds

/-- Decimal digits, with underscores after the first, are a number. -/
theorem numberText_digits {d : Char} {ds : List Char} (hd : d.isDigit = true)
    (hds : ∀ e ∈ ds, isDigitOrGap e = true) : NumberText number? (d :: ds) := by
  have hfloat : floatDigits? (d :: ds) = none := by
    have hafter := floatDigits?_append hd hds EndsToken.nil.endsDigits
    rw [List.append_nil] at hafter
    exact hafter
  -- A base letter is neither a digit nor a gap, so it is none of the further characters.
  have hbase : ∀ b ∈ baseLetters, ¬['0', b] <+: d :: ds := by
    rintro b hb ⟨t, ht⟩
    have hgaps : ∀ b ∈ baseLetters, isDigitOrGap b = false := forall_mem_of_all (by decide)
    have hmem : b ∈ ds := by
      rw [← (List.cons.inj ht).2]
      exact List.mem_cons_self
    exact absurd (hds b hmem) (by simp [hgaps b hb])
  have hint : intDigits? (d :: ds) = some [] := by
    rw [intDigits?_decimal hbase, digits?, if_pos hd, if_pos (hexValue_of_isDigit hd)]
    exact digits?_gaps hds
  have hread : number? (d :: ds) = some [] := by
    rw [number?, hfloat, hint]
    rfl
  obtain ⟨text, heq, htext⟩ := number?_sound hread
  rw [List.append_nil] at heq
  exact heq ▸ htext
end Memberwise.Token
