import Mathlib.Tactic.IntervalCases
import Memberwise.Text.Numeric
import Memberwise.Token.Lexer

/-!
# Memberwise.Proofs.Lexing — how texts fall into tokens

`Lexes cs ts rest` says that the characters `cs`, where `rest` follows them, are read as the tokens
`ts`. Texts that are put together from others are read as the tokens of their parts
(`Lexes.append`, `Lexes.group`), so that it is enough to know how names, lifetimes and operators are
read. Whether an operator character is joint depends on what follows it.
-/

namespace Memberwise

open Text

/-! ## Characters -/

/-- A code point of a table is in one of its ranges. -/
theorem Text.CodeTable.exists_range_of_has {t : CodeTable} {n : Nat} (h : t.has n = true) :
    ∃ r ∈ t, r.1 ≤ n ∧ n ≤ r.2.1 := by
  induction t with
  | nil => cases h
  | cons r t ih =>
    rcases r with ⟨first, last, step⟩
    rw [CodeTable.has] at h
    split at h
    · next hlast =>
      rw [Bool.and_eq_true, decide_eq_true_eq] at h
      exact ⟨_, List.mem_cons_self, h.1, hlast⟩
    · rcases ih h with ⟨r, hr, hrange⟩
      exact ⟨r, List.mem_cons_of_mem _ hr, hrange⟩

namespace Token

/-- A property of finitely many characters is checked one by one. -/
theorem forall_mem_of_all {P : Char → Prop} [DecidablePred P] {cs : List Char}
    (h : (cs.all fun c => decide (P c)) = true) : ∀ c ∈ cs, P c := by
  intro c hc
  exact of_decide_eq_true (List.all_eq_true.mp h c hc)

/-- The code points that are passed over between tokens. -/
def spaceCodes : List Nat :=
  [0x9, 0xA, 0xB, 0xC, 0xD, 0x20, 0x85, 0xA0, 0x1680, 0x2000, 0x2001, 0x2002, 0x2003, 0x2004,
   0x2005, 0x2006, 0x2007, 0x2008, 0x2009, 0x200A, 0x200E, 0x200F, 0x2028, 0x2029, 0x202F, 0x205F,
   0x3000]

/-- The code point of a space is one of a few. -/
theorem toNat_mem_spaceCodes {c : Char} (h : isSpace c = true) : c.toNat ∈ spaceCodes := by
  rw [isSpace, Bool.or_eq_true, Bool.or_eq_true, beq_iff_eq, beq_iff_eq] at h
  rcases h with (h | rfl) | rfl
  · rcases CodeTable.exists_range_of_has h with ⟨r, hr, hfirst, hlast⟩
    have hrange : ∀ n, (∃ r ∈ blank, r.1 ≤ n ∧ n ≤ r.2.1) → n ∈ spaceCodes := by
      intro n hn
      simp only [blank, List.mem_cons, List.not_mem_nil, or_false, exists_eq_or_imp,
        exists_eq_left] at hn
      simp only [spaceCodes, List.mem_cons, List.not_mem_nil, or_false]
      omega
    exact hrange _ ⟨r, hr, hfirst, hlast⟩
  · decide
  · decide

/-- White space is no part of identifiers, and neither a letter nor a number. -/
theorem has_eq_false_of_isSpace {c : Char} (h : isSpace c = true) :
    identStart.has c.toNat = false ∧ identExtra.has c.toNat = false ∧
      alphabetic.has c.toNat = false ∧ numeric.has c.toNat = false := by
  have hcodes : ∀ n ∈ spaceCodes, identStart.has n = false ∧ identExtra.has n = false ∧
      alphabetic.has n = false ∧ numeric.has n = false := by decide +kernel
  exact hcodes _ (toNat_mem_spaceCodes h)

/-- A character that starts identifiers is no white space. -/
theorem isSpace_of_isIdentStart {c : Char} (h : isIdentStart c = true) : isSpace c = false := by
  rw [Bool.eq_false_iff]
  intro hspace
  rw [isIdentStart, (has_eq_false_of_isSpace hspace).1, Bool.or_false, beq_iff_eq] at h
  subst h
  revert hspace
  decide

/-- Two characters that differ in a property are different. -/
theorem ne_of_class {p : Char → Bool} {c d : Char} (hc : p c = true) (hd : p d = false) :
    c ≠ d := by
  rintro rfl
  rw [hc] at hd
  cases hd

/-- A start of a word is different from a character that starts none. -/
theorem identStart_ne {c d : Char} (hc : isIdentStart c = true) (hd : isIdentStart d = false) :
    c ≠ d := ne_of_class hc hd

/-! ## Reading tokens one after another -/

/-- The characters `cs`, where `rest` follows them, are read as the tokens `ts`. -/
def Lexes (cs : List Char) (ts : List TokenTree) (rest : List Char) : Prop :=
  ∀ fuel done stack, (cs ++ rest).length < fuel →
    ∃ left, rest.length < left ∧
      lexFrom fuel (cs ++ rest) done stack = lexFrom left rest (ts.reverse ++ done) stack

namespace Lexes

/-- No characters are read as no tokens. -/
theorem nil (rest : List Char) : Lexes [] [] rest :=
  fun fuel _ _ hfuel => ⟨fuel, hfuel, rfl⟩

/-- A text in two parts is read as the tokens of the parts. -/
theorem append {as bs rest : List Char} {ts us : List TokenTree} (ha : Lexes as ts (bs ++ rest))
    (hb : Lexes bs us rest) : Lexes (as ++ bs) (ts ++ us) rest := by
  intro fuel done stack hfuel
  rw [List.append_assoc] at hfuel ⊢
  rcases ha fuel done stack hfuel with ⟨middle, hmiddle, hfirst⟩
  rcases hb middle (ts.reverse ++ done) stack hmiddle with ⟨left, hleft, hsecond⟩
  refine ⟨left, hleft, ?_⟩
  rw [hfirst, hsecond, List.reverse_append, List.append_assoc]

/-- White space before a text is passed over. -/
theorem space {cs rest : List Char} {ts : List TokenTree} (h : Lexes cs ts rest) :
    Lexes (' ' :: cs) ts rest := by
  intro fuel done stack hfuel
  cases fuel with
  | zero => cases hfuel
  | succ fuel =>
    have hskip : ∀ xs : List Char, lexFrom (fuel + 1) (' ' :: xs) done stack =
        lexFrom (fuel + 1) xs done stack := fun xs => rfl
    rw [List.cons_append, hskip]
    refine h (fuel + 1) done stack ?_
    simp only [List.cons_append, List.length_cons] at hfuel
    omega

end Lexes

/-- A character that nothing is passed over at. -/
structure Stays (c : Char) : Prop where
  space : isSpace c = false
  slash : c ≠ '/'

/-- Such a character is not passed over as space. -/
theorem Stays.skipSpace {c : Char} (h : Stays c) (fuel : Nat) (cs : List Char) :
    skipSpace (fuel + 1) (c :: cs) = c :: cs := by
  have hslash := h.slash.symm
  simp [Token.skipSpace, startsLineComment, startsBlockComment, startsWith, hslash, h.space]

/-- Such a character starts no comment. -/
theorem Stays.docComment? {c : Char} (h : Stays c) (cs : List Char) :
    docComment? (c :: cs) = none := by
  have hslash := h.slash.symm
  simp [Token.docComment?, startsWith, hslash]

/-- The start of a word is neither space nor comment. -/
theorem Stays.of_isIdentStart {c : Char} (h : isIdentStart c = true) : Stays c :=
  ⟨isSpace_of_isIdentStart h, identStart_ne h (by decide)⟩

namespace Lexes

/-- A token that is not a group, where nothing is passed over. -/
theorem leaf_at {c : Char} {cs rest : List Char} {t : TokenTree}
    (hskip : ∀ fuel, skipSpace (fuel + 1) (c :: (cs ++ rest)) = c :: (cs ++ rest))
    (hdoc : docComment? (c :: (cs ++ rest)) = none) (hopens : opens? c = none)
    (hcloses : closes? c = none) (h : leaf? (c :: cs ++ rest) = some (t, rest)) :
    Lexes (c :: cs) [t] rest := by
  -- One step of the lexer takes the leaf; the fuel left is enough for the rest.
  intro fuel done stack hfuel
  cases fuel with
  | zero => cases hfuel
  | succ fuel =>
    refine ⟨fuel, ?_, ?_⟩
    · simp only [List.cons_append, List.length_cons, List.length_append] at hfuel
      omega
    · rw [List.cons_append] at h ⊢
      simp only [lexFrom, hskip, hdoc, hopens, hcloses, h, List.reverse_singleton,
        List.singleton_append]

/-- A token that is not a group. -/
theorem leaf {c : Char} {cs rest : List Char} {t : TokenTree} (hc : Stays c)
    (hopens : opens? c = none) (hcloses : closes? c = none)
    (h : leaf? (c :: cs ++ rest) = some (t, rest)) : Lexes (c :: cs) [t] rest :=
  leaf_at (fun fuel => hc.skipSpace fuel _) (hc.docComment? _) hopens hcloses h

/-- A group in brackets. -/
theorem group {d : Delimiter} {o e : Char} {body rest : List Char} {ts : List TokenTree}
    (ho : Stays o) (he : Stays e) (hopen : opens? o = some d) (hopen' : opens? e = none)
    (hclose : closes? e = some d) (h : Lexes body ts (e :: rest)) :
    Lexes (o :: body ++ [e]) [.group d ts] rest := by
  intro fuel done stack hfuel
  cases fuel with
  | zero => cases hfuel
  | succ fuel =>
    have hbody : (body ++ e :: rest).length < fuel := by
      simp only [List.cons_append, List.append_assoc, List.length_cons, List.length_append,
        List.length_nil] at hfuel ⊢
      omega
    -- the body is read with the group pending on the stack
    rcases h fuel [] ((d, done) :: stack) hbody with ⟨left, hleft, hinner⟩
    cases left with
    | zero => cases hleft
    | succ left =>
      refine ⟨left, by simpa using hleft, ?_⟩
      have hstart : lexFrom (fuel + 1) (o :: (body ++ e :: rest)) done stack =
          lexFrom fuel (body ++ e :: rest) [] ((d, done) :: stack) := by
        simp only [lexFrom, ho.skipSpace, ho.docComment?, hopen]
      have hend : lexFrom (left + 1) (e :: rest) (ts.reverse ++ []) ((d, done) :: stack) =
          lexFrom left rest ([TokenTree.group d ts].reverse ++ done) stack := by
        simp only [lexFrom, he.skipSpace, he.docComment?, hopen', hclose, List.append_nil,
          List.reverse_reverse, List.reverse_singleton, List.singleton_append, if_true]
      rw [List.cons_append, List.cons_append, List.append_assoc, List.singleton_append, hstart,
        hinner, hend]

end Lexes

/-! ## Operators -/

/-- Without a digit in front there is no number with a fraction. -/
theorem floatDigits?_eq_none {c : Char} (h : c.isDigit = false) (cs : List Char) :
    floatDigits? (c :: cs) = none := by
  simp [floatDigits?, h]

/-- Without a digit in front there is no whole number. -/
theorem intDigits?_eq_none {c : Char} (h : c.isDigit = false) (cs : List Char) :
    intDigits? (c :: cs) = none := by
  have hzero : c ≠ '0' := by
    rintro rfl
    revert h
    decide
  have hhex : (isHexDigit c && decide (hexValue c < 10)) = false := by
    simp only [isHexDigit, hexValue, h, Bool.false_or, Bool.false_eq_true, if_false]
    -- A hex digit of value below ten is a decimal digit, as the letters start at ten.
    by_cases hlower : 'a' ≤ c
    · have hcode : 97 ≤ c.toNat := hlower
      simp only [hlower, if_true, true_and, Bool.and_eq_false_iff, decide_eq_false_iff_not]
      omega
    · by_cases hupper : 'A' ≤ c
      · have hcode : 65 ≤ c.toNat := hupper
        simp only [hlower, if_false, false_and, Bool.and_eq_false_iff, decide_eq_false_iff_not]
        omega
      · simp [hlower, hupper]
  unfold intDigits?
  split
  · next heq => exact absurd (List.cons.inj heq).1 hzero
  · next heq => exact absurd (List.cons.inj heq).1 hzero
  · next heq => exact absurd (List.cons.inj heq).1 hzero
  · simp [digits?, h, hhex]

/-- A character that starts none of their kinds starts no literal. -/
theorem literal?_eq_none {c : Char} (h : c.isDigit = false)
    (hquotes : c ∉ ['"', '\'', 'r', 'b', 'c']) (cs : List Char) : literal? (c :: cs) = none := by
  simp only [List.mem_cons, List.not_mem_nil, or_false, not_or] at hquotes
  rcases hquotes with ⟨hdouble, hsingle, hr, hb, hc⟩
  unfold literal?
  split <;> simp_all [floatDigits?_eq_none, intDigits?_eq_none]

/-- An operator character starts nothing but an operator. -/
theorem punctuation_facts {c : Char} (h : c ∈ punctuation) (hslash : c ≠ '/') :
    Stays c ∧ opens? c = none ∧ closes? c = none ∧ c.isDigit = false ∧
      c ∉ ['"', '\'', 'r', 'b', 'c'] := by
  have hfacts : ∀ d ∈ punctuation, isSpace d = false ∧ opens? d = none ∧ closes? d = none ∧
      d.isDigit = false ∧ d ∉ ['"', '\'', 'r', 'b', 'c'] := forall_mem_of_all (by decide +kernel)
  rcases hfacts c h with ⟨hspace, hfacts⟩
  exact ⟨⟨hspace, hslash⟩, hfacts⟩

/-- An operator character starts an operator. -/
theorem startsPunct_cons {c : Char} (h : c ∈ punctuation) (hslash : c ≠ '/') (cs : List Char) :
    startsPunct (c :: cs) = true := by
  simp [startsPunct, startsWith, List.isPrefixOf, hslash.symm, h]

/-- An operator character is a token, joint if an operator character follows. -/
theorem Lexes.punct {c : Char} (h : c ∈ punctuation) (hslash : c ≠ '/') (rest : List Char) :
    Lexes [c] [.punct c (startsPunct rest)] rest := by
  rcases punctuation_facts h hslash with ⟨hstays, hopens, hcloses, hdigit, hquotes⟩
  refine Lexes.leaf hstays hopens hcloses ?_
  have hsingle : c ≠ '\'' := fun heq => hquotes (by simp [heq])
  rw [List.cons_append, List.nil_append, leaf?, literal?_eq_none hdigit hquotes]
  · simp [startsPunct_cons h hslash]
  · exact hsingle

/-! ## Names and lifetimes -/

/-- A text that is a word: a character that starts identifiers, and others that continue them. -/
def IsWord (cs : List Char) : Prop :=
  ∃ c more, cs = c :: more ∧ isIdentStart c = true ∧ ∀ d ∈ more, isIdentContinue d = true

/-- A word has a start and goes on with characters of words. -/
theorem isWord_cons_iff {c : Char} {more : List Char} :
    IsWord (c :: more) ↔ (isIdentStart c && more.all isIdentContinue) = true := by
  rw [Bool.and_eq_true, List.all_eq_true]
  constructor
  · rintro ⟨d, ds, heq, h⟩
    cases heq
    exact h
  · intro h
    exact ⟨c, more, rfl, h⟩

instance : DecidablePred IsWord
  | [] => isFalse fun ⟨_, _, h, _⟩ => nomatch h
  | _ :: _ => decidable_of_iff _ isWord_cons_iff.symm

/-- What follows a word: nothing that goes on with it, and nothing that makes it the start of a
literal. -/
def EndsWord (rest : List Char) : Prop :=
  ∀ c, rest.head? = some c → isIdentContinue c = false ∧ c ∉ ['"', '\'', '#']

/-- A word ends before a character that cannot go on with it. -/
theorem EndsWord.cons {c : Char} (h : isIdentContinue c = false ∧ c ∉ ['"', '\'', '#'])
    (cs : List Char) : EndsWord (c :: cs) := by
  intro d hd
  cases hd
  exact h

/-- After the start of a word there is no quote and no number sign. -/
theorem notMem_quotes_of_word {more rest : List Char} (hmore : ∀ d ∈ more, isIdentContinue d = true)
    (hrest : EndsWord rest) {d : Char} (hd : (more ++ rest).head? = some d) :
    d ∉ ['"', '\'', '#'] := by
  cases more with
  | nil => exact (hrest d hd).2
  | cons e more =>
    have heq : e = d := Option.some.inj hd
    have hcontinue := hmore e List.mem_cons_self
    have hquotes : ∀ q ∈ ['"', '\'', '#'], isIdentContinue q = false :=
      forall_mem_of_all (by decide)
    intro hmem
    rw [heq, hquotes d hmem] at hcontinue
    cases hcontinue

/-- The characters of a word are passed over up to what ends it. -/
theorem dropWhile_word {more rest : List Char} (hmore : ∀ d ∈ more, isIdentContinue d = true)
    (hrest : EndsWord rest) : (more ++ rest).dropWhile isIdentContinue = rest := by
  induction more with
  | nil =>
    cases rest with
    | nil => rfl
    | cons c cs => simp [(hrest c rfl).1]
  | cons d more ih =>
    rw [List.cons_append, List.dropWhile_cons_of_pos (hmore d List.mem_cons_self)]
    exact ih fun e he => hmore e (List.mem_cons_of_mem _ he)

/-- What stands before the rest of a text is what was taken. -/
theorem before_append (cs rest : List Char) : before (cs ++ rest) rest = cs := by
  simp [before]

/-- A word is taken up to what ends it. -/
theorem word?_append {cs rest : List Char} (h : IsWord cs) (hrest : EndsWord rest) :
    word? (cs ++ rest) = some rest := by
  rcases h with ⟨c, more, rfl, hc, hmore⟩
  simp [word?, hc, dropWhile_word hmore hrest]

/-- Without hashes or a quote there is no raw string. -/
theorem rawString?_eq_none {kind : StringKind} {cs : List Char}
    (h : ∀ d, cs.head? = some d → d ∉ ['"', '\'', '#']) : rawString? kind cs = none := by
  cases cs with
  | nil => rfl
  | cons d cs =>
    have hd := h d rfl
    simp only [List.mem_cons, List.not_mem_nil, or_false, not_or] at hd
    have hhash : (d == '#') = false := beq_false_of_ne hd.2.2
    simp [rawString?, hhash, hd.1]

/-- A word does not start with a digit. -/
theorem isDigit_of_isIdentStart {c : Char} (h : isIdentStart c = true) : c.isDigit = false := by
  rw [Bool.eq_false_iff]
  intro hdigit
  have hcodes : ∀ n, 48 ≤ n → n ≤ 57 → identStart.has n = false := by
    intro n hlow hhigh
    interval_cases n <;> decide
  simp only [Char.isDigit, Bool.and_eq_true, decide_eq_true_eq] at hdigit
  rw [isIdentStart, hcodes c.toNat hdigit.1 hdigit.2, Bool.or_false, beq_iff_eq] at h
  subst h
  revert hdigit
  decide

/-- A word is no literal. -/
theorem literal?_word {cs rest : List Char} (h : IsWord cs) (hrest : EndsWord rest) :
    literal? (cs ++ rest) = none := by
  rcases h with ⟨c, more, rfl, hc, hmore⟩
  have hdigit := isDigit_of_isIdentStart hc
  have hnext : ∀ d, (more ++ rest).head? = some d → d ∉ ['"', '\'', '#'] :=
    fun d => notMem_quotes_of_word hmore hrest
  -- after `b` or `c`, an `r` belongs to the word, and so does not start a literal either
  have hraw : ∀ kind ds, more ++ rest = 'r' :: ds → rawString? kind ds = none := by
    intro kind ds heq
    refine rawString?_eq_none fun e he => ?_
    cases more with
    | nil =>
      have hend := (hrest 'r' (by rw [List.nil_append] at heq; rw [heq]; rfl)).1
      exact absurd hend (by decide)
    | cons d more =>
      rcases List.cons.inj heq with ⟨-, rfl⟩
      exact notMem_quotes_of_word (fun d hd => hmore d (List.mem_cons_of_mem _ hd)) hrest he
  have hquote : ∀ q ds, q ∈ ['"', '\'', '#'] → more ++ rest ≠ q :: ds := by
    intro q ds hq heq
    exact hnext q (by rw [heq]; rfl) hq
  -- one case for each way in which a literal can start
  rw [List.cons_append]
  unfold literal?
  rw [floatDigits?_eq_none hdigit, intDigits?_eq_none hdigit]
  split
  · next heq => exact absurd (List.cons.inj heq).1 (identStart_ne hc (by decide))
  · next heq =>
    rcases List.cons.inj heq with ⟨-, rfl⟩
    rw [rawString?_eq_none hnext]
    rfl
  · next heq => exact absurd (List.cons.inj heq).2 (hquote _ _ (by decide))
  · next heq =>
    rw [hraw _ _ (List.cons.inj heq).2]
    rfl
  · next heq => exact absurd (List.cons.inj heq).2 (hquote _ _ (by decide))
  · next heq =>
    rw [hraw _ _ (List.cons.inj heq).2]
    rfl
  · next heq => exact absurd (List.cons.inj heq).2 (hquote _ _ (by decide))
  · next heq => exact absurd (List.cons.inj heq).1 (identStart_ne hc (by decide))
  · rfl

/-- Characters of a word with a quote after them do not start a text that starts with a word. -/
theorem not_prefix_word {w more rest : List Char} {q : Char}
    (hw : ∀ d ∈ w, isIdentContinue d = true) (hq : q ∈ ['"', '\'', '#'])
    (hmore : ∀ d ∈ more, isIdentContinue d = true) (hrest : EndsWord rest) :
    ¬(w ++ [q]) <+: (more ++ rest) := by
  -- Induction on the prefix's word; the quote after it would have to be a character of a word.
  induction w generalizing more with
  | nil =>
    rintro ⟨ds, hds⟩
    exact notMem_quotes_of_word hmore hrest (by rw [← hds]; rfl) hq
  | cons d w ih =>
    intro h
    cases more with
    | nil =>
      rcases h with ⟨ds, hds⟩
      have hend := (hrest d (by rw [List.nil_append] at hds; rw [← hds]; rfl)).1
      rw [hw d List.mem_cons_self] at hend
      cases hend
    | cons e more =>
      rw [List.cons_append, List.cons_append, List.cons_prefix_cons] at h
      exact ih (fun x hx => hw x (List.mem_cons_of_mem _ hx))
        (fun x hx => hmore x (List.mem_cons_of_mem _ hx)) h.2

/-- A word starts with none of the starts that only a literal may have. -/
theorem literalStarts_word {cs rest : List Char} (h : IsWord cs) (hrest : EndsWord rest) :
    literalStarts.any (startsWith · (cs ++ rest)) = false := by
  rcases h with ⟨c, more, rfl, hc, hmore⟩
  have hparts : ∀ start ∈ literalStarts, ∃ d w q ds, start.toList = d :: (w ++ [q]) ++ ds ∧
      (∀ e ∈ w, isIdentContinue e = true) ∧ q ∈ ['"', '\'', '#'] := by
    -- Each start of a literal is a letter, a few letters more and a quote or `#`.
    intro start hstart
    simp only [literalStarts, List.mem_cons, List.not_mem_nil, or_false] at hstart
    rcases hstart with rfl | rfl | rfl | rfl | rfl | rfl | rfl | rfl | rfl | rfl
    · exact ⟨'r', [], '"', [], rfl, forall_mem_of_all rfl, by decide⟩
    · exact ⟨'r', [], '#', ['"'], rfl, forall_mem_of_all rfl, by decide⟩
    · exact ⟨'r', [], '#', ['#'], rfl, forall_mem_of_all rfl, by decide⟩
    · exact ⟨'b', [], '"', [], rfl, forall_mem_of_all rfl, by decide⟩
    · exact ⟨'b', [], '\'', [], rfl, forall_mem_of_all rfl, by decide⟩
    · exact ⟨'b', ['r'], '"', [], rfl, forall_mem_of_all rfl, by decide⟩
    · exact ⟨'b', ['r'], '#', [], rfl, forall_mem_of_all rfl, by decide⟩
    · exact ⟨'c', [], '"', [], rfl, forall_mem_of_all rfl, by decide⟩
    · exact ⟨'c', ['r'], '"', [], rfl, forall_mem_of_all rfl, by decide⟩
    · exact ⟨'c', ['r'], '#', [], rfl, forall_mem_of_all rfl, by decide⟩
  rw [List.any_eq_false]
  intro start hstart hprefix
  rcases hparts start hstart with ⟨d, w, q, ds, hstart, hw, hq⟩
  rw [startsWith, List.isPrefixOf_iff_prefix, hstart, List.cons_append, List.cons_append,
    List.cons_prefix_cons] at hprefix
  exact not_prefix_word hw hq hmore hrest ((List.prefix_append _ _).trans hprefix.2)

end Token

/-- Whether the text of an identifier is read as one. -/
def Ident.Lexical (i : Ident) : Prop :=
  Token.IsWord i.name.toList ∧ (i.raw = true → i.name ∉ Token.neverRaw)

instance (i : Ident) : Decidable i.Lexical := inferInstanceAs (Decidable (_ ∧ _))

namespace Token

/-- The text of a raw identifier has its mark in front. -/
theorem toList_text_raw {i : Ident} (h : i.raw = true) :
    i.text.toList = 'r' :: '#' :: i.name.toList := by
  simp [Ident.text, h]

/-- The text of a plain identifier is its name. -/
theorem toList_text_plain {i : Ident} (h : i.raw = false) : i.text.toList = i.name.toList := by
  simp [Ident.text, h]

/-- An identifier is read as itself. -/
theorem ident?_text {i : Ident} (h : i.Lexical) {rest : List Char} (hrest : EndsWord rest) :
    ident? (i.text.toList ++ rest) = some (i, rest) := by
  rcases h with ⟨hword, hnever⟩
  have hname : String.ofList (before (i.name.toList ++ rest) rest) = i.name := by
    rw [before_append, String.ofList_toList]
  -- A raw identifier is read behind its mark; a plain one must not look as if it had that mark.
  cases hraw : i.raw with
  | true =>
    have hcontains : neverRaw.contains i.name = false := by
      simpa using hnever hraw
    have hstart : startsWith "r#" ('r' :: '#' :: (i.name.toList ++ rest)) = true := by
      simp [startsWith]
    rw [toList_text_raw hraw, List.cons_append, List.cons_append, ident?, hstart]
    simp only [if_true, List.drop_succ_cons, List.drop_zero, word?_append hword hrest, hname,
      hcontains, Bool.and_false, Bool.false_eq_true, if_false]
    rw [← hraw]
  | false =>
    have hstart : startsWith "r#" (i.name.toList ++ rest) = false := by
      rcases hword with ⟨c, more, hcs, -, hmore⟩
      rw [hcs, Bool.eq_false_iff, startsWith, ne_eq, List.isPrefixOf_iff_prefix]
      intro hprefix
      -- The mark would need a `#` inside the word or right after it.
      have hsharp : ([] ++ ['#']) <+: (more ++ rest) := (List.cons_prefix_cons.mp hprefix).2
      exact not_prefix_word (by simp) (by decide) hmore hrest hsharp
    rw [toList_text_plain hraw, ident?, hstart]
    simp only [Bool.false_eq_true, if_false, word?_append hword hrest, hname, Bool.false_and]
    rw [← hraw]

/-- An identifier is not taken as a literal. -/
theorem literal?_text {i : Ident} (h : i.Lexical) {rest : List Char} (hrest : EndsWord rest) :
    literal? (i.text.toList ++ rest) = none := by
  cases hraw : i.raw with
  | false =>
    rw [toList_text_plain hraw]
    exact literal?_word h.1 hrest
  -- The mark of a raw identifier looks like the start of a raw string, but no quote follows.
  | true =>
    rcases h.1 with ⟨c, more, hcs, hc, -⟩
    have hsharp : (c == '#') = false := beq_false_of_ne (identStart_ne hc (by decide))
    have hquote : c ≠ '"' := identStart_ne hc (by decide)
    have hstring : rawString? textKind ('#' :: c :: (more ++ rest)) = none := by
      simp [rawString?, hsharp, hquote]
    rw [toList_text_raw hraw, hcs]
    simp only [List.cons_append, literal?, hstring]
    rw [floatDigits?_eq_none (by decide), intDigits?_eq_none (by decide)]
    rfl

/-- An identifier starts with none of the starts that only a literal may have. -/
theorem literalStarts_text {i : Ident} (h : i.Lexical) {rest : List Char} (hrest : EndsWord rest) :
    literalStarts.any (startsWith · (i.text.toList ++ rest)) = false := by
  cases hraw : i.raw with
  | false =>
    rw [toList_text_plain hraw]
    exact literalStarts_word h.1 hrest
  | true =>
    rcases h.1 with ⟨c, more, hcs, hc, -⟩
    have hsharp : '#' ≠ c := (identStart_ne hc (by decide)).symm
    have hquote : '"' ≠ c := (identStart_ne hc (by decide)).symm
    rw [toList_text_raw hraw, hcs]
    simp [literalStarts, startsWith, List.isPrefixOf, hsharp, hquote]

/-- The text of an identifier starts with a character that starts identifiers. -/
theorem exists_text_eq_cons {i : Ident} (h : i.Lexical) :
    ∃ c cs, i.text.toList = c :: cs ∧ isIdentStart c = true := by
  cases hraw : i.raw with
  | false =>
    rcases h.1 with ⟨c, more, hcs, hc, -⟩
    exact ⟨c, more, by rw [toList_text_plain hraw, hcs], hc⟩
  | true => exact ⟨'r', _, toList_text_raw hraw, by decide⟩

/-- The start of a word is no bracket, no operator and no apostrophe. -/
theorem identStart_facts {c : Char} (h : isIdentStart c = true) :
    opens? c = none ∧ closes? c = none ∧ c ∉ punctuation ∧ c ≠ '\'' := by
  have hothers : ∀ d ∈ ['(', '[', '\x7b', ')', ']', '\x7d', '\''] ++ punctuation,
      isIdentStart d = false := forall_mem_of_all (by decide +kernel)
  have hne : ∀ d ∈ ['(', '[', '\x7b', ')', ']', '\x7d', '\''] ++ punctuation, c ≠ d :=
    fun d hd => identStart_ne h (hothers d hd)
  refine ⟨?_, ?_, fun hmem => hne c (List.mem_append_right _ hmem) rfl, hne _ (by decide)⟩
  · simp [opens?, hne '(' (by decide), hne '[' (by decide), hne '\x7b' (by decide)]
  · simp [closes?, hne ')' (by decide), hne ']' (by decide), hne '\x7d' (by decide)]

/-- An identifier is a token. -/
theorem Lexes.ident {i : Ident} (h : i.Lexical) {rest : List Char} (hrest : EndsWord rest) :
    Lexes i.text.toList [.ident i] rest := by
  rcases exists_text_eq_cons h with ⟨c, cs, htext, hc⟩
  rcases identStart_facts hc with ⟨hopens, hcloses, hpunct, hsingle⟩
  have hliteral := literal?_text h hrest
  have hstarts := literalStarts_text h hrest
  have hident := ident?_text h hrest
  rw [htext] at hliteral hstarts hident ⊢
  refine Lexes.leaf (Stays.of_isIdentStart hc) hopens hcloses ?_
  -- No other kind of token starts like an identifier, so its own reader is reached.
  have hnot : startsPunct (c :: cs ++ rest) = false := by
    simp [startsPunct, hpunct, hsingle]
  rw [List.cons_append] at hliteral hstarts hident hnot ⊢
  rw [leaf?, hliteral]
  · simp [hnot, hstarts, hident]
  · exact hsingle

/-- The second character of an identifier, or what follows it, is no apostrophe. -/
theorem head?_tail_text {i : Ident} (h : i.Lexical) {rest : List Char} (hrest : EndsWord rest) :
    (i.text.toList ++ rest).tail.head? ≠ some '\'' := by
  cases hraw : i.raw with
  | true => simp [toList_text_raw hraw]
  | false =>
    rcases h.1 with ⟨c, more, hcs, -, hmore⟩
    rw [toList_text_plain hraw, hcs, List.cons_append, List.tail_cons]
    intro hhead
    exact notMem_quotes_of_word hmore hrest hhead (by decide)

/-- A lifetime is not taken as a character. -/
theorem literal?_lifetime {i : Ident} (h : i.Lexical) {rest : List Char} (hrest : EndsWord rest) :
    literal? ('\'' :: (i.text.toList ++ rest)) = none := by
  rcases exists_text_eq_cons h with ⟨c, cs, htext, hc⟩
  have hslash : c ≠ '\\' := identStart_ne hc (by decide)
  have hnext := head?_tail_text h hrest
  rw [htext, List.cons_append, List.tail_cons] at hnext
  -- A character literal would close with a quote right after the first character.
  have hcharacter : character? textKind (c :: (cs ++ rest)) = none := by
    rw [character?]
    · simp only [textKind, if_true, bind, Option.bind_some]
      split
      · next heq => exact absurd (by rw [heq]; rfl) hnext
      · rfl
    · exact hslash
  rw [htext, List.cons_append]
  simp only [literal?, hcharacter]
  rw [floatDigits?_eq_none (by decide), intDigits?_eq_none (by decide)]
  rfl

/-- A lifetime is taken up to what ends its name. -/
theorem lifetime?_text {i : Ident} (h : i.Lexical) {rest : List Char} (hrest : EndsWord rest) :
    lifetime? (i.text.toList ++ rest) = some (i, rest) := by
  have hends : rest.head? ≠ some '\'' ∧ rest.head? ≠ some '#' := by
    constructor
    · intro hhead
      exact (hrest _ hhead).2 (by decide)
    · intro hhead
      exact (hrest _ hhead).2 (by decide)
  simp [lifetime?, ident?_text h hrest, hends.1, hends.2]

/-- A lifetime is a token. -/
theorem Lexes.lifetime {i : Ident} (h : i.Lexical) {rest : List Char} (hrest : EndsWord rest) :
    Lexes ('\'' :: i.text.toList) [.lifetime i] rest := by
  refine Lexes.leaf ⟨by decide, by decide⟩ rfl rfl ?_
  rw [List.cons_append, leaf?, literal?_lifetime h hrest]
  simp [lifetime?_text h hrest]

/-! ## Whole texts -/

/-- No token starts with a byte order mark. -/
theorem lexFrom_mark (fuel : Nat) (cs : List Char) (done : List TokenTree)
    (stack : List (Delimiter × List TokenTree)) :
    lexFrom fuel ('\ufeff' :: cs) done stack = none := by
  cases fuel with
  | zero => rfl
  -- No reader takes the byte-order mark: it is no space, letter, sign, bracket or literal.
  | succ fuel =>
    have hstays : Stays '\ufeff' := ⟨by decide +kernel, by decide⟩
    have hstart : isIdentStart '\ufeff' = false := by decide +kernel
    have hliteral : literal? ('\ufeff' :: cs) = none :=
      literal?_eq_none (by decide +kernel) (by decide +kernel) cs
    have hident : ident? ('\ufeff' :: cs) = none := by
      simp [ident?, startsWith, word?, hstart]
    have hnot : '\ufeff' ∉ punctuation := by decide +kernel
    have hpunct : startsPunct ('\ufeff' :: cs) = false := by simp [startsPunct, hnot]
    have hleaf : leaf? ('\ufeff' :: cs) = none := by
      rw [leaf?, hliteral]
      · simp [hpunct, hident]
      · decide +kernel
    have hopens : opens? '\ufeff' = none := rfl
    have hcloses : closes? '\ufeff' = none := rfl
    simp only [lexFrom, hstays.skipSpace, hstays.docComment?, hopens, hcloses, hleaf]

/-- A text that falls into tokens is read as these. -/
theorem lex_of_lexes {text : String} {ts : List TokenTree} (h : Lexes text.toList ts []) :
    lex text = some ts := by
  rcases h (text.toList.length + 1) [] [] (by simp) with ⟨left, hleft, hlex⟩
  rw [List.append_nil, List.append_nil] at hlex
  have hend : lexFrom left [] ts.reverse [] = some ts := by
    cases left with
    | zero => cases hleft
    | succ left => exact congrArg some ts.reverse_reverse
  rw [hend] at hlex
  -- A text that starts with the byte-order mark is no text of tokens.
  have hdrop : dropMark text.toList = text.toList := by
    unfold dropMark
    split
    · next heq =>
      rw [heq, lexFrom_mark] at hlex
      cases hlex
    · rfl
  rw [lex, hdrop, hlex]

end Token

end Memberwise
