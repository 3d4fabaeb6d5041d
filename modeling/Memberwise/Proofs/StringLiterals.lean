import Memberwise.Proofs.Lexing

/-!
# Memberwise.Proofs.StringLiterals — the texts of string and character literals

The lexer takes a literal up to what does not belong to it any more. For each kind of literal there
is a pair of lemmas: what is taken has a certain form (`…_sound`), and a text of this form is taken
before anything that ends a token (`…_complete`).
-/

namespace Memberwise.Token

open Text

/-! ## Ends of tokens -/

/-- The characters that can stand directly after a token where spaces between tokens are dropped: a
space that is not, a sign at which they are, or a closing bracket; and the semicolon after the type
of the elements of an array, before which none is printed. -/
def tokenEnds : List Char := [' ', ':', '<', '>', ',', ';', ')', ']', '\x7d']

/-- The text ends the token before it. -/
def EndsToken (rest : List Char) : Prop := ∀ c ∈ rest.head?, c ∈ tokenEnds

/-- A token ends with the text. -/
theorem EndsToken.nil : EndsToken [] := by
  intro c hc
  cases hc

/-- A token ends before a character that no token goes on with. -/
theorem EndsToken.cons {c : Char} (h : c ∈ tokenEnds) (cs : List Char) : EndsToken (c :: cs) := by
  intro d hd
  cases hd
  exact h

/-- A character that no token goes on with is none of those that tokens are made of. -/
theorem tokenEnds_facts : ∀ c ∈ tokenEnds, isIdentStart c = false ∧ isIdentContinue c = false ∧
    c.isDigit = false ∧ isHexDigit c = false ∧
    c ∉ ['_', '.', 'e', 'E', '+', '-', '"', '\'', '#'] := forall_mem_of_all (by decide +kernel)

/-- What ends a token ends a word. -/
theorem EndsToken.endsWord {rest : List Char} (h : EndsToken rest) : EndsWord rest := by
  intro c hc
  obtain ⟨-, hcontinue, -, -, hothers⟩ := tokenEnds_facts c (h c hc)
  refine ⟨hcontinue, fun hmem => hothers ?_⟩
  simp only [List.mem_cons, List.not_mem_nil, or_false] at hmem ⊢
  tauto

/-! ## Suffixes -/

/-- The suffix of a literal: a word or nothing. -/
def Suffix (s : List Char) : Prop := s = [] ∨ IsWord s

/-- What is taken as a word is one. -/
theorem exists_word_of_word? {cs rest : List Char} (h : word? cs = some rest) :
    ∃ w, cs = w ++ rest ∧ IsWord w := by
  cases cs with
  | nil => cases h
  | cons c cs =>
    rw [word?] at h
    split at h
    · next hstart =>
      cases h
      refine ⟨c :: cs.takeWhile isIdentContinue, ?_, c, _, rfl, hstart,
        List.all_eq_true.mp List.all_takeWhile⟩
      rw [List.cons_append, List.takeWhile_append_dropWhile]
    · cases h

/-- What is passed over after a literal is a suffix. -/
theorem skipSuffix_sound {cs rest : List Char} (h : skipSuffix cs = rest) :
    ∃ s, cs = s ++ rest ∧ Suffix s := by
  rw [skipSuffix] at h
  cases hword : word? cs with
  | none =>
    rw [hword] at h
    exact ⟨[], h, .inl rfl⟩
  | some after =>
    rw [hword] at h
    cases h
    obtain ⟨w, heq, hw⟩ := exists_word_of_word? hword
    exact ⟨w, heq, .inr hw⟩

/-- A suffix before the end of the token is passed over whole. -/
theorem skipSuffix_complete {s rest : List Char} (h : Suffix s) (hrest : EndsToken rest) :
    skipSuffix (s ++ rest) = rest := by
  rcases h with rfl | h
  · cases rest with
    | nil => rfl
    | cons c rest => simp [skipSuffix, word?, (tokenEnds_facts c (hrest c rfl)).1]
  · rw [skipSuffix, word?_append h hrest.endsWord]
    rfl

/-! ## Strings with escapes -/

/-- The white space that a backslash at the end of a line stands before. -/
inductive Gap : List Char → Prop where
  | nil : Gap []
  | pair {ws : List Char} (h : Gap ws) : Gap ('\r' :: '\n' :: ws)
  | white {c : Char} {ws : List Char} (hc : c ∈ [' ', '\t', '\n']) (h : Gap ws) : Gap (c :: ws)

/-- The text goes on, and not with white space. -/
def GoesOn (cs : List Char) : Prop := ∃ c more, cs = c :: more ∧ c ∉ [' ', '\t', '\n', '\r']

/-- What is passed over after a line break is a gap, and the string goes on after it. -/
theorem skipLineGap_sound {cs rest : List Char} (h : skipLineGap cs = some rest) :
    ∃ ws, cs = ws ++ rest ∧ Gap ws ∧ GoesOn rest := by
  -- The cases are those of the reader: a line break of two characters, one blank, or the end.
  fun_induction skipLineGap cs with
  | case1 cs ih =>
    obtain ⟨ws, rfl, hws, hrest⟩ := ih h
    exact ⟨_, rfl, hws.pair, hrest⟩
  | case2 => cases h
  | case3 c cs _ _ hwhite ih =>
    obtain ⟨ws, rfl, hws, hrest⟩ := ih h
    refine ⟨c :: ws, rfl, hws.white ?_, hrest⟩
    simpa [or_assoc] using hwhite
  | case4 c cs _ hreturn hwhite =>
    cases h
    refine ⟨[], rfl, .nil, c, cs, rfl, ?_⟩
    have hne : c ≠ '\r' := hreturn
    simp_all
  | case5 => cases h

/-- A gap is passed over up to where the string goes on. -/
theorem skipLineGap_complete {ws rest : List Char} (h : Gap ws) (hrest : GoesOn rest) :
    skipLineGap (ws ++ rest) = some rest := by
  induction h with
  | nil =>
    obtain ⟨c, more, rfl, hc⟩ := hrest
    simp only [List.mem_cons, List.not_mem_nil, or_false, not_or] at hc
    simp [skipLineGap, hc]
  | pair _ ih => exact ih
  | white hc _ ih =>
    simp only [List.mem_cons, List.not_mem_nil, or_false] at hc
    rcases hc with rfl | rfl | rfl <;> exact ih

/-- No space stands in an escape, and the characters that stand after a backslash alone start no
other kind of escape and no gap. -/
structure StringKind.Regular (kind : StringKind) : Prop where
  hex : ∀ a b, kind.hex a b = true → a ≠ ' ' ∧ b ≠ ' '
  simple : ∀ c ∈ kind.simple, c ∉ ['x', 'u', ' ', '\n', '\r']

/-- A space is no hexadecimal digit. -/
theorem isHexDigit_ne_space {c : Char} (h : isHexDigit c = true) : c ≠ ' ' := by
  rintro rfl
  revert h
  decide

/-- Text strings are regular. -/
theorem regular_textKind : textKind.Regular where
  hex a b h := by
    simp only [textKind, Bool.and_eq_true, decide_eq_true_eq] at h
    refine ⟨?_, isHexDigit_ne_space h.2⟩
    rintro rfl
    exact absurd h.1.1 (by decide)
  simple := forall_mem_of_all (by decide)

/-- Byte strings are regular. -/
theorem regular_byteKind : byteKind.Regular where
  hex a b h := by
    simp only [byteKind, Bool.and_eq_true] at h
    exact ⟨isHexDigit_ne_space h.1, isHexDigit_ne_space h.2⟩
  simple := forall_mem_of_all (by decide)

/-- Terminated strings are regular. -/
theorem regular_terminatedKind : terminatedKind.Regular where
  hex a b h := by
    simp only [terminatedKind, Bool.and_eq_true] at h
    exact ⟨isHexDigit_ne_space h.1.1, isHexDigit_ne_space h.1.2⟩
  simple := forall_mem_of_all (by decide)

/-- The code point in braces does not depend on what follows it. -/
theorem unicodeDigits?_sound {cs rest : List Char} {value : Nat}
    (h : unicodeDigits? cs = some (value, rest)) :
    ∃ x, cs = x ++ rest ∧ ' ' ∉ x ∧
      ∀ rest', unicodeDigits? (x ++ rest') = some (value, rest') := by
  unfold unicodeDigits? at h
  split at h
  · next cs =>
    have hsplit :=
      List.takeWhile_append_dropWhile (p := fun c => isHexDigit c || c == '_') (l := cs)
    have hall : ∀ c ∈ cs.takeWhile fun c => isHexDigit c || c == '_',
        (isHexDigit c || c == '_') = true := List.all_eq_true.mp List.all_takeWhile
    extract_lets body digits at h
    split at h
    · next rest₁ hdrop =>
      split at h
      · next hvalid =>
        simp only [Option.some.injEq, Prod.mk.injEq] at h
        obtain ⟨hvalue, rfl⟩ := h
        -- the digits end at the closing brace, so they are the same ones before any other rest
        refine ⟨'\x7b' :: (body ++ ['\x7d']), ?_, ?_, fun rest' => ?_⟩
        · rw [← hsplit, hdrop]
          simp [body]
        · have hspace : ' ' ∉ body := fun hmem => absurd (hall _ hmem) (by decide)
          simpa using hspace
        · have htake : (body ++ '\x7d' :: rest').takeWhile (fun c => isHexDigit c || c == '_') =
              body := by
            rw [List.takeWhile_append_of_pos hall, List.takeWhile_cons_of_neg (by decide),
              List.append_nil]
          have hrest : (body ++ '\x7d' :: rest').dropWhile (fun c => isHexDigit c || c == '_') =
              '\x7d' :: rest' := by
            rw [List.dropWhile_append_of_pos hall, List.dropWhile_cons_of_neg (by decide)]
          simp only [unicodeDigits?, List.cons_append, List.append_assoc, List.nil_append, htake,
            hrest]
          rw [← hvalue]
          exact if_pos hvalid
      · cases h
    · cases h
  · cases h

/-- An escape does not depend on what follows it. -/
theorem escape?_sound {kind : StringKind} (hkind : kind.Regular) {cs rest : List Char}
    (h : escape? kind cs = some rest) :
    ∃ c x, cs = c :: x ++ rest ∧ c ∉ ['\n', '\r'] ∧ ' ' ∉ c :: x ∧
      ∀ rest', escape? kind (c :: x ++ rest') = some rest' := by
  unfold escape? at h
  split at h
  · next a b cs =>
    split at h
    · next hhex =>
      cases h
      -- two hexadecimal digits, neither of them a space
      obtain ⟨ha, hb⟩ := hkind.hex a b hhex
      exact ⟨'x', [a, b], rfl, by decide, by simp [ha.symm, hb.symm], fun rest' => if_pos hhex⟩
    · cases h
  · next cs =>
    obtain ⟨⟨value, after⟩, hdigits, hafter⟩ := Option.bind_eq_some_iff.mp h
    dsimp only at hafter
    split at hafter
    · next hunicode =>
      cases hafter
      obtain ⟨x, rfl, hspace, hx⟩ := unicodeDigits?_sound hdigits
      refine ⟨'u', x, rfl, by decide, by simpa using hspace, fun rest' => ?_⟩
      rw [List.cons_append, escape?, hx]
      exact if_pos hunicode
    · cases hafter
  · next c cs _ _ =>
    split at h
    · next hsimple =>
      cases h
      -- one character, which is none of those that start the longer escapes
      have hothers := hkind.simple c (List.contains_iff_mem.mp hsimple)
      simp only [List.mem_cons, List.not_mem_nil, or_false, not_or] at hothers
      refine ⟨c, [], rfl, by simp [hothers], by simp [Ne.symm hothers.2.2.1], fun rest' => ?_⟩
      rw [List.cons_append, List.nil_append, escape?]
      · exact if_pos hsimple
      · exact fun _ _ _ heq _ => hothers.1 heq
      · exact hothers.2.1
    · cases h
  · cases h

/-- What the lexer takes at once inside a string literal with escapes, but for the gap that a
backslash makes at the end of a line. -/
inductive Element (kind : StringKind) : List Char → Prop where
  | pair : Element kind ['\r', '\n']
  | escape {c : Char} {x : List Char} (hc : c ∉ ['\n', '\r']) (hspace : ' ' ∉ c :: x)
      (h : ∀ rest, escape? kind (c :: x ++ rest) = some rest) : Element kind ('\\' :: c :: x)
  | plain {c : Char} (hc : kind.plain c = true) (hne : c ∉ ['"', '\r', '\\']) : Element kind [c]

/-- What stands between the quotes of a string literal with escapes. -/
inductive Body (kind : StringKind) : List Char → Prop where
  | nil : Body kind []
  | element {x body : List Char} (hx : Element kind x) (h : Body kind body) : Body kind (x ++ body)
  | gap {c : Char} {ws body : List Char} (hc : c ∈ ['\n', '\r']) (hws : Gap (c :: ws))
      (hbody : GoesOn (body ++ ['"'])) (h : Body kind body) : Body kind ('\\' :: c :: ws ++ body)

/-- One step takes one element. -/
theorem stringStep_element {kind : StringKind} {x : List Char} (h : Element kind x)
    (rest : List Char) : stringStep kind (x ++ rest) = some (.more rest) := by
  cases h with
  | pair => rfl
  -- An escape is no line break, so the gap's two cases do not apply.
  | escape hc _ h =>
    simp only [List.mem_cons, List.not_mem_nil, or_false, not_or] at hc
    have hrest := h rest
    simp only [List.cons_append] at hrest ⊢
    rw [stringStep, hrest]
    · rfl
    · exact fun _ heq => absurd (List.cons.inj heq).1 hc.1
    · exact fun _ heq => absurd (List.cons.inj heq).1 hc.2
  | plain hc hne =>
    simp only [List.mem_cons, List.not_mem_nil, or_false, not_or] at hne
    simp [stringStep, hne, hc]

/-- One step takes a line break after a backslash, with its gap. -/
theorem stringStep_gap {kind : StringKind} {c : Char} {ws rest : List Char} (hc : c ∈ ['\n', '\r'])
    (hws : Gap (c :: ws)) (hrest : GoesOn rest) :
    stringStep kind ('\\' :: c :: ws ++ rest) = some (.more rest) := by
  have hgap := skipLineGap_complete hws hrest
  simp only [List.mem_cons, List.not_mem_nil, or_false] at hc
  rcases hc with rfl | rfl
  · simp only [List.cons_append] at hgap ⊢
    rw [stringStep, hgap]
    rfl
  · simp only [List.cons_append] at hgap ⊢
    rw [stringStep, hgap]
    rfl

/-- After a backslash at the end of a line, the step takes the gap that goes on there. -/
theorem more_skipLineGap_sound {c : Char} {cs : List Char} {step : BodyStep} (hc : c ∈ ['\n', '\r'])
    (h : (skipLineGap (c :: cs)).map BodyStep.more = some step) :
    ∃ ws rest, c :: cs = c :: ws ++ rest ∧ step = .more rest ∧ Gap (c :: ws) ∧ GoesOn rest := by
  obtain ⟨rest, hskip, rfl⟩ := Option.map_eq_some_iff.mp h
  obtain ⟨ws, heq, hws, hrest⟩ := skipLineGap_sound hskip
  cases ws with
  | nil =>
    -- the end of the line itself is part of the gap
    obtain ⟨d, more, rfl, hd⟩ := hrest
    cases heq
    simp only [List.mem_cons, List.not_mem_nil, or_false, not_or] at hc hd
    rcases hc with rfl | rfl
    · exact absurd rfl hd.2.2.1
    · exact absurd rfl hd.2.2.2
  | cons d ws =>
    cases heq
    exact ⟨ws, rest, rfl, rfl, hws, hrest⟩

/-- A step takes an element, a gap or the closing quote. -/
theorem stringStep_sound {kind : StringKind} (hkind : kind.Regular) {cs : List Char}
    {step : BodyStep} (h : stringStep kind cs = some step) :
    (∃ t, cs = '"' :: t ∧ step = .closed (skipSuffix t)) ∨
      (∃ x rest, cs = x ++ rest ∧ step = .more rest ∧ Element kind x) ∨
        ∃ c ws rest, cs = '\\' :: c :: ws ++ rest ∧ step = .more rest ∧ c ∈ ['\n', '\r'] ∧
          Gap (c :: ws) ∧ GoesOn rest := by
  have hgap : ∀ {c : Char} {cs : List Char}, c ∈ ['\n', '\r'] →
      (skipLineGap (c :: cs)).map BodyStep.more = some step →
      ∃ d ws rest, '\\' :: c :: cs = '\\' :: d :: ws ++ rest ∧ step = .more rest ∧
        d ∈ ['\n', '\r'] ∧ Gap (d :: ws) ∧ GoesOn rest := by
    intro c cs hc hstep
    obtain ⟨ws, rest, heq, rfl, hws, hrest⟩ := more_skipLineGap_sound hc hstep
    exact ⟨c, ws, rest, congrArg ('\\' :: ·) heq, rfl, hc, hws, hrest⟩
  -- the cases are those of the step, in its order; a bare `\r` and the end of the text fail
  unfold stringStep at h
  split at h
  · cases h
    exact .inl ⟨_, rfl, rfl⟩
  · cases h
    exact .inr (.inl ⟨_, _, rfl, rfl, .pair⟩)
  · cases h
  · exact .inr (.inr (hgap (by decide) h))
  · exact .inr (.inr (hgap (by decide) h))
  · obtain ⟨rest, hescape, rfl⟩ := Option.map_eq_some_iff.mp h
    obtain ⟨c, x, rfl, hc, hspace, hx⟩ := escape?_sound hkind hescape
    exact .inr (.inl ⟨'\\' :: c :: x, rest, rfl, rfl, .escape hc hspace hx⟩)
  · next c cs hquote hpair hreturn _ _ hslash =>
    split at h
    · next hplain =>
      cases h
      have hne : c ∉ ['"', '\r', '\\'] := by
        simp only [List.mem_cons, List.not_mem_nil, or_false, not_or]
        exact ⟨hquote, hreturn, hslash⟩
      exact .inr (.inl ⟨[c], cs, rfl, rfl, .plain hplain hne⟩)
    · cases h
  · cases h

/-- What is scanned of a string is its elements, up to the closing quote. -/
theorem scanBody_sound {kind : StringKind} (hkind : kind.Regular) {fuel : Nat} {cs rest : List Char}
    (h : scanBody (stringStep kind) fuel cs = some rest) :
    ∃ body t, cs = body ++ '"' :: t ∧ Body kind body ∧ skipSuffix t = rest := by
  -- Induction on the fuel; the last step closes the body, the others put a piece in front.
  induction fuel generalizing cs with
  | zero => cases h
  | succ fuel ih =>
    rw [scanBody] at h
    split at h
    · next after hstep =>
      cases h
      obtain ⟨t, rfl, heq⟩ | ⟨x, rest, rfl, heq, -⟩ | ⟨c, ws, rest, rfl, heq, -⟩ :=
        stringStep_sound hkind hstep
      · cases heq
        exact ⟨[], t, rfl, .nil, rfl⟩
      · cases heq
      · cases heq
    · next after hstep =>
      obtain ⟨body, t, rfl, hbody, ht⟩ := ih h
      obtain ⟨t', rfl, heq⟩ | ⟨x, rest', rfl, heq, hx⟩ | ⟨c, ws, rest', rfl, heq, hc, hws, hgoes⟩ :=
        stringStep_sound hkind hstep
      · cases heq
      · cases heq
        exact ⟨x ++ body, t, (List.append_assoc _ _ _).symm, .element hx hbody, ht⟩
      · cases heq
        refine ⟨'\\' :: c :: ws ++ body, t, (List.append_assoc _ _ _).symm,
          .gap hc hws ?_ hbody, ht⟩
        -- What the gap skips is followed by the next piece or by the closing quote.
        obtain ⟨d, more, heq, hd⟩ := hgoes
        cases body with
        | nil => exact ⟨'"', [], rfl, by decide⟩
        | cons e body =>
          cases heq
          exact ⟨d, _, rfl, hd⟩
    · cases h

/-- Elements are scanned up to the closing quote. -/
theorem scanBody_complete {kind : StringKind} {body : List Char} (h : Body kind body)
    {fuel : Nat} (hfuel : body.length < fuel) (t : List Char) :
    scanBody (stringStep kind) fuel (body ++ '"' :: t) = some (skipSuffix t) := by
  -- Induction on the body; each piece is taken by one step of the scan.
  induction h generalizing fuel with
  | nil =>
    cases fuel with
    | zero => cases hfuel
    | succ fuel => rfl
  | @element x body hx _ ih =>
    cases fuel with
    | zero => cases hfuel
    | succ fuel =>
      -- A piece is not empty, which is what pays for the step.
      have hpos : 0 < x.length := by cases hx <;> exact Nat.succ_pos _
      rw [List.length_append] at hfuel
      rw [List.append_assoc, scanBody, stringStep_element hx]
      exact ih (by omega)
  | @gap c ws body hc hws hbody _ ih =>
    cases fuel with
    | zero => cases hfuel
    | succ fuel =>
      have hgoes : GoesOn (body ++ '"' :: t) := by
        obtain ⟨d, more, heq, hd⟩ := hbody
        cases body with
        | nil => exact ⟨'"', t, rfl, by decide⟩
        | cons e body =>
          cases heq
          exact ⟨d, _, rfl, hd⟩
      simp only [List.cons_append, List.length_cons, List.length_append] at hfuel
      rw [List.append_assoc, scanBody, stringStep_gap hc hws hgoes]
      exact ih (by omega)

/-- What is taken as a string is a body, a quote and a suffix. -/
theorem string?_sound {kind : StringKind} (hkind : kind.Regular) {cs rest : List Char}
    (h : string? kind cs = some rest) :
    ∃ body s, cs = body ++ '"' :: (s ++ rest) ∧ Body kind body ∧ Suffix s := by
  obtain ⟨body, t, rfl, hbody, ht⟩ := scanBody_sound hkind h
  obtain ⟨s, rfl, hs⟩ := skipSuffix_sound ht
  exact ⟨body, s, rfl, hbody, hs⟩

/-- A body, a quote and a suffix are taken as a string before the end of the token. -/
theorem string?_complete {kind : StringKind} {body s rest : List Char} (hbody : Body kind body)
    (hs : Suffix s) (hrest : EndsToken rest) :
    string? kind (body ++ '"' :: (s ++ rest)) = some rest := by
  rw [string?, scanBody_complete hbody (by rw [List.length_append]; omega),
    skipSuffix_complete hs hrest]

/-! ## Strings without escapes -/

/-- Whether a quote and number signs stand at the start of a text does not depend on what follows a
quote in it. -/
theorem replicate_prefix_append_quote {n : Nat} {cs t : List Char} :
    List.replicate n '#' <+: cs ++ '"' :: t ↔ List.replicate n '#' <+: cs := by
  induction n generalizing cs with
  | zero => simp
  | succ n ih =>
    cases cs with
    | nil => simp [List.replicate_succ]
    | cons c cs => simp [List.replicate_succ, List.cons_prefix_cons, ih]

/-- What stands between the quotes of a string literal without escapes. -/
inductive RawBody (kind : StringKind) (hashes : Nat) : List Char → Prop where
  | nil : RawBody kind hashes []
  | pair {body : List Char} (h : RawBody kind hashes body) :
      RawBody kind hashes ('\r' :: '\n' :: body)
  | plain {c : Char} {body : List Char} (hc : kind.plain c = true) (hne : c ≠ '\r')
      (hopen : c = '"' → ¬List.replicate hashes '#' <+: body) (h : RawBody kind hashes body) :
      RawBody kind hashes (c :: body)

/-- One step in a raw string closes it, or takes a line break or a plain character. -/
theorem rawStep_sound {kind : StringKind} {hashes : Nat} {cs : List Char} {step : BodyStep}
    (h : rawStep kind hashes cs = some step) :
    (∃ t, cs = '"' :: (List.replicate hashes '#' ++ t) ∧ step = .closed (skipSuffix t)) ∨
      (∃ rest, cs = '\r' :: '\n' :: rest ∧ step = .more rest) ∨
        ∃ c rest, cs = c :: rest ∧ step = .more rest ∧ kind.plain c = true ∧ c ≠ '\r' ∧
          (c = '"' → ¬List.replicate hashes '#' <+: rest) := by
  unfold rawStep at h
  split at h
  · cases h
    exact .inr (.inl ⟨_, rfl, rfl⟩)
  · cases h
  · next c cs _ hreturn =>
    split at h
    · next hclose =>
      cases h
      rw [Bool.and_eq_true, beq_iff_eq, List.isPrefixOf_iff_prefix] at hclose
      obtain ⟨rfl, t, rfl⟩ := hclose
      exact .inl ⟨t, rfl, by simp⟩
    -- A quote that is not followed by all its signs belongs to the body.
    · next hopen =>
      split at h
      · next hplain =>
        cases h
        refine .inr (.inr ⟨c, cs, rfl, rfl, hplain, hreturn, fun hquote hstarts => hopen ?_⟩)
        rw [Bool.and_eq_true, beq_iff_eq, List.isPrefixOf_iff_prefix]
        exact ⟨hquote, hstarts⟩
      · cases h
  · cases h

/-- What is scanned of a raw string is its body, up to the closing quote and hashes. -/
theorem scanRaw_sound {kind : StringKind} {hashes fuel : Nat} {cs rest : List Char}
    (h : scanBody (rawStep kind hashes) fuel cs = some rest) :
    ∃ body t, cs = body ++ '"' :: (List.replicate hashes '#' ++ t) ∧ RawBody kind hashes body ∧
      skipSuffix t = rest := by
  -- Induction on the fuel, as for the strings that have escapes.
  induction fuel generalizing cs with
  | zero => cases h
  | succ fuel ih =>
    rw [scanBody] at h
    split at h
    · next after hstep =>
      cases h
      obtain ⟨t, rfl, heq⟩ | ⟨rest, rfl, heq⟩ | ⟨c, rest, rfl, heq, -⟩ := rawStep_sound hstep
      · cases heq
        exact ⟨[], t, rfl, .nil, rfl⟩
      · cases heq
      · cases heq
    · next after hstep =>
      obtain ⟨body, t, rfl, hbody, ht⟩ := ih h
      obtain ⟨t', rfl, heq⟩ | ⟨rest', rfl, heq⟩ | ⟨c, rest', rfl, heq, hc, hne, hopen⟩ :=
        rawStep_sound hstep
      · cases heq
      · cases heq
        exact ⟨'\r' :: '\n' :: body, t, rfl, hbody.pair, ht⟩
      · cases heq
        exact ⟨c :: body, t, rfl,
          hbody.plain hc hne fun hquote => replicate_prefix_append_quote.not.mp (hopen hquote), ht⟩
    · cases h

/-- The body of a raw string is scanned up to the closing quote and hashes. -/
theorem scanRaw_complete {kind : StringKind} {hashes : Nat} {body : List Char}
    (h : RawBody kind hashes body) {fuel : Nat} (hfuel : body.length < fuel) (t : List Char) :
    scanBody (rawStep kind hashes) fuel (body ++ '"' :: (List.replicate hashes '#' ++ t)) =
      some (skipSuffix t) := by
  induction h generalizing fuel with
  | nil =>
    cases fuel with
    | zero => cases hfuel
    | succ fuel => simp [scanBody, rawStep]
  | pair _ ih =>
    cases fuel with
    | zero => cases hfuel
    | succ fuel =>
      simp only [List.length_cons] at hfuel
      exact ih (by omega)
  | @plain c body hc hne hopen _ ih =>
    cases fuel with
    | zero => cases hfuel
    | succ fuel =>
      -- a quote that is followed by too few signs belongs to the body
      have hstay : (c == '"' && (List.replicate hashes '#').isPrefixOf
          (body ++ '"' :: (List.replicate hashes '#' ++ t))) = false := by
        rw [Bool.and_eq_false_imp, beq_iff_eq]
        intro hquote
        rw [Bool.eq_false_iff, ne_eq, List.isPrefixOf_iff_prefix, replicate_prefix_append_quote]
        exact hopen hquote
      have hstep : rawStep kind hashes (c :: (body ++ '"' :: (List.replicate hashes '#' ++ t))) =
          some (.more (body ++ '"' :: (List.replicate hashes '#' ++ t))) := by
        rw [rawStep, hstay, hc]
        · rfl
        · exact fun _ heq _ => hne heq
        · exact hne
      rw [List.cons_append, scanBody, hstep]
      exact ih (Nat.lt_of_succ_lt_succ hfuel)

/-- What is taken as a raw string has as many hashes at its end as at its start. -/
theorem rawString?_sound {kind : StringKind} {cs rest : List Char}
    (h : rawString? kind cs = some rest) :
    ∃ hashes body s, hashes ≤ 255 ∧
      cs = List.replicate hashes '#' ++ '"' :: (body ++ '"' :: (List.replicate hashes '#' ++
        (s ++ rest))) ∧
      RawBody kind hashes body ∧ Suffix s := by
  unfold rawString? at h
  extract_lets hashes at h
  -- The signs in front are counted first, and as many have to close the string.
  have hstart : cs = List.replicate hashes '#' ++ cs.drop hashes := by
    have htake : cs.takeWhile (· == '#') = List.replicate hashes '#' :=
      List.eq_replicate_of_mem fun c hc => by
        simpa using List.all_eq_true.mp (List.all_takeWhile (p := (· == '#')) (l := cs)) c hc
    rw [← htake, List.prefix_iff_eq_take.mp (List.takeWhile_prefix (· == '#')),
      List.take_append_drop]
  split at h
  · next body hdrop =>
    split at h
    · next hbound =>
      obtain ⟨raw, t, rfl, hraw, ht⟩ := scanRaw_sound h
      obtain ⟨s, rfl, hs⟩ := skipSuffix_sound ht
      exact ⟨hashes, raw, s, hbound, by rw [← hdrop, ← hstart], hraw, hs⟩
    · cases h
  · cases h

/-- A body between equal hashes is taken as a raw string. -/
theorem rawString?_complete {kind : StringKind} {hashes : Nat} {body s rest : List Char}
    (hbound : hashes ≤ 255) (hbody : RawBody kind hashes body) (hs : Suffix s)
    (hrest : EndsToken rest) :
    rawString? kind (List.replicate hashes '#' ++ '"' :: (body ++ '"' ::
      (List.replicate hashes '#' ++ (s ++ rest)))) = some rest := by
  have hcount : ∀ t, ((List.replicate hashes '#' ++ '"' :: t).takeWhile (· == '#')).length =
      hashes := by
    intro t
    rw [List.takeWhile_append_of_pos (by simp), List.takeWhile_cons_of_neg (by decide)]
    simp
  rw [rawString?, hcount]
  simp only [List.drop_left', List.length_replicate, hbound, if_true]
  rw [scanRaw_complete hbody (by rw [List.length_append]; omega), skipSuffix_complete hs hrest]

/-! ## Characters -/

/-- What is taken as a character is one character or an escape, and is taken before any other text.
-/
theorem character?_sound {kind : StringKind} (hkind : kind.Regular) {cs rest : List Char}
    (h : character? kind cs = some rest) :
    ∃ x s, cs = x ++ '\'' :: (s ++ rest) ∧ Suffix s ∧ ((∃ c, x = [c]) ∨ ' ' ∉ x) ∧
      ∀ t, character? kind (x ++ '\'' :: t) = some (skipSuffix t) := by
  unfold character? at h
  dsimp only at h
  split at h
  -- Behind a backslash one escape is read, otherwise one plain character.
  · obtain ⟨after, hescape, hafter⟩ := Option.bind_eq_some_iff.mp h
    obtain ⟨c, x, rfl, -, hspace, hx⟩ := escape?_sound hkind hescape
    split at hafter
    · obtain ⟨s, rfl, hs⟩ := skipSuffix_sound (Option.some.inj hafter)
      refine ⟨'\\' :: c :: x, s, rfl, hs, .inr (by simpa using hspace), fun t => ?_⟩
      have htail := hx ('\'' :: t)
      simp only [List.cons_append] at htail ⊢
      simp [character?, htail]
    · cases hafter
  · next c cs hslash =>
    split at h
    · next hplain =>
      dsimp only [Option.bind_eq_bind, Option.bind_some] at h
      split at h
      · obtain ⟨s, rfl, hs⟩ := skipSuffix_sound (Option.some.inj h)
        refine ⟨[c], s, rfl, hs, .inl ⟨c, rfl⟩, fun t => ?_⟩
        rw [List.singleton_append, character?]
        · simp [hplain]
        · exact hslash
      · cases h
    · cases h
  · cases h

/-! ## Dropping a space -/

/-- A gap without one of its spaces is a gap. -/
theorem Gap.drop {a b : List Char} (h : Gap (a ++ ' ' :: b)) : Gap (a ++ b) := by
  -- The blank may stand inside the gap, never as part of its escaped line break.
  generalize hcs : a ++ ' ' :: b = cs at h
  induction h generalizing a with
  | nil => simp at hcs
  | pair _ ih =>
    cases a with
    | nil => cases hcs
    | cons c a =>
      cases a with
      | nil => cases hcs
      | cons d a =>
        simp only [List.cons_append, List.cons.injEq] at hcs
        obtain ⟨rfl, rfl, hcs⟩ := hcs
        exact (ih hcs).pair
  | white hc hws ih =>
    cases a with
    | nil =>
      cases hcs
      exact hws
    | cons d a =>
      simp only [List.cons_append, List.cons.injEq] at hcs
      obtain ⟨rfl, hcs⟩ := hcs
      exact (ih hcs).white hc

/-- A space is an element of its own. -/
theorem Element.eq_nil_of_space {kind : StringKind} {a b : List Char}
    (h : Element kind (a ++ ' ' :: b)) : a = [] ∧ b = [] := by
  -- Only a plain character can be the blank, and it is a piece of its own.
  generalize hcs : a ++ ' ' :: b = cs at h
  cases h with
  | pair =>
    cases a with
    | nil => cases hcs
    | cons d a => cases a <;> simp at hcs
  | escape _ hspace _ =>
    cases a with
    | nil => cases hcs
    | cons d a =>
      obtain ⟨-, hcs⟩ := List.cons.inj hcs
      exact absurd (hcs ▸ List.mem_append_right a List.mem_cons_self) hspace
  | plain =>
    cases a with
    | nil => exact ⟨rfl, (List.cons.inj hcs).2⟩
    | cons d a => simp at hcs

/-- Where a string goes on, it starts with no blank. -/
theorem GoesOn.start_of_space {a b t : List Char} (h : GoesOn (a ++ ' ' :: b ++ t)) :
    ∃ c a', a = c :: a' ∧ c ∉ [' ', '\t', '\n', '\r'] := by
  obtain ⟨c, more, heq, hc⟩ := h
  cases a with
  | nil =>
    cases heq
    exact absurd (by decide) hc
  | cons d a =>
    obtain ⟨rfl, -⟩ := List.cons.inj heq
    exact ⟨d, a, rfl, hc⟩

/-- Without one of its spaces the body of a string literal is still one. -/
theorem Body.drop {kind : StringKind} {a b : List Char} (h : Body kind (a ++ ' ' :: b)) :
    Body kind (a ++ b) := by
  generalize hcs : a ++ ' ' :: b = cs at h
  induction h generalizing a with
  | nil => simp at hcs
  | @element x body hx hbody ih =>
    -- the space is behind the first element, in it, or at the start of what follows
    obtain ⟨a', rfl, rfl⟩ | ⟨y, rfl, hy⟩ := List.append_eq_append_iff.mp hcs.symm
    · rw [List.append_assoc]
      exact .element hx (ih rfl)
    · cases y with
      | nil =>
        rw [List.append_nil] at hx
        exact .element hx (ih (a := []) hy)
      | cons d y =>
        obtain ⟨rfl, rfl⟩ := List.cons.inj hy
        obtain ⟨rfl, rfl⟩ := hx.eq_nil_of_space
        exact hbody
  | @gap c ws body hc hws hbody hrest ih =>
    obtain ⟨a', rfl, rfl⟩ | ⟨y, hy, hy'⟩ := List.append_eq_append_iff.mp hcs.symm
    · obtain ⟨d, a', rfl, hd⟩ := hbody.start_of_space
      rw [List.append_assoc]
      exact .gap hc hws ⟨d, _, rfl, hd⟩ (ih rfl)
    · cases y with
      | nil =>
        obtain rfl : ' ' :: b = body := hy'
        obtain ⟨d, a', heq, -⟩ := GoesOn.start_of_space (a := []) hbody
        cases heq
      | cons d y =>
        obtain ⟨rfl, rfl⟩ := List.cons.inj hy'
        -- the space stands behind the line break that the gap starts with
        cases a with
        | nil => cases hy
        | cons e a =>
          cases a with
          | nil =>
            obtain ⟨-, rfl, -⟩ : '\\' = e ∧ c = ' ' ∧ ws = y := by simpa using hy
            exact absurd hc (by decide)
          | cons e' a =>
            simp only [List.cons_append, List.cons.injEq] at hy
            obtain ⟨rfl, rfl, rfl⟩ := hy
            have hgap : Gap (c :: (a ++ y)) := Gap.drop (a := c :: a) hws
            simpa using Body.gap hc hgap hbody hrest

/-- The characters after which no space is kept. -/
def softAfter : List Char := ['<', '&', ':']

/-- The characters before which no space is kept. -/
def softBefore : List Char := ['<', '>', ',', ':']

/-- A space between `a` and `b` stands beside a sign at which none is kept. -/
def Soft (a b : List Char) : Prop :=
  (∃ c ∈ a.getLast?, c ∈ softAfter) ∨ ∃ c ∈ b.head?, c ∈ softBefore

/-- Dropping a space is soft behind a first character too. -/
theorem Soft.tail {c d : Char} {a b : List Char} (h : Soft (c :: d :: a) b) : Soft (d :: a) b := by
  rwa [Soft, List.getLast?_cons_cons] at h

/-- Number signs that stand in a row without a space stand in a row with it. -/
theorem prefix_of_soft {n : Nat} {c : Char} {a b : List Char} (hc : c ∉ softAfter)
    (hsoft : Soft (c :: a) b) (h : List.replicate n '#' <+: a ++ b) :
    List.replicate n '#' <+: a ++ ' ' :: b := by
  -- Induction on the characters before the blank, none of which can be the last sign.
  induction a generalizing n c with
  | nil =>
    cases n with
    | zero => exact List.nil_prefix
    | succ n =>
      obtain ⟨t, rfl⟩ := h
      rcases hsoft with ⟨d, hd, hmem⟩ | ⟨d, hd, hmem⟩
      · cases hd
        exact absurd hmem hc
      · cases hd
        exact absurd hmem (by decide)
  | cons d a ih =>
    cases n with
    | zero => exact List.nil_prefix
    | succ n =>
      rw [List.replicate_succ, List.cons_append, List.cons_prefix_cons] at h ⊢
      obtain ⟨rfl, h⟩ := h
      exact ⟨rfl, ih (by decide) hsoft.tail h⟩

/-- Without a space beside such a sign the body of a string literal without escapes is still one. -/
theorem RawBody.drop {kind : StringKind} {n : Nat} {c : Char} {a b : List Char}
    (h : RawBody kind n (a ++ ' ' :: b)) (hsoft : Soft (c :: a) b) : RawBody kind n (a ++ b) := by
  -- The blank is a plain character; without it the closing sign is still no nearer.
  generalize hcs : a ++ ' ' :: b = cs at h
  induction h generalizing a c with
  | nil => simp at hcs
  | pair _ ih =>
    cases a with
    | nil => cases hcs
    | cons d a =>
      cases a with
      | nil => cases hcs
      | cons e a =>
        simp only [List.cons_append, List.cons.injEq] at hcs
        obtain ⟨rfl, rfl, hcs⟩ := hcs
        exact (ih hsoft.tail.tail hcs).pair
  | plain hc hne hopen hbody ih =>
    cases a with
    | nil =>
      cases hcs
      exact hbody
    | cons d a =>
      simp only [List.cons_append, List.cons.injEq] at hcs
      obtain ⟨rfl, rfl⟩ := hcs
      refine (ih hsoft.tail rfl).plain hc hne fun hquote hstarts => hopen hquote ?_
      exact prefix_of_soft (by rw [hquote]; decide) hsoft.tail hstarts

end Memberwise.Token
