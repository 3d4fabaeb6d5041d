import Memberwise.Proofs.NumberLiterals

/-!
# Memberwise.Proofs.LiteralText — the texts of literals

Which texts are literals: what the lexer takes as a literal has one of these forms
(`literal?_sound`), and a text of such a form is taken as a literal before anything that ends a
token (`literal?_complete`). A literal keeps its form where a space inside it is dropped beside a
sign at which no space is kept.
-/

namespace Memberwise.Token

open Text

/-! ## Forms of literals -/

/-- How the literals of a kind of text start. -/
inductive Opening : List Char → StringKind → Prop where
  | text : Opening [] textKind
  | bytes : Opening ['b'] byteKind
  | terminated : Opening ['c'] terminatedKind

theorem Opening.regular {p : List Char} {kind : StringKind} (h : Opening p kind) :
    kind.Regular := by
  cases h with
  | text => exact regular_textKind
  | bytes => exact regular_byteKind
  | terminated => exact regular_terminatedKind

/-- The texts that are literals. -/
inductive LiteralText : List Char → Prop where
  | string {p body s : List Char} {kind : StringKind} (hp : Opening p kind) (hbody : Body kind body)
      (hs : Suffix s) : LiteralText (p ++ '"' :: (body ++ '"' :: s))
  | raw {p body s : List Char} {kind : StringKind} {n : Nat} (hp : Opening p kind) (hn : n ≤ 255)
      (hbody : RawBody kind n body) (hs : Suffix s) :
      LiteralText (p ++ 'r' :: (List.replicate n '#' ++ '"' :: (body ++ '"' ::
        (List.replicate n '#' ++ s))))
  | character {p x s : List Char} {kind : StringKind} (hp : Opening p kind)
      (hkind : p ∈ [[], ['b']]) (hx : (∃ c, x = [c]) ∨ ' ' ∉ x) (hs : Suffix s)
      (h : ∀ t, character? kind (x ++ '\'' :: t) = some (skipSuffix t)) :
      LiteralText (p ++ '\'' :: (x ++ '\'' :: s))
  | number {text : List Char} (h : NumberText number? text) : LiteralText text

theorem literal?_digit {d : Char} (h : d.isDigit = true) (cs : List Char) :
    literal? (d :: cs) = number? (d :: cs) := by
  have hquotes : ∀ c ∈ ['"', '\'', 'r', 'b', 'c'], c.isDigit = false :=
    forall_mem_of_all (by decide)
  have hne : ∀ c ∈ ['"', '\'', 'r', 'b', 'c'], d ≠ c := fun c hc => ne_of_class h (hquotes c hc)
  unfold literal?
  split
  case h_9 => rfl
  -- all other cases start with a quote or a letter
  all_goals next heq => exact absurd (List.cons.inj heq).1 (hne _ (by decide))

/-- What is taken as a literal has the form of one. -/
theorem literal?_sound {cs rest : List Char} (h : literal? cs = some rest) :
    ∃ text, cs = text ++ rest ∧ LiteralText text := by
  have hquoted : ∀ {p cs : List Char} {kind : StringKind}, Opening p kind →
      string? kind cs = some rest →
      ∃ text, p ++ '"' :: cs = text ++ rest ∧ LiteralText text := by
    intro p cs kind hp hstring
    obtain ⟨body, s, rfl, hbody, hs⟩ := string?_sound hp.regular hstring
    exact ⟨_, by simp, .string hp hbody hs⟩
  have hraw : ∀ {p cs : List Char} {kind : StringKind}, Opening p kind →
      rawString? kind cs = some rest →
      ∃ text, p ++ 'r' :: cs = text ++ rest ∧ LiteralText text := by
    intro p cs kind hp hstring
    obtain ⟨n, body, s, hn, rfl, hbody, hs⟩ := rawString?_sound hstring
    exact ⟨_, by simp, .raw hp hn hbody hs⟩
  have hcharacter : ∀ {p cs : List Char} {kind : StringKind}, Opening p kind → p ∈ [[], ['b']] →
      character? kind cs = some rest →
      ∃ text, p ++ '\'' :: cs = text ++ rest ∧ LiteralText text := by
    intro p cs kind hp hkind hread
    obtain ⟨x, s, rfl, hs, hx, hagain⟩ := character?_sound hp.regular hread
    exact ⟨_, by simp, .character hp hkind hx hs hagain⟩
  -- numbers are tried last, and nothing that starts with a quote or a letter is one
  have hfirst : ∀ {c : Char} {cs : List Char} {r : Option (List Char)}, c.isDigit = false →
      (r <|> (floatDigits? (c :: cs) >>= numberEnd?) <|> (intDigits? (c :: cs) >>= numberEnd?)) =
        some rest → r = some rest := by
    intro c cs r hc hread
    rw [floatDigits?_eq_none hc, intDigits?_eq_none hc] at hread
    cases r with
    | none => cases hread
    | some after => exact hread
  unfold literal? at h
  split at h
  · exact hquoted .text (hfirst (by decide) h)
  · exact hraw .text (hfirst (by decide) h)
  · exact hquoted .bytes (hfirst (by decide) h)
  · exact hraw .bytes (hfirst (by decide) h)
  · exact hquoted .terminated (hfirst (by decide) h)
  · exact hraw .terminated (hfirst (by decide) h)
  · exact hcharacter .bytes (by decide) (hfirst (by decide) h)
  · exact hcharacter .text (by decide) (hfirst (by decide) h)
  · obtain ⟨text, rfl, htext⟩ := number?_sound h
    exact ⟨text, rfl, .number htext⟩

/-- A text with the form of a literal is taken as one. -/
theorem literal?_complete {text rest : List Char} (h : LiteralText text) (hrest : EndsToken rest) :
    literal? (text ++ rest) = some rest := by
  have hor : ∀ {a b : Option (List Char)} {r : List Char}, a = some r → (a <|> b) = some r := by
    rintro a b r rfl
    rfl
  -- The alternatives are tried in this order, and the first reader that fits takes the text.
  cases h with
  | string hp hbody hs =>
    have hread := string?_complete hbody hs hrest
    rw [List.append_assoc, List.cons_append, List.append_assoc, List.cons_append]
    cases hp <;> exact hor hread
  | raw hp hn hbody hs =>
    have hread := rawString?_complete hn hbody hs hrest
    simp only [List.append_assoc, List.cons_append]
    cases hp <;> exact hor hread
  | @character p x s kind hp hkind hx hs h =>
    have hread := h (s ++ rest)
    rw [skipSuffix_complete hs hrest] at hread
    rw [List.append_assoc, List.cons_append, List.append_assoc, List.cons_append]
    cases hp with
    | text => exact hor hread
    | bytes => exact hor hread
    -- No prefix of a character literal asks for a terminated string.
    | terminated => exact absurd hkind (by decide)
  | number h =>
    have hagain := h.again rest hrest
    obtain ⟨d, ds, rfl, hd⟩ := h.start
    rw [List.cons_append] at hagain ⊢
    rw [literal?_digit hd, hagain]

/-! ## Ends of literals -/

/-- The characters of the words that are replaced where printed tokens are drawn together. -/
def spacing : List Char := [' ', ':', '<', '>', ',', '&']

theorem isIdentContinue_of_spacing : ∀ c ∈ spacing, isIdentContinue c = false :=
  forall_mem_of_all (by decide)

/-- A literal starts with a quote, one of three letters or a digit. -/
theorem LiteralText.start {text : List Char} (h : LiteralText text) :
    ∃ c cs, text = c :: cs ∧ (c ∈ ['"', '\'', 'r', 'b', 'c'] ∨ c.isDigit = true) := by
  cases h with
  | string hp => cases hp <;> exact ⟨_, _, rfl, .inl (by decide)⟩
  | raw hp => cases hp <;> exact ⟨_, _, rfl, .inl (by decide)⟩
  | character hp hkind =>
    cases hp with
    | text => exact ⟨_, _, rfl, .inl (by decide)⟩
    | bytes => exact ⟨_, _, rfl, .inl (by decide)⟩
    | terminated => exact absurd hkind (by decide)
  | number h =>
    obtain ⟨d, ds, rfl, hd⟩ := h.start
    exact ⟨d, ds, rfl, .inr hd⟩

theorem ends_of_suffix {text s : List Char} (c : Char) (hc : c ∉ spacing) (h : c :: s <:+ text)
    (hs : Suffix s) : ∀ d ∈ text.getLast?, d ∉ spacing := by
  obtain ⟨x, rfl⟩ := h
  intro d hd hmem
  rw [List.getLast?_append, List.getLast?_cons, Option.some_or] at hd
  have hlast := List.mem_of_getLast? (List.getLast?_cons.trans hd)
  rcases List.mem_cons.mp hlast with rfl | hd
  · exact hc hmem
  · have hcontinue := hs.isIdentContinue d hd
    rw [isIdentContinue_of_spacing d hmem] at hcontinue
    cases hcontinue

/-- The last character of a literal is no space and no sign at which spaces are dropped. -/
theorem LiteralText.ends {text : List Char} (h : LiteralText text) :
    ∀ c ∈ text.getLast?, c ∉ spacing := by
  -- A literal ends in its suffix or, without one, in its closing sign.
  cases h with
  | @string p body s kind hp hbody hs =>
    exact ends_of_suffix '"' (by decide) ⟨p ++ '"' :: body, by simp⟩ hs
  | @raw p body s kind n hp hn hbody hs =>
    cases n with
    | zero => exact ends_of_suffix '"' (by decide) ⟨p ++ 'r' :: '"' :: body, by simp⟩ hs
    | succ n =>
      refine ends_of_suffix '#' (by decide) ⟨p ++ 'r' :: (List.replicate (n + 1) '#' ++ '"' ::
        (body ++ '"' :: List.replicate n '#')), ?_⟩ hs
      simp [List.replicate_succ']
  | @character p x s kind hp hkind hx hs h =>
    exact ends_of_suffix '\'' (by decide) ⟨p ++ '\'' :: x, by simp⟩ hs
  | number h =>
    intro c hc hmem
    have hnot : ∀ c ∈ spacing, isNumberChar c = false := forall_mem_of_all (by decide)
    have hchar := h.chars c (List.mem_of_getLast? hc)
    rw [hnot c hmem] at hchar
    cases hchar

/-! ## Dropping a space -/

/-- A space between two parts without spaces. -/
theorem exists_between {p body q u v : List Char} (h : u ++ ' ' :: v = p ++ (body ++ q))
    (hp : ' ' ∉ p) (hq : ' ' ∉ q) : ∃ a b, body = a ++ ' ' :: b ∧ u = p ++ a ∧ v = b ++ q := by
  induction p generalizing u with
  -- The blank lies in the body, as neither the prefix nor what follows the body has one.
  | nil =>
    rw [List.nil_append] at h
    obtain ⟨b, rfl, hb⟩ | ⟨z, -, rfl⟩ := List.append_eq_append_iff.mp h
    · cases b with
      | nil =>
        obtain rfl : ' ' :: v = q := hb
        exact absurd List.mem_cons_self hq
      | cons c b =>
        obtain ⟨rfl, rfl⟩ := List.cons.inj hb
        exact ⟨u, b, rfl, rfl, rfl⟩
    · exact absurd (by simp) hq
  | cons c p ih =>
    obtain ⟨hc, hmore⟩ := not_or.mp (List.mem_cons.not.mp hp)
    cases u with
    | nil => exact absurd (List.cons.inj h).1 hc
    | cons d u =>
      obtain ⟨rfl, heq⟩ := List.cons.inj h
      obtain ⟨a, b, rfl, rfl, rfl⟩ := ih heq hmore
      exact ⟨a, b, rfl, rfl, rfl⟩

theorem Suffix.notMem_space {s : List Char} (h : Suffix s) : ' ' ∉ s := by
  intro hmem
  exact absurd (h.isIdentContinue _ hmem) (by decide)

theorem Opening.notMem_space {p : List Char} {kind : StringKind} (h : Opening p kind) :
    ' ' ∉ p := by
  cases h <;> decide

/-- What stands outside quotes is no sign at which spaces are dropped. -/
theorem Soft.of_quoted {p a b t : List Char} {c d : Char}
    (h : Soft (p ++ c :: a) (b ++ d :: t)) (hd : d ∉ softBefore) : Soft (c :: a) b := by
  rcases h with ⟨e, he, hmem⟩ | ⟨e, he, hmem⟩
  · rw [List.getLast?_append, List.getLast?_cons, Option.some_or, ← List.getLast?_cons] at he
    exact .inl ⟨e, he, hmem⟩
  · cases b with
    | nil =>
      cases he
      exact absurd hmem hd
    | cons f b => exact .inr ⟨e, he, hmem⟩

/-- A literal without a space beside a sign at which none is kept is still one. -/
theorem LiteralText.drop {u v : List Char} (h : LiteralText (u ++ ' ' :: v)) (hsoft : Soft u v) :
    LiteralText (u ++ v) := by
  generalize hcs : u ++ ' ' :: v = cs at h
  cases h with
  | @string p body s kind hp hbody hs =>
    have hstart : ' ' ∉ p ++ ['"'] := by simp [hp.notMem_space]
    have hend : ' ' ∉ '"' :: s := by simp [hs.notMem_space]
    obtain ⟨a, b, rfl, rfl, rfl⟩ := exists_between (by simpa using hcs) hstart hend
    have hliteral := LiteralText.string hp hbody.drop hs
    simpa using hliteral
  | @raw p body s kind n hp hn hbody hs =>
    have hstart : ' ' ∉ p ++ 'r' :: (List.replicate n '#' ++ ['"']) := by
      simp [hp.notMem_space]
    have hend : ' ' ∉ '"' :: (List.replicate n '#' ++ s) := by simp [hs.notMem_space]
    obtain ⟨a, b, rfl, rfl, rfl⟩ := exists_between (by simpa using hcs) hstart hend
    have hquoted : Soft ('"' :: a) b := by
      have haround : Soft ((p ++ 'r' :: List.replicate n '#') ++ '"' :: a)
          (b ++ '"' :: (List.replicate n '#' ++ s)) := by simpa using hsoft
      exact haround.of_quoted (by decide)
    have hliteral := LiteralText.raw hp hn (hbody.drop hquoted) hs
    simpa using hliteral
  | @character p x s kind hp hkind hx hs h =>
    have hstart : ' ' ∉ p ++ ['\''] := by simp [hp.notMem_space]
    have hend : ' ' ∉ '\'' :: s := by simp [hs.notMem_space]
    obtain ⟨a, b, rfl, rfl, rfl⟩ := exists_between (by simpa using hcs) hstart hend
    -- the space is the whole character, and so stands between apostrophes
    exfalso
    obtain ⟨rfl, rfl⟩ : a = [] ∧ b = [] := by
      rcases hx with ⟨c, hc⟩ | hspace
      · cases a with
        | nil => exact ⟨rfl, (List.cons.inj hc).2⟩
        | cons d a => simp at hc
      · exact absurd (by simp) hspace
    rcases hsoft with ⟨c, hc, hmem⟩ | ⟨c, hc, hmem⟩
    · rw [List.append_nil, List.getLast?_append] at hc
      cases hc
      exact absurd hmem (by decide)
    · cases hc
      exact absurd hmem (by decide)
  | number h =>
    have hspace := h.chars ' ' (by simp [← hcs])
    exact absurd hspace (by decide)

/-- The texts of literals are those that the lexer takes whole. -/
theorem literalText_iff {text : List Char} : LiteralText text ↔ literal? text = some [] := by
  constructor
  · intro h
    have hread := literal?_complete h EndsToken.nil
    rwa [List.append_nil] at hread
  · intro h
    obtain ⟨text', heq, htext⟩ := literal?_sound h
    rwa [heq, List.append_nil]

instance : DecidablePred LiteralText := fun _ => decidable_of_iff' _ literalText_iff

/-! ## Literals as tokens -/

theorem stays_of_isDigit {c : Char} (h : c.isDigit = true) :
    Stays c ∧ opens? c = none ∧ closes? c = none := by
  have hothers : ∀ d ∈ ['(', '[', '\x7b', ')', ']', '\x7d', '/'], d.isDigit = false :=
    forall_mem_of_all (by decide)
  have hne : ∀ d ∈ ['(', '[', '\x7b', ')', ']', '\x7d', '/'], c ≠ d :=
    fun d hd => ne_of_class h (hothers d hd)
  -- A space starts and continues no word, but a digit continues one.
  have hspace : isSpace c = false := by
    rw [Bool.eq_false_iff]
    intro hspace
    obtain ⟨hstart, hextra, -, -⟩ := has_eq_false_of_isSpace hspace
    have hcontinue := isIdentContinue_of_isDigit h
    rw [isIdentContinue, hstart, hextra] at hcontinue
    cases hcontinue
  refine ⟨⟨hspace, hne _ (by decide)⟩, ?_, ?_⟩
  · simp [opens?, hne '(' (by decide), hne '[' (by decide), hne '\x7b' (by decide)]
  · simp [closes?, hne ')' (by decide), hne ']' (by decide), hne '\x7d' (by decide)]

/-- A literal is a token. -/
theorem Lexes.literal {text : String} (h : LiteralText text.toList) {rest : List Char}
    (hrest : EndsToken rest) : Lexes text.toList [.literal text] rest := by
  obtain ⟨c, cs, htext, hc⟩ := h.start
  -- A literal starts with a quote, a letter of its kind or a digit.
  have hstays : Stays c ∧ opens? c = none ∧ closes? c = none := by
    rcases hc with hc | hc
    · have hfacts : ∀ d ∈ ['"', '\'', 'r', 'b', 'c'], isSpace d = false ∧ d ≠ '/' ∧
          opens? d = none ∧ closes? d = none := forall_mem_of_all (by decide +kernel)
      obtain ⟨hspace, hslash, hothers⟩ := hfacts c hc
      exact ⟨⟨hspace, hslash⟩, hothers⟩
    · exact stays_of_isDigit hc
  have hliteral := literal?_complete h hrest
  have hbefore := before_append text.toList rest
  rw [htext] at hliteral hbefore ⊢
  refine Lexes.leaf hstays.1 hstays.2.1 hstays.2.2 ?_
  simp only [leaf?, hliteral, hbefore]
  rw [← htext, String.ofList_toList]

end Memberwise.Token
