import Memberwise.Proofs.ArtifactText
import Memberwise.Token.StringValue

/-!
# Memberwise.Proofs.Literals — the names in an artifact denote the names of members

A member is known to the generated code by the string literals in its row of the table and in the
condition of its branch. Such a literal writes one character after another, as it is or as an escape
(`Encodes`), and each is read back by itself: by the lexer, which goes on to the next one
(`Encodes.stringStep`), and for the value of the literal (`Encodes.bodyValue?`). So the lexer takes
the literal to its closing quote and no further, whatever line it stands in, and its value is the
name (`leaf?_quote`, `stringValue?_quote`).
-/

namespace Memberwise

open Text Token

/-! ## Code points in braces -/

/-- A digit is read back as its value. -/
theorem digitChar_facts : ∀ d < 16, isHexDigit (Nat.digitChar d) = true ∧
    Nat.digitChar d ≠ '_' ∧ hexValue (Nat.digitChar d) = d := by decide

/-- The digits of a number are hexadecimal digits. -/
theorem toDigits_facts {n : Nat} {c : Char} (h : c ∈ Nat.toDigits 16 n) :
    isHexDigit c = true ∧ c ≠ '_' := by
  obtain ⟨d, hd, rfl⟩ := exists_of_mem_toDigits h
  exact ⟨(digitChar_facts d hd).1, (digitChar_facts d hd).2.1⟩

/-- The digits of a number have its value. -/
theorem foldl_hexValue_toDigits (n : Nat) :
    (Nat.toDigits 16 n).foldl (fun m c => m * 16 + hexValue c) 0 = n := by
  induction n using Nat.strongRecOn with
  | ind n ih =>
    by_cases hsmall : n < 16
    · rw [Nat.toDigits_of_lt_base hsmall, List.foldl_cons, List.foldl_nil,
        (digitChar_facts n hsmall).2.2, Nat.zero_mul, Nat.zero_add]
    · rw [Nat.toDigits_of_base_le (by omega) (by omega), List.foldl_append, ih (n / 16) (by omega),
        List.foldl_cons, List.foldl_nil, (digitChar_facts _ (Nat.mod_lt n (by omega))).2.2]
      omega

/-- A code point is no half of a surrogate pair. -/
theorem toNat_scalar (c : Char) :
    c.toNat < 0xD800 ∨ 0xDFFF < c.toNat ∧ c.toNat < 0x110000 := c.valid

/-- The digits of a character in braces are read as its code point. -/
theorem unicodeDigits?_toDigits (c : Char) (rest : List Char) :
    unicodeDigits? ('\x7b' :: (Nat.toDigits 16 c.toNat ++ '\x7d' :: rest)) =
      some (c.toNat, rest) := by
  have hdigits : ∀ d ∈ Nat.toDigits 16 c.toNat, (isHexDigit d || d == '_') = true :=
    fun d hd => by rw [(toDigits_facts hd).1, Bool.true_or]
  have htake : (Nat.toDigits 16 c.toNat ++ '\x7d' :: rest).takeWhile
      (fun d => isHexDigit d || d == '_') = Nat.toDigits 16 c.toNat := by
    rw [List.takeWhile_append_of_pos hdigits, List.takeWhile_cons_of_neg (by decide),
      List.append_nil]
  have hdrop : (Nat.toDigits 16 c.toNat ++ '\x7d' :: rest).dropWhile
      (fun d => isHexDigit d || d == '_') = '\x7d' :: rest := by
    rw [List.dropWhile_append_of_pos hdigits, List.dropWhile_cons_of_neg (by decide)]
  have hfilter : (Nat.toDigits 16 c.toNat).filter (· != '_') = Nat.toDigits 16 c.toNat :=
    List.filter_eq_self.mpr fun d hd => bne_iff_ne.mpr (toDigits_facts hd).2
  have hhead : (Nat.toDigits 16 c.toNat).head? ≠ some '_' :=
    fun heq => (toDigits_facts (List.mem_of_mem_head? heq)).2 rfl
  -- The largest scalar value has six hexadecimal digits, which is all an escape may have.
  have hlength : (Nat.toDigits 16 c.toNat).length ≤ 6 := by
    rw [Nat.length_toDigits_le_iff (by omega) (by omega)]
    have hbound := toNat_scalar c
    omega
  have hscalar : isScalar c.toNat = true := by simpa [isScalar] using toNat_scalar c
  simp [unicodeDigits?, htake, hdrop, hfilter, foldl_hexValue_toDigits, hscalar, hhead, hlength,
    Nat.toDigits_ne_nil]

/-! ## One character -/

/-- How a character can stand in a literal: after a backslash, as itself, or by its code point. -/
inductive Encodes (c : Char) : List Char → Prop where
  | simple {e : Char} (hsimple : e ∈ textKind.simple)
      (hvalue : ∀ rest, escapeValue? (e :: rest) = some (c, rest)) : Encodes c ['\\', e]
  | plain (hplain : c ∉ ['"', '\\', '\r', '\n']) : Encodes c [c]
  | unicode : Encodes c (unicodeEscape c)

/-- Every character is escaped by something that stands for it. -/
theorem encodes_escapeChar (c : Char) : Encodes c (escapeChar c) := by
  unfold escapeChar
  split
  case h_7 c _ _ hreturn hbreak hslash hquote =>
    split
    · exact .plain (by simpa using ⟨hquote, hslash, hreturn, hbreak⟩)
    · exact .unicode
  all_goals exact .simple (by decide) fun _ => rfl

/-- No short escape is a line break. -/
theorem simple_ne_break {e : Char} (h : e ∈ textKind.simple) : e ≠ '\n' ∧ e ≠ '\r' := by
  simp only [textKind, List.mem_cons, List.not_mem_nil, or_false] at h
  rcases h with rfl | rfl | rfl | rfl | rfl | rfl | rfl <;> decide

/-- The digits of an escape stand between its braces, whatever follows. -/
theorem unicodeEscape_append (c : Char) (rest : List Char) :
    unicodeEscape c ++ rest =
      '\\' :: 'u' :: '\x7b' :: (Nat.toDigits 16 c.toNat ++ '\x7d' :: rest) := by
  simp [unicodeEscape]

/-- A character of the name is one element of the literal for the lexer. -/
theorem Encodes.stringStep {c : Char} {cs : List Char} (h : Encodes c cs) (rest : List Char) :
    Token.stringStep textKind (cs ++ rest) = some (.more rest) := by
  cases h with
  | simple hsimple =>
    simp only [textKind, List.mem_cons, List.not_mem_nil, or_false] at hsimple
    rcases hsimple with rfl | rfl | rfl | rfl | rfl | rfl | rfl <;> rfl
  | plain hplain =>
    simp only [List.mem_cons, List.not_mem_nil, or_false, not_or] at hplain
    simp [Token.stringStep, hplain, textKind]
  | unicode =>
    rw [unicodeEscape_append]
    simp [Token.stringStep, escape?, unicodeDigits?_toDigits, textKind]

/-- A character of the name is one character of the value of the literal. -/
theorem Encodes.bodyValue? {c : Char} {cs : List Char} (h : Encodes c cs) (fuel : Nat)
    (rest : List Char) :
    Token.bodyValue? (fuel + 1) (cs ++ rest) = (c :: ·) <$> Token.bodyValue? fuel rest := by
  cases h with
  | simple hsimple hvalue =>
    simp [Token.bodyValue?, simple_ne_break hsimple, hvalue, Option.map_eq_bind]
  | plain hplain =>
    simp only [List.mem_cons, List.not_mem_nil, or_false, not_or] at hplain
    simp [Token.bodyValue?, hplain]
  | unicode =>
    rw [unicodeEscape_append]
    simp [Token.bodyValue?, escapeValue?, unicodeDigits?_toDigits, Char.ofNat_toNat,
      Option.map_eq_bind]

/-- Whether no line break stands in the body of a literal, and quotes and backslashes only after the
backslash of an escape, or as that backslash. -/
def isEscaped : List Char → Bool
  | '\\' :: c :: cs => c != '\n' && c != '\r' && isEscaped cs
  | c :: cs => !(['"', '\\', '\r', '\n'].contains c) && isEscaped cs
  | [] => true

/-- Plain characters in front leave what follows escaped or not. -/
theorem isEscaped_append {cs : List Char} (h : ∀ c ∈ cs, c ∉ ['"', '\\', '\r', '\n'])
    (rest : List Char) : isEscaped (cs ++ rest) = isEscaped rest := by
  induction cs with
  | nil => rfl
  | cons c cs ih =>
    obtain ⟨hc, hcs⟩ := List.forall_mem_cons.mp h
    have hslash : c ≠ '\\' := fun heq => hc (by simp [heq])
    rw [List.cons_append, isEscaped, ih hcs]
    · simp [hc]
    · exact fun _ _ heq => absurd heq hslash

/-- What stands for a character leaves what follows escaped or not. -/
theorem Encodes.isEscaped {c : Char} {cs : List Char} (h : Encodes c cs) (rest : List Char) :
    isEscaped (cs ++ rest) = isEscaped rest := by
  cases h with
  | simple hsimple =>
    simp [Memberwise.isEscaped, simple_ne_break hsimple]
  | plain hplain => exact isEscaped_append (by simpa using hplain) rest
  | unicode =>
    -- No digit of the escape is a quote, a backslash or a line break.
    have hdigit : ∀ d < 16, Nat.digitChar d ∉ ['"', '\\', '\r', '\n'] := by decide
    have hdigits : ∀ d ∈ Nat.toDigits 16 c.toNat ++ ['\x7d'], d ∉ ['"', '\\', '\r', '\n'] := by
      intro d hd
      rcases List.mem_append.mp hd with hd | hd
      · obtain ⟨n, hn, rfl⟩ := exists_of_mem_toDigits hd
        exact hdigit n hn
      · rw [List.mem_singleton.mp hd]
        decide
    have hbody := isEscaped_append hdigits rest
    rw [List.append_assoc, List.singleton_append] at hbody
    rw [unicodeEscape_append]
    exact hbody

/-! ## Whole literals -/

/-- What stands between the quotes of the literal of a name. -/
def literalBody (name : String) : List Char := name.toList.flatMap escapeChar

/-- A literal is its body between quotes. -/
theorem toList_quote (name : String) :
    (quote name).toList = '"' :: (literalBody name ++ ['"']) := by
  simp [quote, literalBody]

/-- The body of a literal is escaped throughout. -/
theorem isEscaped_literalBody (name : String) : isEscaped (literalBody name) = true := by
  rw [literalBody]
  induction name.toList with
  | nil => rfl
  | cons c cs ih => rw [List.flatMap_cons, (encodes_escapeChar c).isEscaped, ih]

/-- Nothing is written for no character. -/
theorem Encodes.length_pos {c : Char} {cs : List Char} (h : Encodes c cs) : 0 < cs.length := by
  cases h with
  | simple => exact Nat.succ_pos _
  | plain => exact Nat.succ_pos _
  | unicode => exact Nat.succ_pos _

/-- Escaping makes no text shorter. -/
theorem length_le_literalBody (cs : List Char) :
    cs.length ≤ (cs.flatMap escapeChar).length := by
  induction cs with
  | nil => exact Nat.le_refl 0
  | cons c cs ih =>
    have hpos := (encodes_escapeChar c).length_pos
    rw [List.flatMap_cons, List.length_append, List.length_cons]
    omega

/-- The lexer goes through the characters of a name, one in each round, to the closing quote. -/
theorem scanBody_escaped {cs : List Char} {fuel : Nat} (h : cs.length < fuel) (rest : List Char) :
    scanBody (stringStep textKind) fuel (cs.flatMap escapeChar ++ '"' :: rest) =
      some (skipSuffix rest) := by
  -- Induction on the characters; each is escaped into one piece of the body.
  induction cs generalizing fuel with
  | nil =>
    cases fuel with
    | zero => cases h
    | succ fuel => rfl
  | cons c cs ih =>
    cases fuel with
    | zero => cases h
    | succ fuel =>
      rw [List.flatMap_cons, List.append_assoc, scanBody, (encodes_escapeChar c).stringStep]
      exact ih (Nat.lt_of_succ_lt_succ h)

/-- The value is put together from the characters of a name, one in each round. -/
theorem bodyValue?_escaped {cs : List Char} {fuel : Nat} (h : cs.length < fuel) (rest : List Char) :
    bodyValue? fuel (cs.flatMap escapeChar ++ '"' :: rest) = some cs := by
  induction cs generalizing fuel with
  | nil =>
    cases fuel with
    | zero => cases h
    | succ fuel => rfl
  | cons c cs ih =>
    cases fuel with
    | zero => cases h
    | succ fuel =>
      rw [List.flatMap_cons, List.append_assoc, (encodes_escapeChar c).bodyValue?,
        ih (Nat.lt_of_succ_lt_succ h)]
      rfl

/-- Where no word starts, no suffix is passed over. -/
theorem skipSuffix_of_head? {cs : List Char} (h : ∀ c ∈ cs.head?, isIdentStart c = false) :
    skipSuffix cs = cs := by
  cases cs with
  | nil => rfl
  | cons c cs => simp [skipSuffix, word?, h c rfl]

/-- The literal of a name is one token, whatever stands after it that is no suffix. -/
theorem leaf?_quote (name : String) {rest : List Char}
    (hrest : ∀ c ∈ rest.head?, isIdentStart c = false) :
    leaf? ((quote name).toList ++ rest) = some (.literal (quote name), rest) := by
  have hstring : string? textKind (literalBody name ++ '"' :: rest) = some rest := by
    have hlength := length_le_literalBody name.toList
    rw [string?, literalBody, scanBody_escaped (by rw [List.length_append]; omega),
      skipSuffix_of_head? hrest]
  have hliteral : literal? ((quote name).toList ++ rest) = some rest := by
    rw [toList_quote, List.cons_append, List.append_assoc, List.singleton_append]
    simp [literal?, hstring]
  rw [leaf?.eq_def, hliteral]
  simp only [before_append, String.ofList_toList]

/-- The literal of a name stands for it. -/
theorem stringValue?_quote (name : String) : stringValue? (quote name) = some name := by
  have hlength := length_le_literalBody name.toList
  have hbody : bodyValue? ((literalBody name ++ ['"']).length + 1) (literalBody name ++ ['"']) =
      some name.toList := by
    rw [literalBody]
    exact bodyValue?_escaped (by rw [List.length_append]; omega) []
  simp only [stringValue?, toList_quote, hbody, Option.map_eq_map, Option.map_some,
    String.ofList_toList]

/-! ## The lines of an artifact -/

/-- After `lead`, the line has a string literal that stands for `name`: no quote or line break
stands bare between its quotes, it is one token, and its value is the name. -/
def Denotes (lead line name : String) : Prop :=
  ∃ body rest, line.toList = lead.toList ++ '"' :: (body ++ '"' :: rest) ∧
    isEscaped body = true ∧
    leaf? ('"' :: (body ++ '"' :: rest)) =
      some (.literal (String.ofList ('"' :: (body ++ ['"']))), rest) ∧
    stringValue? (String.ofList ('"' :: (body ++ ['"']))) = some name

/-- A quoted name in a line denotes the name, if no word follows it. -/
theorem denotes_quote (lead : String) (name : String) {after : String}
    (hafter : ∀ c ∈ after.toList.head?, isIdentStart c = false) :
    Denotes lead (lead ++ quote name ++ after) name := by
  have htext : String.ofList ('"' :: (literalBody name ++ ['"'])) = quote name := by
    rw [← toList_quote, String.ofList_toList]
  have hleaf := leaf?_quote name hafter
  rw [toList_quote, List.cons_append, List.append_assoc, List.singleton_append] at hleaf
  refine ⟨literalBody name, after.toList, ?_, isEscaped_literalBody name, ?_, ?_⟩
  · simp [toList_quote]
  · rw [hleaf, htext]
  · rw [htext, stringValue?_quote]

/-- What stands before the name in a row of the table. -/
def rowLead : String := "            ("

/-- What stands before the name in the condition of a branch. -/
def conditionLead (c : Config) : String :=
  "        if " ++ c.runtimeCrate ++ "::names_match(property_name, "

/-- The literal in a row of the table denotes the name of its member. -/
theorem denotes_tableRow (c : Config) (m : Member) : Denotes rowLead (tableRow c m) m.name := by
  have hassoc : ∀ lead name a b e f g : String,
      lead ++ name ++ a ++ b ++ e ++ f ++ g = lead ++ name ++ (a ++ (b ++ e ++ f ++ g)) := by
    simp [String.append_assoc]
  have hline : tableRow c m = rowLead ++ quote m.name ++ (", " ++ (c.runtimeCrate ++
      "::TypeIdentity::of::<" ++ m.type ++ ">()),")) := hassoc _ _ _ _ _ _ _
  rw [hline]
  refine denotes_quote rowLead m.name fun d hd => ?_
  have hcomma : (", ".toList).head? = some ',' := by decide
  rw [String.toList_append, List.head?_append, hcomma] at hd
  rw [← Option.some.inj hd]
  decide +kernel

/-- The literal in the condition of a branch denotes the name of its member. -/
theorem denotes_branchHead (c : Config) (m : Member) :
    Denotes (conditionLead c) (branchHead c m) m.name :=
  denotes_quote _ _ fun d hd => Option.some.inj hd ▸ by decide

/-- In every artifact, the rows of the table are those of the members, the conditions those of the
branches, and the literal in each stands for the name of its member. -/
theorem emitted_literals_denote (c : Config) (d : Descriptor) {a : Artifact}
    (h : (emit c d).value = some a) :
    ∃ lines, a.contents = joinLines lines ∧
      (∀ m ∈ d.members, tableRow c m ∈ lines ∧ Denotes rowLead (tableRow c m) m.name) ∧
      ∀ b ∈ (branches d.members).value,
        branchHead c b.member ∈ lines ∧
          Denotes (conditionLead c) (branchHead c b.member) b.member.name := by
  refine ⟨_, contents_of_emit h, fun m hm => ⟨?_, denotes_tableRow c m⟩,
    fun b hb => ⟨?_, denotes_branchHead c _⟩⟩
  · have htable : tableRow c m ∈ tableLines c d := by
      rw [tableLines, List.mem_append, List.mem_append]
      exact .inl (.inr (List.mem_map_of_mem hm))
    simp only [artifactLines, List.mem_append]
    tauto
  · have hbranch : branchHead c b.member ∈ dispatchLines c d (branches d.members).value := by
      rw [dispatchLines, List.mem_append, List.mem_append]
      refine .inl (.inr (List.mem_flatMap_of_mem hb ?_))
      rw [branchLines_eq]
      exact List.mem_cons_self
    simp only [artifactLines, List.mem_append]
    tauto

/-- A backslash, a quote, a line break and an acute accent on its own, as one name. -/
def signs : Member := ⟨"\\\"\n\u0301", "signs", "u8", true, .nonNullable⟩

theorem emitted_literals_denote_signs :
    let d : Descriptor := ⟨"Line", "crate::Line", [signs]⟩
    let row := "            (\"\\\\\\\"\\n\\u\x7b301\x7d\", ::propgroup::TypeIdentity::of::<u8>()),"
    ∃ a, (emit .default d).value = some a ∧
      ∃ lines, a.contents = joinLines lines ∧ row ∈ lines ∧ Denotes rowLead row signs.name := by
  intro d row
  have hvalue := value_emit .default (show d.simpleName ≠ "" by decide)
    (show d.members ≠ [] by decide)
  have hrow : tableRow .default signs = row := by decide +kernel
  obtain ⟨lines, hlines, hrows, -⟩ := emitted_literals_denote .default d hvalue
  rw [← hrow]
  exact ⟨_, hvalue, lines, hlines, hrows signs List.mem_cons_self⟩

end Memberwise
