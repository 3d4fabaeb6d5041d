import Memberwise.Artifact
import Memberwise.Proofs.NameMatch
import Memberwise.Proofs.Pieces

/-!
# Memberwise.Proofs.TypeNames — conventional type names and their snake case

A conventional type name is put together from words, each a capital letter with small letters or
digits after it. Its snake case is these words in small letters with underscores between them
(`toSnakeCase_typeName`): a capital follows a small letter or a digit wherever a word ends, and
nowhere else. Cutting at the underscores gives the words again, so the name can be told from its
snake case (`toPascalCase_snakeName`), and with it from the name of its artifact.
-/

namespace Memberwise

open Naming Text

/-! ## Letters and digits of ASCII -/

theorem case_ofNat_of_ascii :
    ∀ n < 128, isUppercase (Char.ofNat n) = (Char.ofNat n).isUpper ∧
      isLowercase (Char.ofNat n) = (Char.ofNat n).isLower ∧
      upperChar (Char.ofNat n) = [(Char.ofNat n).toUpper] := by
  decide +kernel

theorem case_of_ascii {c : Char} (h : c.toNat < 128) :
    isUppercase c = c.isUpper ∧ isLowercase c = c.isLower ∧ upperChar c = [c.toUpper] := by
  have hc := case_ofNat_of_ascii c.toNat h
  rwa [Char.ofNat_toNat] at hc

/-- Whether a character goes on with a word: a small letter or a digit. -/
def isWordTail (c : Char) : Bool := c.isLower || c.isDigit

/-- Small letters and digits are their own small forms, and start no word. -/
structure WordTail (c : Char) : Prop where
  notUpper : isUppercase c = false
  small : (isLowercase c || c.isDigit) = true
  toLower : c.toLower = c
  other : c ≠ '-' ∧ c ≠ ' ' ∧ c ≠ '_'

/-- Capital letters have one small letter each, from which they come back. -/
structure WordStart (c : Char) : Prop where
  upper : isUppercase c = true
  lowerChar : Text.lowerChar c = [c.toLower]
  upperChar : Text.upperChar c.toLower = [c]
  other : c.toLower ≠ '-' ∧ c.toLower ≠ '_'

theorem wordTail_of_isWordTail {c : Char} (h : isWordTail c = true) : WordTail c := by
  -- The 128 characters of ASCII are checked one by one.
  have hcodes : ∀ n < 128, isWordTail (Char.ofNat n) = true →
      (Char.ofNat n).isUpper = false ∧ ((Char.ofNat n).isLower || (Char.ofNat n).isDigit) = true ∧
        (Char.ofNat n).toLower = Char.ofNat n ∧
        Char.ofNat n ≠ '-' ∧ Char.ofNat n ≠ ' ' ∧ Char.ofNat n ≠ '_' := by decide +kernel
  have hascii : c.toNat < 128 := by
    rcases Bool.or_eq_true_iff.mp h with hlower | hdigit
    · have hlast : c.toNat ≤ 122 := of_decide_eq_true (Bool.and_eq_true_iff.mp hlower).2
      omega
    · have hlast : c.toNat ≤ 57 := of_decide_eq_true (Bool.and_eq_true_iff.mp hdigit).2
      omega
  have hc := hcodes c.toNat hascii
  rw [Char.ofNat_toNat] at hc
  obtain ⟨hupper, hlower, -⟩ := case_of_ascii hascii
  obtain ⟨hnot, hsmall, htoLower, hother⟩ := hc h
  exact ⟨hupper.trans hnot, by rwa [hlower], htoLower, hother⟩

theorem wordStart_of_isUpper {c : Char} (h : c.isUpper = true) : WordStart c := by
  have hcodes : ∀ n < 128, (Char.ofNat n).isUpper = true →
      (Char.ofNat n).toLower.toNat < 128 ∧ (Char.ofNat n).toLower.toUpper = Char.ofNat n ∧
        (Char.ofNat n).toLower ≠ '-' ∧ (Char.ofNat n).toLower ≠ '_' := by decide +kernel
  have hascii : c.toNat < 128 := by
    have hrange : 65 ≤ c.toNat ∧ c.toNat ≤ 90 := of_decide_eq_true h
    omega
  have hc := hcodes c.toNat hascii
  rw [Char.ofNat_toNat] at hc
  obtain ⟨hlower, hback, hother⟩ := hc h
  refine ⟨(case_of_ascii hascii).1.trans h, lowerChar_of_ascii hascii, ?_, hother⟩
  rw [(case_of_ascii hlower).2.2, hback]

theorem map_toLower_of_wordTail {cs : List Char} (h : ∀ d ∈ cs, WordTail d) :
    cs.map Char.toLower = cs :=
  (List.map_congr_left fun d hd => (h d hd).toLower).trans (List.map_id cs)

/-! ## Names and their words -/

/-- Whether the characters are a word of a conventional type name: a capital letter, then one or
more small letters or digits, all of ASCII. -/
def isTypeWord : List Char → Bool
  | c :: d :: ds => c.isUpper && (d :: ds).all isWordTail
  | _ => false

/-- The type name with the given words. -/
def typeName (words : List (List Char)) : String := String.ofList words.flatten

/-- A word in small letters. -/
def smallWord (w : List Char) : List Char := w.map Char.toLower

/-- The words in small letters with underscores between them. -/
def snakeName (words : List (List Char)) : String :=
  "_".intercalate (words.map fun w => String.ofList (smallWord w))

theorem exists_of_isTypeWord {w : List Char} (h : isTypeWord w = true) :
    ∃ c cs, w = c :: cs ∧ WordStart c ∧ cs ≠ [] ∧ ∀ d ∈ cs, WordTail d := by
  fun_cases isTypeWord w with
  | case1 c d ds =>
    rw [isTypeWord, Bool.and_eq_true, List.all_eq_true] at h
    exact ⟨c, d :: ds, rfl, wordStart_of_isUpper h.1, by simp,
      fun e he => wordTail_of_isWordTail (h.2 e he)⟩
  | case2 => simp_all [isTypeWord]

/-! ## Snake case -/

/-- Small letters and digits stay, and a new word can start after them. -/
theorem snakeFrom_wordTails {cs : List Char} (hne : cs ≠ []) (h : ∀ d ∈ cs, WordTail d)
    (previous : Option Char) (separated : Bool) (rest : List Char) :
    ∃ last, WordTail last ∧
      snakeFrom previous separated (cs ++ rest) = cs ++ snakeFrom (some last) false rest := by
  induction cs generalizing previous separated with
  | nil => exact absurd rfl hne
  | cons d cs ih =>
    have hd := h d List.mem_cons_self
    have hstep : snakeFrom previous separated (d :: (cs ++ rest)) =
        d :: snakeFrom (some d) false (cs ++ rest) := by
      have hseparated : (d == '_') = false := beq_false_of_ne hd.other.2.2
      simp [snakeFrom, hd.notUpper, hd.other.1, hd.other.2.1, hseparated]
    rw [List.cons_append, hstep]
    -- The last character is needed, as it decides whether the next word is separated.
    cases cs with
    | nil => exact ⟨d, hd, rfl⟩
    | cons e cs =>
      obtain ⟨last, hlast, heq⟩ := ih (by simp) (fun x hx => h x (List.mem_cons_of_mem _ hx))
        (some d) false
      exact ⟨last, hlast, congrArg (d :: ·) heq⟩

/-- A word is written in small letters, after an underscore unless it is the first. -/
theorem snakeFrom_word {w : List Char} (h : isTypeWord w = true) (previous : Option Char)
    (hprevious : ∀ p ∈ previous, WordTail p) (rest : List Char) :
    ∃ last, WordTail last ∧ snakeFrom previous false (w ++ rest) =
      (if previous.isSome then ['_'] else []) ++ smallWord w ++
        snakeFrom (some last) false rest := by
  obtain ⟨c, cs, rfl, hc, hne, hcs⟩ := exists_of_isTypeWord h
  -- A word after another starts a new part; at the very start nothing separates.
  have hboundary : startsWord previous (cs ++ rest).head? = previous.isSome := by
    cases previous with
    | none => rfl
    | some p => simp [startsWord, (hprevious p rfl).small]
  have hstep : snakeFrom previous false (c :: (cs ++ rest)) =
      (if previous.isSome then ['_'] else []) ++ [c.toLower] ++
        snakeFrom (some c) false (cs ++ rest) := by
    have hseparated : (c.toLower == '_') = false := beq_false_of_ne hc.other.2
    rw [snakeFrom, if_pos hc.upper, hboundary, hc.lowerChar]
    simp [hseparated]
  obtain ⟨last, hlast, heq⟩ := snakeFrom_wordTails hne hcs (some c) false rest
  refine ⟨last, hlast, ?_⟩
  rw [List.cons_append, hstep, heq, smallWord, List.map_cons, map_toLower_of_wordTail hcs]
  simp

/-- After a word, every further one is led by an underscore. -/
theorem snakeFrom_words {words : List (List Char)} (h : ∀ w ∈ words, isTypeWord w = true)
    {p : Char} (hp : WordTail p) :
    snakeFrom (some p) false words.flatten = words.flatMap fun w => '_' :: smallWord w := by
  induction words generalizing p with
  | nil => rfl
  | cons w words ih =>
    obtain ⟨last, hlast, heq⟩ := snakeFrom_word (h w List.mem_cons_self) (some p)
      (by simpa using hp) words.flatten
    rw [List.flatten_cons, heq, ih (fun x hx => h x (List.mem_cons_of_mem _ hx)) hlast,
      List.flatMap_cons]
    simp

theorem toList_snakeName_cons (w : List Char) (words : List (List Char)) :
    (snakeName (w :: words)).toList =
      smallWord w ++ words.flatMap fun w => '_' :: smallWord w := by
  induction words generalizing w with
  | nil => simp [snakeName]
  | cons v words ih =>
    have hv := ih v
    rw [snakeName, List.map_cons] at hv
    rw [snakeName, List.map_cons, List.map_cons, String.intercalate_cons_cons, String.toList_append,
      String.toList_append, hv, List.flatMap_cons]
    simp

/-- The snake case of a type name is its words in small letters, joined by underscores. -/
theorem toSnakeCase_typeName {words : List (List Char)} (h : ∀ w ∈ words, isTypeWord w = true) :
    toSnakeCase (typeName words) = snakeName words := by
  apply String.toList_injective
  rw [toSnakeCase, typeName, String.toList_ofList, String.toList_ofList]
  cases words with
  | nil => rfl
  | cons w words =>
    obtain ⟨last, hlast, heq⟩ := snakeFrom_word (h w List.mem_cons_self) none (by simp)
      words.flatten
    rw [List.flatten_cons, heq, toList_snakeName_cons,
      snakeFrom_words (fun x hx => h x (List.mem_cons_of_mem _ hx)) hlast]
    simp

/-! ## Pascal case -/

theorem smallWord_unsplit {w : List Char} (h : isTypeWord w = true) :
    ∀ d ∈ smallWord w, (d == '-' || d == '_') = false := by
  obtain ⟨c, cs, rfl, hc, -, hcs⟩ := exists_of_isTypeWord h
  intro d hd
  rw [smallWord, List.map_cons] at hd
  rcases List.mem_cons.mp hd with rfl | hd
  · simp [hc.other]
  · obtain ⟨e, he, rfl⟩ := List.mem_map.mp hd
    rw [(hcs e he).toLower]
    simp [(hcs e he).other]

theorem capitalize_smallWord {w : List Char} (h : isTypeWord w = true) :
    capitalize (smallWord w) = w := by
  obtain ⟨c, cs, rfl, hc, -, hcs⟩ := exists_of_isTypeWord h
  rw [smallWord, List.map_cons, capitalize, hc.upperChar, map_toLower_of_wordTail hcs,
    List.singleton_append]

/-- Words led by underscores fall apart at the underscores. -/
theorem splitAt_smallWords {words : List (List Char)} {w : List Char}
    (h : ∀ v ∈ w :: words, isTypeWord v = true) :
    splitAt (fun c => c == '-' || c == '_')
        (smallWord w ++ words.flatMap fun w => '_' :: smallWord w) =
      (w :: words).map smallWord := by
  -- Induction on the words; no word is cut by itself, and each separator cuts once.
  induction words generalizing w with
  | nil =>
    rw [List.flatMap_nil, List.append_nil]
    exact splitAt_of_notMem (smallWord_unsplit (h w List.mem_cons_self))
  | cons v words ih =>
    rw [List.flatMap_cons, List.cons_append, splitAt_append_cons (by simp),
      splitAt_of_notMem (smallWord_unsplit (h w List.mem_cons_self)),
      ih fun x hx => h x (List.mem_cons_of_mem _ hx)]
    rfl

/-- A type name comes back from its snake case. -/
theorem toPascalCase_snakeName {words : List (List Char)} (h : ∀ w ∈ words, isTypeWord w = true) :
    toPascalCase (snakeName words) = typeName words := by
  rw [toPascalCase, typeName]
  cases words with
  | nil => rfl
  | cons w words =>
    rw [toList_snakeName_cons, splitAt_smallWords h, List.flatMap_def, List.map_map]
    have hback : (w :: words).map (capitalize ∘ smallWord) = w :: words :=
      (List.map_congr_left fun v hv => capitalize_smallWord (h v hv)).trans (List.map_id _)
    rw [hback]

/-- The snake case of a conventional type name is its words in small letters with underscores
between them, the name comes back from it, and types with the same artifact have the same name. -/
theorem conventional_names_distinct (c : Config) {words others : List (List Char)}
    (hwords : ∀ w ∈ words, isTypeWord w = true) (hothers : ∀ w ∈ others, isTypeWord w = true) :
    toSnakeCase (typeName words) = snakeName words ∧
      toPascalCase (toSnakeCase (typeName words)) = typeName words ∧
      (artifactName c (typeName words) = artifactName c (typeName others) →
        typeName words = typeName others) := by
  have hsnake := toSnakeCase_typeName hwords
  refine ⟨hsnake, by rw [hsnake, toPascalCase_snakeName hwords], fun hartifact => ?_⟩
  rw [artifactName, artifactName, String.append_left_inj, hsnake,
    toSnakeCase_typeName hothers] at hartifact
  rw [← toPascalCase_snakeName hwords, ← toPascalCase_snakeName hothers, hartifact]

/-- `HttpServer2` and `Http2Server`. -/
theorem conventional_names_distinct_servers :
    let words := ["Http".toList, "Server2".toList]
    let others := ["Http2".toList, "Server".toList]
    (∀ w ∈ words, isTypeWord w = true) ∧ (∀ w ∈ others, isTypeWord w = true) ∧
      toSnakeCase "HttpServer2" = "http_server2" ∧
      toPascalCase (toSnakeCase "HttpServer2") = "HttpServer2" ∧
      artifactName .default "HttpServer2" ≠ artifactName .default "Http2Server" := by
  intro words others
  have hwords : ∀ w ∈ words, isTypeWord w = true := by decide
  have hothers : ∀ w ∈ others, isTypeWord w = true := by decide
  obtain ⟨hsnake, hpascal, hartifact⟩ := conventional_names_distinct .default hwords hothers
  refine ⟨hwords, hothers, hsnake, hpascal, fun heq => ?_⟩
  exact absurd (hartifact heq) (by decide)

end Memberwise
