import Memberwise.Artifact
import Memberwise.Proofs.Pieces
import Memberwise.Text.IdentifierChar

/-!
# Memberwise.Proofs.Lines — reading text by its lines

A text that was joined from lines is read back as these lines, if none of them has a line break of
its own (`textLines_joinLines`). Two lines differ if their starts clash, whatever follows the
starts.
-/

namespace Memberwise

open Text

/-! ## Lines -/

/-- The lines of a text: what stands between its line breaks. -/
def textLines (text : String) : List String :=
  (Text.splitAt (· == '\n') text.toList).map String.ofList

/-- The text has no line breaks. -/
def OneLine (s : String) : Prop := '\n' ∉ s.toList

instance : DecidablePred OneLine := fun _ => inferInstanceAs (Decidable (_ ∉ _))

@[simp] theorem oneLine_append {s t : String} : OneLine (s ++ t) ↔ OneLine s ∧ OneLine t := by
  simp [OneLine]

theorem OneLine.append {s t : String} (hs : OneLine s) (ht : OneLine t) : OneLine (s ++ t) :=
  oneLine_append.mpr ⟨hs, ht⟩

theorem OneLine.literal {cs : List Char} (h : '\n' ∉ cs) : OneLine (String.ofList cs) := by
  rwa [OneLine, String.toList_ofList]

theorem toList_joinLines (lines : List String) :
    (joinLines lines).toList = lines.flatMap fun line => line.toList ++ ['\n'] := by
  have hfold : ∀ start : String,
      (lines.foldl (fun text line => text ++ line ++ "\n") start).toList =
        start.toList ++ lines.flatMap fun line => line.toList ++ ['\n'] := by
    induction lines with
    | nil => simp
    | cons line lines ih =>
      intro start
      simp [ih]
  simpa [joinLines] using hfold ""

/-- The lines of joined lines are these, with an empty one after the last line break. -/
theorem textLines_joinLines {lines : List String} (h : ∀ line ∈ lines, OneLine line) :
    textLines (joinLines lines) = lines ++ [""] := by
  rw [textLines, toList_joinLines]
  induction lines with
  | nil => rfl
  | cons line lines ih =>
    obtain ⟨hline, hlines⟩ := List.forall_mem_cons.mp h
    have hpiece : Text.splitAt (· == '\n') line.toList = [line.toList] :=
      splitAt_of_notMem fun c hc => beq_eq_false_iff_ne.mpr fun heq => hline (heq ▸ hc)
    rw [List.flatMap_cons, List.append_assoc, List.singleton_append, splitAt_append_cons rfl,
      hpiece, List.map_append, ih hlines]
    simp

/-! ## Texts without line breaks -/

theorem oneLine_of_isIdentContinue {s : String} (h : ∀ c ∈ s.toList, isIdentContinue c = true) :
    OneLine s := by
  intro hmem
  have hbreak := h '\n' hmem
  revert hbreak
  decide +kernel

/-- Hexadecimal digits are digits of numbers below sixteen. -/
theorem exists_of_mem_toDigits {n : Nat} {c : Char} (h : c ∈ Nat.toDigits 16 n) :
    ∃ d < 16, c = Nat.digitChar d := by
  induction n using Nat.strongRecOn with
  | ind n ih =>
    by_cases hsmall : n < 16
    · rw [Nat.toDigits_of_lt_base hsmall, List.mem_singleton] at h
      exact ⟨n, hsmall, h⟩
    · have hmod : n % 16 < 16 := Nat.mod_lt n (by omega)
      rw [Nat.toDigits_of_base_le (by omega) (by omega), List.mem_append, List.mem_singleton] at h
      rcases h with h | h
      · exact ih (n / 16) (by omega) h
      · exact ⟨n % 16, hmod, h⟩

theorem ne_of_mem_toDigits {n : Nat} {c : Char} (h : c ∈ Nat.toDigits 16 n) : c ≠ '\n' := by
  have hdigit : ∀ d < 16, Nat.digitChar d ≠ '\n' := by decide
  obtain ⟨d, hd, rfl⟩ := exists_of_mem_toDigits h
  exact hdigit d hd

/-- In a string literal, line breaks are escaped. -/
theorem oneLine_quote (s : String) : OneLine (quote s) := by
  have hchar : ∀ c, '\n' ∉ escapeChar c := by
    intro c
    unfold escapeChar
    split
    -- The seventh case is a character that is escaped by its number or kept as it is.
    case h_7 c _ _ _ hne _ _ =>
      split
      · simpa using fun heq => hne heq.symm
      · intro hmem
        simp only [unicodeEscape, List.mem_append] at hmem
        rcases hmem with (hmem | hmem) | hmem
        · revert hmem
          decide
        · exact ne_of_mem_toDigits hmem rfl
        · revert hmem
          decide
    all_goals decide
  simp [OneLine, quote, hchar]

/-! ## Starts of lines -/

/-- Neither text starts with the other. -/
def Clash (cs ds : List Char) : Prop := ¬cs <+: ds ∧ ¬ds <+: cs

instance (cs ds : List Char) : Decidable (Clash cs ds) := inferInstanceAs (Decidable (_ ∧ _))

/-- Texts that clash do so whatever follows. -/
theorem Clash.append {cs ds : List Char} (h : Clash cs ds) (es : List Char) :
    Clash cs (ds ++ es) := by
  constructor
  · intro hprefix
    rcases List.prefix_or_prefix_of_prefix hprefix (List.prefix_append ds es) with hcs | hds
    · exact h.1 hcs
    · exact h.2 hds
  · exact fun hprefix => h.2 ((List.prefix_append ds es).trans hprefix)

theorem Clash.not_start {cs ds es : List Char} (h : Clash cs ds) (hcs : cs <+: es) : ¬es <+: ds :=
  fun hprefix => h.1 (hcs.trans hprefix)

theorem Clash.literal {cs ds : List Char} (h : Clash cs ds) :
    Clash cs (String.ofList ds).toList := by
  rwa [String.toList_ofList]

theorem Clash.text_append {cs : List Char} {s : String} (h : Clash cs s.toList) (t : String) :
    Clash cs (s ++ t).toList := by
  rw [String.toList_append]
  exact h.append _

theorem prefix_literal {cs ds : List Char} (h : cs <+: ds) : cs <+: (String.ofList ds).toList := by
  rwa [String.toList_ofList]

theorem prefix_text_append {cs : List Char} {s : String} (h : cs <+: s.toList) (t : String) :
    cs <+: (s ++ t).toList := by
  rw [String.toList_append]
  exact h.trans (List.prefix_append _ _)

/-- A text differs from all texts with a start that it clashes with. -/
theorem ne_of_clash {cs : List Char} {s t : String} (hs : Clash cs s.toList)
    (ht : cs <+: t.toList) : s ≠ t := by
  rintro rfl
  exact hs.1 ht

end Memberwise
