import Memberwise.Text.Pieces

/-!
# Memberwise.Proofs.Pieces — cutting texts

A text is cut at the characters of a kind. Everything about the pieces follows from two equations: a
text without such characters is its own piece (`splitAt_of_notMem`), and around such a character a
text falls into the pieces of its two sides (`splitAt_append_cons`).
-/

namespace Memberwise

theorem splitAt_of_notMem {p : Char → Bool} {cs : List Char} (h : ∀ c ∈ cs, p c = false) :
    Text.splitAt p cs = [cs] := by
  induction cs with
  | nil => rfl
  | cons c cs ih =>
    rw [Text.splitAt, h c List.mem_cons_self, ih fun d hd => h d (List.mem_cons_of_mem _ hd)]
    rfl

theorem consPiece_append (c : Char) {xs : List (List Char)} (h : xs ≠ [])
    (ys : List (List Char)) : Text.consPiece c (xs ++ ys) = Text.consPiece c xs ++ ys := by
  cases xs with
  | nil => exact absurd rfl h
  | cons x xs => rfl

theorem splitAt_ne_nil (p : Char → Bool) (cs : List Char) : Text.splitAt p cs ≠ [] := by
  cases cs with
  | nil => simp [Text.splitAt]
  | cons c cs =>
    rw [Text.splitAt]
    split
    · simp
    · cases Text.splitAt p cs <;> simp [Text.consPiece]

/-- A text is cut at a character that satisfies `p`, whatever stands on its sides. -/
theorem splitAt_append_cons {p : Char → Bool} {c : Char} (hc : p c = true) (xs ys : List Char) :
    Text.splitAt p (xs ++ c :: ys) = Text.splitAt p xs ++ Text.splitAt p ys := by
  induction xs with
  | nil => simp [Text.splitAt, hc]
  | cons x xs ih =>
    rw [List.cons_append, Text.splitAt, Text.splitAt, ih]
    split
    · rfl
    · exact consPiece_append x (splitAt_ne_nil p xs) _

theorem subset_of_mem_splitAt {p : Char → Bool} {cs piece : List Char}
    (h : piece ∈ Text.splitAt p cs) : piece ⊆ cs := by
  -- Induction on the text; a character that does not cut goes into the first piece.
  induction cs generalizing piece with
  | nil => simp_all [Text.splitAt]
  | cons c cs ih =>
    rw [Text.splitAt] at h
    split at h
    · rcases List.mem_cons.mp h with rfl | h
      · exact List.nil_subset _
      · exact List.subset_cons_of_subset c (ih h)
    · obtain ⟨first, rest, heq⟩ := List.exists_cons_of_ne_nil (splitAt_ne_nil p cs)
      rw [heq, Text.consPiece] at h
      rcases List.mem_cons.mp h with rfl | h
      · exact List.cons_subset_cons c (ih (by simp [heq]))
      · exact List.subset_cons_of_subset c (ih (by simp [heq, h]))

end Memberwise
