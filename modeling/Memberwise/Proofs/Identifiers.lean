import Memberwise.Proofs.Lexing

/-!
# Memberwise.Proofs.Identifiers — the identifiers of a text are words

An identifier occurs in tokens as one of them or in a group (`OccursIn`). The lexer makes an
identifier only of a word, and a raw one only of a word that can be raw (`lexical_of_ident?`). Every
round of the lexer keeps this of the tokens that are done and of those in the groups around them
(`lexical_of_lexFrom`), so it holds of all tokens of a text (`lexical_of_lex`).
-/

namespace Memberwise

open Text

/-! ## Occurrence -/

/-- The identifier is one of the tokens, or occurs in a group among them. -/
inductive OccursIn (i : Ident) : List TokenTree → Prop where
  | token {ts : List TokenTree} (h : .ident i ∈ ts) : OccursIn i ts
  | inside {ts body : List TokenTree} {d : Delimiter} (h : .group d body ∈ ts)
      (hbody : OccursIn i body) : OccursIn i ts

theorem OccursIn.mono {i : Ident} {ts us : List TokenTree} (h : OccursIn i ts) (hsub : ts ⊆ us) :
    OccursIn i us := by
  cases h with
  | token h => exact .token (hsub h)
  | inside h hbody => exact .inside (hsub h) hbody

/-- Each identifier in the tokens is one that the lexer can make. -/
def AllLexical (ts : List TokenTree) : Prop := ∀ i, OccursIn i ts → i.Lexical

namespace AllLexical

variable {ts us body : List TokenTree}

theorem mono (h : AllLexical us) (hsub : ts ⊆ us) : AllLexical ts :=
  fun i hi => h i (hi.mono hsub)

theorem nil : AllLexical [] := by
  intro i hi
  cases hi with
  | token h => cases h
  | inside h _ => cases h

/-- A token is added: an identifier, a group, or one without identifiers. -/
theorem cons {t : TokenTree} (h : AllLexical ts) (hident : ∀ i, t = .ident i → i.Lexical)
    (hgroup : ∀ d body, t = .group d body → AllLexical body) : AllLexical (t :: ts) := by
  intro i hi
  cases hi with
  | token hmem =>
    rcases List.mem_cons.mp hmem with heq | hmem
    · exact hident i heq.symm
    · exact h i (.token hmem)
  | inside hmem hbody =>
    rcases List.mem_cons.mp hmem with heq | hmem
    · exact hgroup _ _ heq.symm i hbody
    · exact h i (.inside hmem hbody)

theorem ident {i : Ident} (h : AllLexical ts) (hi : i.Lexical) : AllLexical (.ident i :: ts) :=
  h.cons (by simpa using hi) (by simp)

theorem group {d : Delimiter} (h : AllLexical ts) (hbody : AllLexical body) :
    AllLexical (.group d body :: ts) :=
  h.cons (by simp) (by simpa using hbody)

theorem lifetime (i : Ident) (h : AllLexical ts) : AllLexical (.lifetime i :: ts) :=
  h.cons (by simp) (by simp)

theorem punct (c : Char) (joint : Bool) (h : AllLexical ts) : AllLexical (.punct c joint :: ts) :=
  h.cons (by simp) (by simp)

theorem literal (text : String) (h : AllLexical ts) : AllLexical (.literal text :: ts) :=
  h.cons (by simp) (by simp)

theorem append (hts : AllLexical ts) (hus : AllLexical us) : AllLexical (ts ++ us) := by
  intro i hi
  cases hi with
  | token hmem =>
    rcases List.mem_append.mp hmem with hmem | hmem
    · exact hts i (.token hmem)
    · exact hus i (.token hmem)
  | inside hmem hbody =>
    rcases List.mem_append.mp hmem with hmem | hmem
    · exact hts i (.inside hmem hbody)
    · exact hus i (.inside hmem hbody)

theorem reverse (h : AllLexical ts) : AllLexical ts.reverse :=
  h.mono fun _ => List.mem_reverse.mp

end AllLexical

/-! ## The lexer -/

namespace Token

/-- What is taken as a word is one. -/
theorem isWord_of_word? {cs rest : List Char} (h : word? cs = some rest) :
    IsWord (before cs rest) := by
  cases cs with
  | nil => cases h
  | cons c cs =>
    rw [word?] at h
    split at h
    · next hstart =>
      cases h
      -- What was taken is the longest run of characters of a word.
      have hbefore := before_append (c :: cs.takeWhile isIdentContinue)
        (cs.dropWhile isIdentContinue)
      rw [List.cons_append, List.takeWhile_append_dropWhile] at hbefore
      rw [hbefore]
      exact ⟨c, _, rfl, hstart, List.all_eq_true.mp List.all_takeWhile⟩
    · cases h

theorem lexical_of_ident? {cs rest : List Char} {i : Ident} (h : ident? cs = some (i, rest)) :
    i.Lexical := by
  unfold ident? at h
  extract_lets raw start at h
  cases hword : word? start with
  | none =>
    simp only [hword] at h
    cases h
  | some end_ =>
    simp only [hword] at h
    split at h
    · cases h
    · next hraw =>
      cases h
      -- A raw identifier is refused exactly for the words that are never raw.
      refine ⟨?_, fun hmarked hnever => hraw ?_⟩
      · rw [String.toList_ofList]
        exact isWord_of_word? hword
      · rw [Bool.and_eq_true, List.contains_iff_mem]
        exact ⟨hmarked, hnever⟩

/-- A token that is not a group adds no identifier but a word. -/
theorem lexical_of_leaf? {cs rest : List Char} {t : TokenTree} {ts : List TokenTree}
    (h : leaf? cs = some (t, rest)) (hts : AllLexical ts) : AllLexical (t :: ts) := by
  unfold leaf? at h
  split at h
  · cases h
    exact hts.literal _
  · split at h
    -- The cases follow the reader: literal, lifetime, sign and identifier.
    · obtain ⟨⟨i, end_⟩, -, heq⟩ := Option.map_eq_some_iff.mp h
      cases heq
      exact hts.lifetime i
    · split at h
      · cases h
        exact hts.punct _ _
      · split at h
        · cases h
        · obtain ⟨⟨i, end_⟩, hident, heq⟩ := Option.map_eq_some_iff.mp h
          cases heq
          exact hts.ident (lexical_of_ident? hident)
    · cases h

theorem lexical_docAttribute (comment : List Char) (inner : Bool) :
    AllLexical (docAttribute comment inner) := by
  have hdoc : (Ident.plain "doc").Lexical := by decide
  have hbody : AllLexical [.ident (.plain "doc"), .punct '=' false,
      .literal (quote (String.ofList comment))] :=
    ((AllLexical.nil.literal _).punct _ _).ident hdoc
  have hgroup := AllLexical.nil.group (d := .bracket) hbody
  cases inner with
  | false => exact hgroup.punct _ _
  | true => exact (hgroup.punct _ _).punct _ _

/-- Each round of the lexer keeps the identifiers that it has made: those among the tokens that are
done, and those in the open groups around them. -/
theorem lexical_of_lexFrom {fuel : Nat} {cs : List Char} {done ts : List TokenTree}
    {stack : List (Delimiter × List TokenTree)} (h : lexFrom fuel cs done stack = some ts)
    (hdone : AllLexical done) (hstack : ∀ e ∈ stack, AllLexical e.2) : AllLexical ts := by
  induction fuel generalizing cs done stack with
  | zero => cases h
  | succ fuel ih =>
    simp only [lexFrom] at h
    split at h
    · exact ih h ((lexical_docAttribute _ _).reverse.append hdone) hstack
    · split at h
      · -- The end of the text.
        split at h
        · cases h
          exact hdone.reverse
        · cases h
      · split at h
        · -- A group opens, and what is done so far waits on the stack.
          refine ih h .nil fun e he => ?_
          rcases List.mem_cons.mp he with rfl | he
          · exact hdone
          · exact hstack e he
        · -- A group closes, and goes on after what was done before it.
          split at h
          · next opened outer stack =>
            split at h
            · obtain ⟨houter, hstack⟩ := List.forall_mem_cons.mp hstack
              exact ih h (houter.group hdone.reverse) hstack
            · cases h
          · cases h
        · split at h
          · next hleaf => exact ih h (lexical_of_leaf? hleaf hdone) hstack
          · cases h

/-- Every identifier in the tokens of a text is one that is read from its own text. -/
theorem lexical_of_lex {text : String} {ts : List TokenTree} (h : lex text = some ts) :
    AllLexical ts :=
  lexical_of_lexFrom h .nil (by simp)

end Token

end Memberwise
