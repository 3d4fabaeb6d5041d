import Memberwise.Proofs.Identifiers
import Memberwise.Proofs.Layout
import Memberwise.Proofs.Literals

/-!
# Memberwise.Proofs.LexicalTokens — the tokens of a text are read from their own texts

The lexer makes tokens only of texts that are read as these tokens again: identifiers and lifetimes
of words, literals of texts with the form of one, and operators of characters that start no comment.
Every round of the lexer keeps this of the tokens that are done and of those in the groups around
them (`lexicalAll_of_lexFrom`), so it holds of all tokens of a text (`lexicalAll_of_lex`).
-/

namespace Memberwise

open Text TokenTree

namespace Token

/-! ## One token -/

/-- An operator goes on here, and not so that it becomes a comment after a slash. -/
def PunctGoesOn (cs : List Char) : Prop :=
  startsPunct cs = true ∧ cs.head? ≠ some '/' ∧ cs.head? ≠ some '*'

theorem goesOn_of_startsPunct {cs : List Char} (h : startsPunct ('/' :: cs) = true)
    (hnext : startsPunct cs = true) : PunctGoesOn cs := by
  refine ⟨hnext, ?_, ?_⟩
  · intro hhead
    obtain ⟨ds, rfl⟩ := List.head?_eq_some_iff.mp hhead
    simp [startsPunct, startsWith, List.isPrefixOf] at h
  · intro hhead
    obtain ⟨ds, rfl⟩ := List.head?_eq_some_iff.mp hhead
    simp [startsPunct, startsWith, List.isPrefixOf] at h

/-- A token that is not a group is read from its own text. -/
theorem lexical_leaf {cs rest : List Char} {t : TokenTree} (h : leaf? cs = some (t, rest)) :
    t.Lexical ∧ (t = .punct '/' true → PunctGoesOn rest) := by
  -- the cases in the order in which they are tried: literal, lifetime, punctuation, identifier
  unfold leaf? at h
  split at h
  · next hliteral =>
    cases h
    obtain ⟨text, rfl, htext⟩ := literal?_sound hliteral
    refine ⟨?_, by simp⟩
    rw [before_append]
    exact (String.toList_ofList ▸ htext : LiteralText (String.ofList text).toList)
  · split at h
    · obtain ⟨⟨i, after⟩, hlifetime, heq⟩ := Option.map_eq_some_iff.mp h
      cases heq
      obtain ⟨⟨j, after⟩, hident, hafter⟩ := Option.bind_eq_some_iff.mp hlifetime
      refine ⟨?_, by simp⟩
      dsimp only at hafter
      split at hafter
      · cases hafter
      · cases hafter
        exact lexical_of_ident? hident
    · next c after hquote _ =>
      split at h
      · next hpunct =>
        cases h
        have hc : c ∈ punctuation := by
          have hstart := hpunct
          simp only [startsPunct, List.head?_cons, Option.any_some, Bool.and_eq_true,
            Bool.or_eq_true, List.contains_iff_mem, beq_iff_eq] at hstart
          exact hstart.2.resolve_right hquote
        refine ⟨hc, fun heq => ?_⟩
        obtain ⟨rfl, hjoint⟩ := TokenTree.punct.inj heq
        exact goesOn_of_startsPunct hpunct hjoint
      · split at h
        · cases h
        · obtain ⟨⟨i, after⟩, hident, heq⟩ := Option.map_eq_some_iff.mp h
          cases heq
          exact ⟨lexical_of_ident? hident, by simp⟩
    · cases h

theorem eq_of_leaf_punct {c d : Char} {cs rest : List Char} {joint : Bool}
    (h : leaf? (c :: cs) = some (.punct d joint, rest)) : d = c := by
  -- Only one of the reader's alternatives gives a sign, and it takes the first character.
  unfold leaf? at h
  split at h
  · cases h
  · split at h
    · obtain ⟨_, -, heq⟩ := Option.map_eq_some_iff.mp h
      cases heq
    · next hcons =>
      split at h
      · cases h
        exact (List.cons.inj hcons).1.symm
      · split at h
        · cases h
        · obtain ⟨_, -, heq⟩ := Option.map_eq_some_iff.mp h
          cases heq
    · cases h

/-- What is quoted is a literal. -/
theorem literalText_quote (name : String) : LiteralText (quote name).toList := by
  have hleaf : leaf? ((quote name).toList ++ []) = some (.literal (quote name), []) :=
    leaf?_quote name nofun
  exact (lexical_leaf hleaf).1

theorem lexicalAll_docAttribute (comment : List Char) (inner : Bool) :
    LexicalAll (docAttribute comment inner) := by
  have hdoc : (Ident.plain "doc").Lexical := by decide
  have hmark : '#' ∈ punctuation ∧ '!' ∈ punctuation ∧ '=' ∈ punctuation := by decide
  have hslash : ∀ {t : TokenTree} {ts : List TokenTree}, t ≠ .punct '/' true → SlashGoesOn t ts :=
    fun hne heq => absurd heq hne
  have hbody : LexicalAll [.ident (.plain "doc"), .punct '=' false,
      .literal (quote (String.ofList comment))] :=
    ⟨hdoc, hslash (by simp), hmark.2.2, hslash (by simp), literalText_quote _, hslash (by simp),
      trivial⟩
  -- An outer comment is `#` and a group; an inner one has a `!` between them.
  cases inner with
  | false => exact ⟨hmark.1, hslash (by simp), hbody, hslash (by simp), trivial⟩
  | true =>
    exact ⟨hmark.1, hslash (by simp), hmark.2.1, hslash (by simp), hbody, hslash (by simp), trivial⟩

/-! ## All tokens -/

theorem PunctGoesOn.exists_cons {cs : List Char} (h : PunctGoesOn cs) :
    ∃ c more, cs = c :: more ∧ Stays c ∧ opens? c = none ∧ closes? c = none ∧
      c ≠ '/' ∧ c ≠ '*' := by
  obtain ⟨hpunct, hslash, hstar⟩ := h
  cases cs with
  | nil => exact absurd hpunct (by decide)
  | cons c cs =>
    have hne : c ≠ '/' := fun heq => hslash (by rw [heq]; rfl)
    simp only [startsPunct, List.head?_cons, Option.any_some, Bool.and_eq_true, Bool.or_eq_true,
      List.contains_iff_mem, beq_iff_eq] at hpunct
    refine ⟨c, cs, rfl, ?_⟩
    have hstar' : c ≠ '*' := fun heq => hstar (by rw [heq]; rfl)
    -- The sign is one of the punctuation or the quote that starts a lifetime.
    rcases hpunct.2 with hc | rfl
    · obtain ⟨hstays, hopens, hcloses, -⟩ := punctuation_facts hc hne
      exact ⟨hstays, hopens, hcloses, hne, hstar'⟩
    · exact ⟨⟨by decide, hne⟩, rfl, rfl, hne, hstar'⟩

/-- The tokens that are done, newest first, are read from their own texts; only the newest may be a
joint slash that waits for the token after it. -/
def Pending (done : List TokenTree) (cs : List Char) : Prop :=
  LexicalAll done.reverse ∨
    ∃ more, done = .punct '/' true :: more ∧ LexicalAll more.reverse ∧ PunctGoesOn cs

theorem lexicalAll_singleton {t : TokenTree} (h : t.Lexical) (hne : t ≠ .punct '/' true) :
    LexicalAll [t] := ⟨h, fun heq => absurd heq hne, trivial⟩

/-- Each round of the lexer keeps that the tokens are read from their own texts. -/
theorem lexicalAll_of_lexFrom {fuel : Nat} {cs : List Char} {done ts : List TokenTree}
    {stack : List (Delimiter × List TokenTree)} (h : lexFrom fuel cs done stack = some ts)
    (hdone : Pending done cs) (hstack : ∀ e ∈ stack, LexicalAll e.2.reverse) : LexicalAll ts := by
  induction fuel generalizing cs done stack with
  | zero => cases h
  | succ fuel ih =>
    simp only [lexFrom] at h
    rcases hdone with hdone | ⟨more, rfl, hmore, hgoes⟩
    · split at h
      · next comment inner rest _ =>
        refine ih h (.inl ?_) hstack
        rw [List.reverse_append, List.reverse_reverse]
        exact hdone.append (lexicalAll_docAttribute comment inner)
      · split at h
        · -- The end of the text.
          split at h
          · cases h
            exact hdone
          · cases h
        · split at h
          · -- A group opens, and what is done so far waits on the stack.
            exact ih h (.inl trivial) (List.forall_mem_cons.mpr ⟨hdone, hstack⟩)
          · -- A group closes, and goes on after what was done before it.
            split at h
            · next d _ _ opened outer stack =>
              obtain ⟨houter, hstack⟩ := List.forall_mem_cons.mp hstack
              split at h
              · refine ih h (.inl ?_) hstack
                rw [List.reverse_cons]
                exact houter.append (lexicalAll_singleton hdone (by simp))
              · cases h
            · cases h
          · split at h
            · next t rest hleaf =>
              obtain ⟨ht, hslash⟩ := lexical_leaf hleaf
              refine ih h ?_ hstack
              by_cases heq : t = .punct '/' true
              · exact .inr ⟨done, by rw [heq], hdone, hslash heq⟩
              · rw [Pending, List.reverse_cons]
                exact .inl (hdone.append (lexicalAll_singleton ht heq))
            · cases h
    · -- The slash is followed by an operator, a lifetime or a literal.
      obtain ⟨c, cs, rfl, hstays, hopens, hcloses, hslash, hstar⟩ := hgoes.exists_cons
      simp only [hstays.skipSpace, hstays.docComment?, hopens, hcloses] at h
      split at h
      · next t rest hleaf =>
        have ht := (lexical_leaf hleaf).1
        have hmem : '/' ∈ punctuation := by decide
        have hne : ∀ joint, t ≠ .punct '/' joint ∧ t ≠ .punct '*' joint := by
          refine fun joint => ⟨?_, ?_⟩
          · rintro rfl
            exact hslash (eq_of_leaf_punct hleaf).symm
          · rintro rfl
            exact hstar (eq_of_leaf_punct hleaf).symm
        refine ih h (.inl ?_) hstack
        rw [List.reverse_cons, List.reverse_cons, List.append_assoc]
        exact hmore.append ⟨hmem, fun _ => ⟨t, rfl, hne⟩, lexicalAll_singleton ht (hne true).1⟩
      · cases h

/-- Every token of a text is read from its own text. -/
theorem lexicalAll_of_lex {text : String} {ts : List TokenTree} (h : lex text = some ts) :
    LexicalAll ts :=
  lexicalAll_of_lexFrom h (.inl trivial) (by simp)

end Token

end Memberwise
