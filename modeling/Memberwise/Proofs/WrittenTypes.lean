import Memberwise.Proofs.LexicalGrammar
import Memberwise.Proofs.Tightening

/-!
# Memberwise.Proofs.WrittenTypes — what is written of a type is read as its tokens

The text of a type that cannot be resolved is its printed tokens, drawn together. It is always read
as tokens, and no operator of the type comes apart in it (`lex_written`). Two things can go wrong: a
replaced word that occurs in a literal is replaced there too, and two signs that were apart can join
to an operator. Where the second is excluded, the first decides alone whether the tokens are those
of the type (`written_keeps_tokens_iff`, `StructAt.fieldTypes_written_iff`).
-/

namespace Memberwise

open Token TokenTree

namespace Source

/-- The text of a type that was read is read as its tokens in another layout, with the words
replaced in its literals. -/
theorem lex_written {text : String} {t : SourceType} (h : parseType text = some t) :
    ∃ us, lex t.written = some us ∧ KeepsOperators us (mapLiteralsAll tightened t.tokens) := by
  rw [written_eq_tightened]
  exact lex_tightened (lexicalAll_of_parseType h)

theorem sameTokens_written_iff {t : SourceType} (h : LexicalAll t.tokens)
    (hunjoined : unjoinedAll t.tokens = true) :
    ∃ us, lex t.written = some us ∧ (SameTokens us t.tokens ↔
      ∀ text ∈ literalTextsAll t.tokens, ∀ e ∈ tightenings, ¬e.1.toList <:+: text.toList) := by
  rw [written_eq_tightened]
  obtain ⟨us, hus, hkeeps⟩ := lex_tightened h
  refine ⟨us, hus, ?_⟩
  rw [sameTokens_iff_of_keepsOperators hunjoined hkeeps]
  simp only [tightened_eq_self_iff]

/-- If no two signs of a type can join to an operator, its text is read as its tokens exactly if
none of the replaced words occurs in one of its literals. -/
theorem written_keeps_tokens_iff {text : String} {t : SourceType} (h : parseType text = some t)
    (hunjoined : unjoinedAll t.tokens = true) :
    ∃ us, lex t.written = some us ∧ (SameTokens us t.tokens ↔
      ∀ text ∈ literalTextsAll t.tokens, ∀ e ∈ tightenings, ¬e.1.toList <:+: text.toList) :=
  sameTokens_written_iff (lexicalAll_of_parseType h) hunjoined

-- no word occurs in the literal `' '`, but `" <"` holds one
example : (parseType "Foo<' '>").map SourceType.written = some "Foo<' '>" ∧
    (parseType "Foo<\" <\">").map SourceType.written = some "Foo<\"<\">" := by
  decide +kernel

-- signs that join: the first text is no type, and the second has another operator
example : (parseType "fn(x: ::A)").map SourceType.written = some "fn (x :::A)" ∧
    (parseType "fn (x :::A)").isNone ∧
    (parseType "[u8; 3 & &1]").map SourceType.written = some "[u8 ; 3 &&1]" := by
  decide +kernel

end Source

/-- The same holds of the types of the fields of a file. -/
theorem StructAt.fieldTypes_written_iff {text : String} {items : List Source.Item}
    (hparse : Source.parseFile text = some items) {root : Scope} {position : List Nat}
    {d : Candidate} (hat : StructAt root items position d) {f : Source.Field}
    (hf : f ∈ d.item.fields.list) (hunjoined : unjoinedAll f.type.tokens = true) :
    ∃ us, lex f.type.written = some us ∧ (SameTokens us f.type.tokens ↔
      ∀ text ∈ literalTextsAll f.type.tokens, ∀ e ∈ Source.tightenings,
        ¬e.1.toList <:+: text.toList) :=
  Source.sameTokens_written_iff (hat.fieldTypesLexical hparse f hf) hunjoined

end Memberwise
