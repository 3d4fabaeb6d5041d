import Mathlib
import Memberwise.Proofs.Deriving
import Memberwise.Proofs.LexicalTypes

/-!
# Memberwise.Proofs.LexicalReading — readers take tokens that are read from their own texts

The tokens that a reader takes are not always tokens of the source: operators are split, numbers
after a point are, and arguments are taken in their printed form. All the same they are read from
their own texts if those of the source are (`TakesLexical`). As in `Memberwise.Proofs.Forward` this
is a class with one instance for each way to combine readers; but here the content of groups counts
too. What a reader gives is told from what it takes (`ReadsLexical`).
-/

namespace Memberwise.Source

open Token TokenTree

variable {α β : Type}

/-- The tokens that are left and those that were taken are read from their own texts. -/
structure Cursor.Lexical (c : Cursor) : Prop where
  rest : ∀ t ∈ c.rest, t.Lexical
  taken : LexicalAll c.taken.reverse

/-- A reader starts with such tokens. -/
theorem Cursor.Lexical.start {ts : List TokenTree} (h : ∀ t ∈ ts, t.Lexical) :
    Cursor.Lexical ⟨ts, []⟩ :=
  ⟨h, lexicalAll_nil⟩

/-- Taking tokens that are read from their own texts. -/
theorem Cursor.Lexical.advance {c : Cursor} {tokens rest : List TokenTree} (h : c.Lexical)
    (htokens : LexicalAll tokens) (hrest : ∀ t ∈ rest, t.Lexical) :
    Cursor.Lexical ⟨rest, tokens.reverse ++ c.taken⟩ := by
  refine ⟨hrest, ?_⟩
  rw [List.reverse_append, List.reverse_reverse]
  exact h.taken.append htokens

/-- Of tokens that are read from their own texts, a reader takes such tokens. -/
class TakesLexical (p : Reader α) : Prop where
  lexical : ∀ {c : Cursor} {a : α} {c' : Cursor}, c.Lexical → p c = some (a, c') → c'.Lexical

namespace TakesLexical

/-! ## Readers in combination -/

section

variable {p q : Reader α} {f : α → Reader β}

instance bind [TakesLexical p] [∀ a, TakesLexical (f a)] : TakesLexical (p >>= f) where
  lexical hc h := by
    obtain ⟨⟨a, middle⟩, hfirst, hsecond⟩ := Option.bind_eq_some_iff.mp h
    exact lexical (lexical hc hfirst) hsecond

instance (a : α) : TakesLexical (pure a : Reader α) where
  lexical hc h := by
    cases h
    exact hc

instance : TakesLexical (failure : Reader α) where
  lexical _ h := by cases h

instance {b : Prop} [Decidable b] [TakesLexical p] [TakesLexical q] :
    TakesLexical (if b then p else q) := by
  split
  · infer_instance
  · infer_instance

instance (g : α → β) [TakesLexical p] : TakesLexical (g <$> p) := by
  rw [map_eq_pure_bind]
  infer_instance

instance [TakesLexical p] : TakesLexical (discard p) :=
  inferInstanceAs (TakesLexical (Function.const α () <$> p))

instance {q : Reader β} [TakesLexical p] [TakesLexical q] : TakesLexical (p *> q) := by
  rw [seqRight_eq_bind]
  infer_instance

/-- The second reader starts where the first one did. -/
instance [TakesLexical p] [TakesLexical q] : TakesLexical (p <|> q) where
  lexical {c a c'} hc h := by
    have hread : (p c <|> q c) = some (a, c') := h
    cases hp : p c with
    | some e =>
      rw [hp] at hread
      cases hread
      exact lexical hc hp
    | none =>
      rw [hp] at hread
      exact lexical hc hread

instance {ι : Type} (xs : List ι) {b : β} {f : ι → β → Reader (ForInStep β)}
    [∀ i b, TakesLexical (f i b)] : TakesLexical (forIn xs b f) := by
  induction xs generalizing b with
  | nil =>
    rw [List.forIn_nil]
    infer_instance
  | cons x xs ih =>
    rw [List.forIn_cons]
    have hstep : ∀ step : ForInStep β, TakesLexical (match step with
        | .done b => (pure b : Reader β)
        | .yield b => forIn xs b f) := by
      intro step
      cases step with
      | done b => infer_instance
      | yield b => exact ih
    infer_instance

instance : TakesLexical ahead where
  lexical hc h := by
    cases h
    exact hc

/-- A reader that looks ahead first. -/
theorem of_ahead {f : List TokenTree → Reader β}
    (h : ∀ ts, (∀ t ∈ ts, t.Lexical) → TakesLexical (f ts)) : TakesLexical (ahead >>= f) where
  lexical {c _ _} hc hread := (h c.rest hc.rest).lexical hc hread

/-- Passing over such tokens takes them. -/
theorem of_advance {tokens rest : List TokenTree} (htokens : LexicalAll tokens)
    (hrest : ∀ t ∈ rest, t.Lexical) : TakesLexical (advance tokens rest) where
  lexical hc h := by
    cases h
    exact hc.advance htokens hrest

instance (test : List TokenTree → Bool) : TakesLexical (peek test) := by
  unfold peek
  infer_instance

instance : TakesLexical atEnd := by
  unfold atEnd
  infer_instance

instance (d : Delimiter) [TakesLexical p] : TakesLexical (group d p) where
  lexical {c a c'} hc h := by
    unfold group at h
    split at h
    · next e body rest hrest =>
      obtain ⟨hbody, hafter⟩ := List.forall_mem_cons.mp (hrest ▸ hc.rest)
      split at h
      · split at h
        · next b taken hinner =>
          cases h
          have hend := lexical (Cursor.Lexical.start hbody.forall_mem) hinner
          exact hc.advance (lexicalAll_group hend.taken) hafter
        · cases h
      · cases h
    · cases h

/-- The tokens of a captured reader. -/
theorem lexical_captured [TakesLexical p] {c c' : Cursor} {e : α × List TokenTree}
    (hc : ∀ t ∈ c.rest, t.Lexical) (h : captured p c = some (e, c')) : LexicalAll e.2 := by
  unfold captured at h
  split at h
  · next b c'' hp =>
    cases h
    exact (lexical (Cursor.Lexical.start hc) hp).taken
  · cases h

instance [TakesLexical p] : TakesLexical (captured p) where
  lexical {c a c'} hc h := by
    unfold captured at h
    split at h
    · next b c'' hp =>
      have hend := lexical (Cursor.Lexical.start hc.rest) hp
      cases h
      refine ⟨hend.rest, ?_⟩
      rw [List.reverse_append]
      exact hc.taken.append hend.taken
    · cases h

end

end TakesLexical

/-! ## Tokens -/

/-- An operator that is read from its own text. -/
class IsOperator (text : String) : Prop where
  lexical : LexicalAll (operator text)

namespace IsOperator

/-- The operators of the grammar are operators. -/
theorem of_named {text : String} (h : text ∈ namedOperators) : IsOperator text :=
  ⟨lexicalAll_operator text h⟩

instance : IsOperator "!" := of_named (by decide)
instance : IsOperator "#" := of_named (by decide)
instance : IsOperator "&" := of_named (by decide)
instance : IsOperator "*" := of_named (by decide)
instance : IsOperator "+" := of_named (by decide)
instance : IsOperator "," := of_named (by decide)
instance : IsOperator "-" := of_named (by decide)
instance : IsOperator "->" := of_named (by decide)
instance : IsOperator "." := of_named (by decide)
instance : IsOperator ".." := of_named (by decide)
instance : IsOperator "..." := of_named (by decide)
instance : IsOperator "..=" := of_named (by decide)
instance : IsOperator ":" := of_named (by decide)
instance : IsOperator "::" := of_named (by decide)
instance : IsOperator ";" := of_named (by decide)
instance : IsOperator "<" := of_named (by decide)
instance : IsOperator "=" := of_named (by decide)
instance : IsOperator "=>" := of_named (by decide)
instance : IsOperator ">" := of_named (by decide)
instance : IsOperator "?" := of_named (by decide)
instance : IsOperator "@" := of_named (by decide)
instance : IsOperator "|" := of_named (by decide)

instance {b : Prop} [Decidable b] (x y : String) [IsOperator x] [IsOperator y] :
    IsOperator (if b then x else y) := by
  split
  · infer_instance
  · infer_instance

/-- A binary operator may start with a slash, which then makes no comment. -/
theorem of_binaryOperator? {ts : List TokenTree} {text : String} {precedence : Nat}
    (h : binaryOperator? ts = some (text, precedence)) : IsOperator text := by
  have hall : (binaryOperators.all fun e => e.1 == "/=" || isOperatorText e.1) = true := by
    decide +kernel
  have hentry := List.all_eq_true.mp hall _ (List.mem_of_find?_eq_some h)
  rw [Bool.or_eq_true, beq_iff_eq] at hentry
  rcases hentry with rfl | hoperator
  · have hsigns : '/' ∈ punctuation ∧ '=' ∈ punctuation := by decide
    exact ⟨⟨hsigns.1, fun _ => ⟨.punct '=' false, rfl, by simp⟩,
      lexicalAll_singleton hsigns.2 (by simp)⟩⟩
  · exact ⟨lexicalAll_of_isOperatorText hoperator⟩

end IsOperator

/-- The text of an index is a number. -/
theorem literalText_of_isIndexText {text : String} (h : isIndexText text = true) :
    LiteralText text.toList := by
  -- An index is a number in decimal, so its digits are read off the standard lemma.
  have hnat : text.isNat = true := by
    cases hvalue : text.isNat with
    | true => rfl
    | false =>
      have hnone : text.toNat? = none := if_neg (ne_true_of_eq_false hvalue)
      rw [isIndexText, hnone] at h
      cases h
  obtain ⟨hne, hdigits, -, hfirst, -⟩ := String.isNat_iff.mp hnat
  cases htext : text.toList with
  | nil => exact absurd (String.toList_eq_nil_iff.mp htext) hne
  | cons d ds =>
    rw [htext] at hdigits hfirst
    obtain ⟨hd, hds⟩ := List.forall_mem_cons.mp hdigits
    have hgaps : ∀ e ∈ ds, isDigitOrGap e = true := by
      intro e he
      simpa [isDigitOrGap] using hds e he
    -- The standard lemma allows separators between digits; the first character is none.
    have hdigit := hd.resolve_right fun heq => hfirst (by rw [heq]; rfl)
    exact .number (numberText_digits hdigit hgaps)

namespace TakesLexical

instance (text : String) [h : IsOperator text] : TakesLexical (op text) := by
  unfold op
  refine of_ahead fun ts hts => ?_
  split
  · exact of_advance h.lexical fun t ht => hts t (List.mem_of_mem_drop ht)
  · infer_instance

instance (text : String) [IsOperator text] : TakesLexical (op? text) := by
  unfold op?
  infer_instance

instance : TakesLexical ident := by
  unfold ident
  refine of_ahead fun ts hts => ?_
  split
  · next i rest =>
    obtain ⟨hi, hrest⟩ := List.forall_mem_cons.mp hts
    have := of_advance (lexicalAll_ident hi) hrest
    infer_instance
  · infer_instance

instance : TakesLexical lifetime := by
  unfold lifetime
  refine of_ahead fun ts hts => ?_
  split
  · next i rest =>
    obtain ⟨hi, hrest⟩ := List.forall_mem_cons.mp hts
    have := of_advance (lexicalAll_lifetime hi) hrest
    infer_instance
  · infer_instance

instance : TakesLexical anyGroup := by
  unfold anyGroup
  refine of_ahead fun ts hts => ?_
  split
  · next d body rest =>
    obtain ⟨hbody, hrest⟩ := List.forall_mem_cons.mp hts
    have := of_advance (lexicalAll_group (d := d) hbody) hrest
    infer_instance
  · infer_instance

instance : TakesLexical literal := by
  unfold literal
  refine of_ahead fun ts hts => ?_
  split
  · next text rest =>
    obtain ⟨htext, hrest⟩ := List.forall_mem_cons.mp hts
    exact of_advance (lexicalAll_literal htext) hrest
  · next i rest =>
    obtain ⟨hi, hrest⟩ := List.forall_mem_cons.mp hts
    have := of_advance (lexicalAll_ident hi) hrest
    infer_instance
  · next joint text rest =>
    -- The sign of a negative number is printed apart from it.
    obtain ⟨-, htail⟩ := List.forall_mem_cons.mp hts
    obtain ⟨htext, hrest⟩ := List.forall_mem_cons.mp htail
    have hminus := lexicalAll_operator "-" (by decide)
    split
    · exact of_advance (hminus.append (lexicalAll_literal htext)) hrest
    · infer_instance
  · infer_instance

instance : TakesLexical name := by unfold name; infer_instance
instance (text : String) : TakesLexical (word text) := by unfold word; infer_instance
instance (text : String) : TakesLexical (word? text) := by unfold word?; infer_instance
instance : TakesLexical lifetime? := by unfold lifetime?; infer_instance
instance : TakesLexical stringLiteral := by unfold stringLiteral; infer_instance

/-! ## Lists -/

section

variable {p : Reader α} [TakesLexical p] (stop : List TokenTree → Bool) (separator : String)
  [IsOperator separator] (fuel : Nat)

instance : TakesLexical (manyLoop stop p fuel) := by
  induction fuel with
  | zero => exact inferInstanceAs (TakesLexical failure)
  | succ fuel ih => unfold manyLoop; infer_instance

instance : TakesLexical (many stop p) := by unfold many; infer_instance

instance : TakesLexical (terminatedLoop stop separator p fuel) := by
  induction fuel with
  | zero => exact inferInstanceAs (TakesLexical failure)
  | succ fuel ih => unfold terminatedLoop; infer_instance

instance : TakesLexical (terminated stop separator p) := by unfold terminated; infer_instance

instance : TakesLexical (chainedLoop stop separator p fuel) := by
  induction fuel with
  | zero => exact inferInstanceAs (TakesLexical failure)
  | succ fuel ih => unfold chainedLoop; infer_instance

instance : TakesLexical (chained stop separator p) := by unfold chained; infer_instance

instance : TakesLexical (commaList p) := by unfold commaList; infer_instance

end

end TakesLexical

/-! ## Values -/

/-- Of tokens that are read from their own texts, the reader gives what satisfies `P`. -/
def ReadsLexical (p : Reader α) (P : α → Prop) : Prop :=
  ∀ all : List TokenTree, (∀ t ∈ all, t.Lexical) → Yields all p P

/-- Of tokens that are read from their own texts, the form makes what satisfies `P`. -/
def FormOf (P : α → Prop) (form : List TokenTree → α) : Prop :=
  ∀ ts, LexicalAll ts → P (form ts)

namespace ReadsLexical

variable {p q : Reader α} {f : α → Reader β} {P Q : α → Prop} {R : β → Prop}

/-- A value is given at once. -/
theorem pure {a : α} (h : P a) : ReadsLexical (pure a) P := fun _ _ => Yields.pure h

/-- A reader that fails gives nothing. -/
theorem failure : ReadsLexical (failure : Reader α) P := fun _ _ => Yields.failure

theorem bind [Forward p] (hp : ReadsLexical p Q) (hf : ∀ a, Q a → ReadsLexical (f a) R) :
    ReadsLexical (p >>= f) R :=
  fun all hall => (hp all hall).bind fun a ha => hf a ha all hall

/-- A reader after another one may do without what that one gave. -/
theorem after [Forward p] (hf : ∀ a, ReadsLexical (f a) R) : ReadsLexical (p >>= f) R :=
  fun all hall => Yields.after fun a => hf a all hall

/-- A choice gives what both of its sides give. -/
theorem ite {b : Prop} [Decidable b] (hp : ReadsLexical p P) (hq : ReadsLexical q P) :
    ReadsLexical (if b then p else q) P :=
  fun all hall => Yields.ite (hp all hall) (hq all hall)

/-- What is given is mapped. -/
theorem map {g : α → β} (hp : ReadsLexical p fun a => R (g a)) : ReadsLexical (g <$> p) R :=
  fun all hall => Yields.map (hp all hall)

/-- An identifier is a word. -/
theorem ident : ReadsLexical ident Ident.Lexical :=
  fun _ hall c i c' hc h => hall _ (Yields.anyIdent c i c' hc h)

/-- A name is a word. -/
theorem name : ReadsLexical name Ident.Lexical :=
  fun _ hall c i c' hc h => hall _ (Yields.name c i c' hc h).1

/-- A lifetime has a word for its name. -/
theorem lifetime : ReadsLexical lifetime Ident.Lexical := by
  rintro all hall ⟨rest, taken⟩ i c' hc h
  cases rest with
  | nil => cases h
  | cons t rest =>
    cases t with
    | lifetime j =>
      cases h
      exact hall _ (hc List.mem_cons_self)
    | _ => cases h

/-- A lifetime that may come has a word for its name. -/
theorem lifetime? : ReadsLexical lifetime? fun i? => ∀ i ∈ i?, i.Lexical := by
  refine after fun found => ite (bind lifetime fun i hi => pure ?_) (pure nofun)
  simpa using hi

/-- What is read from the content of a group. -/
theorem group (hp : ReadsLexical p P) (d : Delimiter) : ReadsLexical (group d p) P :=
  fun _ hall => Yields.group fun body hbody => hp body (hall _ hbody).forall_mem

/-- The elements of a repetition are given by its reader. -/
theorem many [Forward p] (hp : ReadsLexical p P) (stop : List TokenTree → Bool) :
    ReadsLexical (many stop p) fun as => ∀ a ∈ as, P a :=
  fun all hall => Yields.many (hp all hall) stop

/-- Elements with separators up to an end are given by the reader. -/
theorem terminated [Forward p] (hp : ReadsLexical p P) (stop : List TokenTree → Bool)
    (separator : String) : ReadsLexical (terminated stop separator p) fun e => ∀ a ∈ e.1, P a :=
  fun all hall => Yields.after fun _ => Yields.terminatedLoop (hp all hall) stop separator _

/-- The loop over elements that go on with a separator gives elements that the reader gives. -/
theorem chainedLoop [Forward p] (hp : ReadsLexical p P) (stop : List TokenTree → Bool)
    (separator : String) (fuel : Nat) :
    ReadsLexical (chainedLoop stop separator p fuel) fun e => ∀ a ∈ e.1, P a := by
  induction fuel with
  | zero => exact failure
  | succ fuel ih =>
    refine after fun stops => ite (pure (List.forall_mem_nil _)) ?_
    refine bind hp fun a ha => after fun goesOn => ite (bind ih fun e he => pure ?_) (pure ?_)
    · exact List.forall_mem_cons.mpr ⟨ha, he⟩
    · exact List.forall_mem_singleton.mpr ha

/-- Elements that go on with a separator are given by the reader. -/
theorem chained [Forward p] (hp : ReadsLexical p P) (stop : List TokenTree → Bool)
    (separator : String) : ReadsLexical (chained stop separator p) fun e => ∀ a ∈ e.1, P a :=
  after fun _ => chainedLoop hp stop separator _

/-- Elements with commas between them are given by the reader. -/
theorem commaList [Forward p] (hp : ReadsLexical p P) :
    ReadsLexical (commaList p) fun e => ∀ a ∈ e.1, P a :=
  terminated hp _ _

/-- The tokens that are kept beside a value are such tokens too. -/
theorem captured [TakesLexical p] (hp : ReadsLexical p P) :
    ReadsLexical (captured p) fun e => P e.1 ∧ LexicalAll e.2 := by
  intro all hall c e c' hc h
  refine ⟨?_, TakesLexical.lexical_captured (fun t ht => hall t (hc ht)) h⟩
  unfold Source.captured at h
  split at h
  · next a end_ hread =>
    cases h
    exact hp all hall ⟨c.rest, []⟩ a end_ hc hread
  · cases h

/-- A form is applied to the tokens that were taken for it. -/
theorem ofForm {p : Reader (List TokenTree → α)} [Forward p] [TakesLexical p]
    (hp : ReadsLexical p (FormOf P)) :
    ReadsLexical (do
      let (form, tokens) ← Source.captured p
      return form tokens) P :=
  bind (captured hp) fun e he => pure (he.1 e.2 he.2)

/-- What is taken in its printed form. -/
theorem printedAs {tokens : α → List TokenTree} [TakesLexical p] (hp : ReadsLexical p P)
    (h : ∀ a, P a → LexicalAll (tokens a)) :
    TakesLexical (printedAs tokens p) ∧ ReadsLexical (printedAs tokens p) P := by
  -- The inner reading starts on a fresh cursor; only the printed tokens count as taken.
  have hread : ∀ {c c' : Cursor} {a : α}, Source.printedAs tokens p c = some (a, c') →
      ∃ c'', p ⟨c.rest, []⟩ = some (a, c'') ∧
        c' = ⟨c''.rest, (tokens a).reverse ++ c.taken⟩ := by
    intro c c' a h
    unfold Source.printedAs at h
    split at h
    · next b c'' hb =>
      cases h
      exact ⟨c'', hb, rfl⟩
    · cases h
  constructor
  · refine ⟨fun {c a c'} hc hprinted => ?_⟩
    obtain ⟨c'', ha, rfl⟩ := hread hprinted
    have hend := TakesLexical.lexical (Cursor.Lexical.start hc.rest) ha
    exact hc.advance (h a (hp c.rest hc.rest ⟨c.rest, []⟩ a c'' (List.Subset.refl _) ha)) hend.rest
  · intro all hall c a c' hc hprinted
    obtain ⟨c'', ha, rfl⟩ := hread hprinted
    exact hp all hall ⟨c.rest, []⟩ a c'' hc ha

end ReadsLexical

end Memberwise.Source
