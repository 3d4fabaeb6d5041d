import Memberwise.Proofs.LiteralText

/-!
# Memberwise.Proofs.Layout — printed tokens and the spaces between them

A printed text is a row of cells: tokens, brackets, and the spaces between them. Where no two tokens
of a row run together (`Apart`), its text is read as these tokens again, wherever its spaces stand
(`lexes_row`). The printed form of tokens is such a row (`apart_cellsAll`).
-/

namespace Memberwise

open Text Token

namespace TokenTree

/-! ## Tokens in another layout -/

/-- The operators of more than one sign. -/
def operators : List String :=
  ["&&", "||", "<<", ">>", "==", "!=", "<=", ">=", "+=", "-=", "*=", "/=", "%=", "^=", "&=", "|=",
    "<<=", ">>=", "->", "=>", "<-", "..", "...", "..=", "::"]

/-- The signs that stand beside each other in an operator. -/
def operatorPairs : List (Char × Char) :=
  operators.flatMap fun op => op.toList.zip op.toList.tail

/-- The sign, if it is joined to the next token, goes on as an operator. -/
def goesOn (c : Char) : List TokenTree → Bool
  | punct d _ :: _ => operatorPairs.contains (c, d)
  | _ => false

/-- The first tokens are the second with other spacing. Of a sign that can go on as an operator, `R`
says which spacing it may have for which; after any other sign the spacing says nothing. -/
inductive Respaced (R : Char → Bool → Bool → Prop) : List TokenTree → List TokenTree → Prop where
  | nil : Respaced R [] []
  | keep (t : TokenTree) {us ts : List TokenTree} (h : Respaced R us ts) :
      Respaced R (t :: us) (t :: ts)
  | sign (c : Char) {joint joint' : Bool} {us ts : List TokenTree}
      (hjoint : goesOn c ts = true → R c joint' joint) (h : Respaced R us ts) :
      Respaced R (punct c joint' :: us) (punct c joint :: ts)
  | group (d : Delimiter) {body body' us ts : List TokenTree} (hbody : Respaced R body' body)
      (h : Respaced R us ts) : Respaced R (group d body' :: us) (group d body :: ts)

/-- The tokens are the same in another layout, and no operator comes apart. -/
def KeepsOperators : List TokenTree → List TokenTree → Prop :=
  Respaced fun _ joint' joint => joint = true → joint' = true

/-- The tokens are the same in another layout, with the same operators. Closing brackets may come to
stand side by side, since they are read one by one. -/
def SameTokens : List TokenTree → List TokenTree → Prop :=
  Respaced fun c joint' joint => joint' = joint ∨ c = '>' ∧ joint' = true

mutual

/-- No sign in the tree would go on as an operator if the space after it were dropped. -/
def unjoined : TokenTree → Bool
  | group _ body => unjoinedAll body
  | _ => true

/-- No sign in the trees would go on as an operator if the space after it were dropped. -/
def unjoinedAll : List TokenTree → Bool
  | [] => true
  | punct c joint :: ts => (joint || c == '>' || !goesOn c ts) && unjoinedAll ts
  | t :: ts => t.unjoined && unjoinedAll ts

end

/-- Where no sign can be joined to the next one, the operators are the same if none comes apart. -/
theorem KeepsOperators.sameTokens {us ts : List TokenTree} (h : KeepsOperators us ts)
    (hts : unjoinedAll ts = true) : SameTokens us ts := by
  -- Only a sign's joint flag can change; it matters where the sign goes on, and there it is free.
  induction h with
  | nil => exact .nil
  | keep t h ih =>
    refine .keep t (ih ?_)
    cases t with
    | punct c joint => exact (Bool.and_eq_true_iff.mp hts).2
    | ident i => exact (Bool.and_eq_true_iff.mp hts).2
    | lifetime i => exact (Bool.and_eq_true_iff.mp hts).2
    | literal text => exact (Bool.and_eq_true_iff.mp hts).2
    | group d body => exact (Bool.and_eq_true_iff.mp hts).2
  | @sign c joint joint' us ts hjoint h ih =>
    obtain ⟨hsign, hrest⟩ := Bool.and_eq_true_iff.mp hts
    refine .sign c (fun hgoes => ?_) (ih hrest)
    rw [hgoes] at hsign
    cases joint with
    | true => exact .inl (hjoint hgoes rfl)
    | false =>
      cases joint' with
      | false => exact .inl rfl
      | true => exact .inr ⟨by simpa using hsign, rfl⟩
  | group d hbody h ihbody ih =>
    obtain ⟨hgroup, hrest⟩ := Bool.and_eq_true_iff.mp hts
    exact .group d (ihbody hgroup) (ih hrest)

/-! ## Literals -/

mutual

/-- A token tree with other texts in place of its literals. -/
def mapLiterals (f : String → String) : TokenTree → TokenTree
  | ident i => ident i
  | lifetime i => lifetime i
  | punct c joint => punct c joint
  | literal text => literal (f text)
  | group d body => group d (mapLiteralsAll f body)

/-- Token trees with other texts in place of their literals. -/
def mapLiteralsAll (f : String → String) : List TokenTree → List TokenTree
  | [] => []
  | t :: ts => t.mapLiterals f :: mapLiteralsAll f ts

end

mutual

/-- The texts of the literals in a tree. -/
def literalTexts : TokenTree → List String
  | literal text => [text]
  | group _ body => literalTextsAll body
  | _ => []

/-- The texts of the literals in trees. -/
def literalTextsAll : List TokenTree → List String
  | [] => []
  | t :: ts => t.literalTexts ++ literalTextsAll ts

end

/-- Tokens in another layout have the same literals. -/
theorem Respaced.literalTextsAll_eq {R : Char → Bool → Bool → Prop} {us ts : List TokenTree}
    (h : Respaced R us ts) : literalTextsAll us = literalTextsAll ts := by
  induction h with
  | nil => rfl
  | keep t h ih => rw [literalTextsAll, literalTextsAll, ih]
  | sign c hjoint h ih => exact ih
  | group d hbody h ihbody ih =>
    rw [literalTextsAll, literalTextsAll, literalTexts, literalTexts, ihbody, ih]

mutual

/-- The literals of a changed tree are the changed literals. -/
theorem literalTexts_mapLiterals (f : String → String) (t : TokenTree) :
    (t.mapLiterals f).literalTexts = t.literalTexts.map f := by
  match t with
  | .group d body => exact literalTextsAll_mapLiteralsAll f body
  | .ident i => rfl
  | .lifetime i => rfl
  | .punct c joint => rfl
  | .literal text => rfl

/-- The literals of changed trees are the changed literals. -/
theorem literalTextsAll_mapLiteralsAll (f : String → String) (ts : List TokenTree) :
    literalTextsAll (mapLiteralsAll f ts) = (literalTextsAll ts).map f := by
  match ts with
  | [] => rfl
  | t :: ts =>
    rw [mapLiteralsAll, literalTextsAll, literalTextsAll, List.map_append,
      literalTexts_mapLiterals f t, literalTextsAll_mapLiteralsAll f ts]

end

mutual

/-- A tree stays as it is if none of its literals changes. -/
theorem mapLiterals_eq_self {f : String → String} (t : TokenTree)
    (hf : ∀ text ∈ t.literalTexts, f text = text) : t.mapLiterals f = t := by
  match t with
  | .group d body => rw [mapLiterals, mapLiteralsAll_eq_self body hf]
  | .ident i => rfl
  | .lifetime i => rfl
  | .punct c joint => rfl
  | .literal text => rw [mapLiterals, hf text (List.mem_singleton_self text)]

/-- Tokens stay as they are if the texts of their literals do. -/
theorem mapLiteralsAll_eq_self {f : String → String} (ts : List TokenTree)
    (hf : ∀ text ∈ literalTextsAll ts, f text = text) : mapLiteralsAll f ts = ts := by
  match ts with
  | [] => rfl
  | t :: ts =>
    obtain ⟨ht, hts⟩ := List.forall_mem_append.mp hf
    rw [mapLiteralsAll, mapLiterals_eq_self t ht, mapLiteralsAll_eq_self ts hts]

end

/-- Tokens that are read back with other texts for their literals, but with their own operators, are
the same tokens exactly if the texts are. -/
theorem sameTokens_iff_of_keepsOperators {f : String → String} {us ts : List TokenTree}
    (hts : unjoinedAll ts = true) (h : KeepsOperators us (mapLiteralsAll f ts)) :
    SameTokens us ts ↔ ∀ text ∈ literalTextsAll ts, f text = text := by
  constructor
  · intro hsame
    have htexts : (literalTextsAll ts).map f = (literalTextsAll ts).map id := by
      rw [← literalTextsAll_mapLiteralsAll, ← h.literalTextsAll_eq, hsame.literalTextsAll_eq,
        List.map_id]
    exact List.map_inj_left.mp htexts
  · intro hf
    rw [mapLiteralsAll_eq_self ts hf] at h
    exact h.sameTokens hts

/-! ## Tokens that the lexer makes -/

/-- If the token is a joint slash, what follows makes no comment of it. -/
def SlashGoesOn (t : TokenTree) (ts : List TokenTree) : Prop :=
  t = punct '/' true → ∃ u ∈ ts.head?, ∀ joint, u ≠ punct '/' joint ∧ u ≠ punct '*' joint

/-- A slash goes on with the token after it, whatever follows that. -/
theorem SlashGoesOn.append {t : TokenTree} {ts : List TokenTree} (h : SlashGoesOn t ts)
    (us : List TokenTree) : SlashGoesOn t (ts ++ us) := by
  intro ht
  obtain ⟨u, hu, hne⟩ := h ht
  exact ⟨u, by rw [List.head?_append, hu, Option.some_or]; rfl, hne⟩

mutual

/-- A token tree that is read from its own text. -/
def Lexical : TokenTree → Prop
  | ident i => i.Lexical
  | lifetime i => i.Lexical
  | punct c _ => c ∈ punctuation
  | literal text => LiteralText text.toList
  | group _ body => LexicalAll body

/-- Token trees that are read from their own text. -/
def LexicalAll : List TokenTree → Prop
  | [] => True
  | t :: ts => t.Lexical ∧ SlashGoesOn t ts ∧ LexicalAll ts

end

/-- Tokens that are read from their own texts are so beside each other, if they are so apart. -/
theorem LexicalAll.append {ts us : List TokenTree} (h : LexicalAll ts) (h' : LexicalAll us) :
    LexicalAll (ts ++ us) := by
  induction ts with
  | nil => exact h'
  | cons t ts ih => exact ⟨h.1, h.2.1.append us, ih h.2.2⟩

/-- Each of the tokens is read from its own text. -/
theorem LexicalAll.forall_mem {ts : List TokenTree} (h : LexicalAll ts) : ∀ t ∈ ts, t.Lexical := by
  induction ts with
  | nil => exact List.forall_mem_nil _
  | cons t ts ih => exact List.forall_mem_cons.mpr ⟨h.1, ih h.2.2⟩

end TokenTree

/-! ## Cells -/

namespace Token

/-- A slash is read as a sign where it starts no comment. -/
theorem startsPunct_slash {rest : List Char} (hslash : rest.head? ≠ some '/')
    (hstar : rest.head? ≠ some '*') : startsPunct ('/' :: rest) = true := by
  have hmem : '/' ∈ punctuation := by decide
  cases rest with
  | nil => rfl
  | cons c rest =>
    have hnext : '/' ≠ c ∧ '*' ≠ c :=
      ⟨fun heq => hslash (by rw [heq]; rfl), fun heq => hstar (by rw [heq]; rfl)⟩
    simp [startsPunct, startsWith, List.isPrefixOf, hnext, hmem]

end Token

/-- The bracket that opens a group. -/
def Delimiter.opener : Delimiter → Char
  | parenthesis => '('
  | bracket => '['
  | brace => '\x7b'

/-- The bracket that closes a group. -/
def Delimiter.closer : Delimiter → Char
  | parenthesis => ')'
  | bracket => ']'
  | brace => '\x7d'

/-- A piece of a printed text: a space, a token that is no group, or a bracket. -/
inductive Cell where
  | space
  | leaf (t : TokenTree)
  | opening (d : Delimiter)
  | closing (d : Delimiter)

namespace Cell

/-- The characters of a cell. -/
def chars : Cell → List Char
  | space => [' ']
  | leaf t => t.text.toList
  | opening d => [d.opener]
  | closing d => [d.closer]

/-- Whether a cell is no space. -/
def isMark : Cell → Bool
  | space => false
  | _ => true

@[simp] theorem isMark_space : space.isMark = false := rfl

@[simp] theorem isMark_leaf (t : TokenTree) : (leaf t).isMark = true := rfl

@[simp] theorem isMark_opening (d : Delimiter) : (opening d).isMark = true := rfl

@[simp] theorem isMark_closing (d : Delimiter) : (closing d).isMark = true := rfl

/-- The characters of a row of cells. -/
def charsOf (row : List Cell) : List Char := row.flatMap chars

theorem charsOf_nil : charsOf [] = [] := rfl

theorem charsOf_cons (c : Cell) (row : List Cell) :
    charsOf (c :: row) = c.chars ++ charsOf row := rfl

/-- The characters of a row are those of its parts. -/
theorem charsOf_append (row more : List Cell) :
    charsOf (row ++ more) = charsOf row ++ charsOf more := List.flatMap_append

/-- The cell ends where `rest` begins. -/
def EndsAt : Cell → List Char → Prop
  | leaf (.punct '/' _), rest => rest.head? ≠ some '/' ∧ rest.head? ≠ some '*'
  | leaf (.punct ..), _ => True
  | leaf _, rest => EndsToken rest
  | _, _ => True

/-- No two cells of the row run together. -/
def Apart : List Cell → Prop
  | [] => True
  | c :: row => c.EndsAt (charsOf row) ∧ Apart row

/-- Where any token ends, each does. -/
theorem endsAt_of_endsToken (c : Cell) {rest : List Char} (h : EndsToken rest) : c.EndsAt rest := by
  have hslash : rest.head? ≠ some '/' ∧ rest.head? ≠ some '*' :=
    ⟨fun hhead => absurd (h _ hhead) (by decide), fun hhead => absurd (h _ hhead) (by decide)⟩
  unfold EndsAt
  split
  · exact hslash
  · trivial
  · exact h
  · trivial

/-- The end of a row whose tokens stay apart is such a row. -/
theorem Apart.of_append {row more : List Cell} (h : Apart (row ++ more)) : Apart more := by
  induction row with
  | nil => exact h
  | cons c row ih => exact ih h.2

/-- A sign ends by itself, if it is no slash. -/
theorem endsAt_punct {c : Char} (hc : c ≠ '/') (joint : Bool) (rest : List Char) :
    (leaf (.punct c joint)).EndsAt rest := by
  simp [EndsAt]

end Cell

namespace Cell

/-- Whether a cell is a sign that is joined to the next token. -/
def isJoint : Cell → Bool
  | leaf t => t.isJoint
  | _ => false

/-- The next token of the row is a sign. -/
def SignNext (row : List Cell) : Prop :=
  ∃ c joint, c ∈ punctuation ∧ (row.filter isMark).head? = some (leaf (.punct c joint))

/-- A joint sign that goes on into another sign stands right before it. -/
def Tied : List Cell → Prop
  | [] => True
  | c :: row => (c.isJoint = true → SignNext row → row.head? ≠ some space) ∧ Tied row

/-- The end of a row with its operators tied is such a row. -/
theorem Tied.of_append {row more : List Cell} (h : Tied (row ++ more)) : Tied more := by
  induction row with
  | nil => exact h
  | cons c row ih => exact ih h.2

/-- A sign comes next behind spaces too. -/
theorem SignNext.of_spaces {row more : List Cell} (hrow : row.filter isMark = [])
    (h : SignNext more) : SignNext (row ++ more) := by
  rwa [SignNext, List.filter_append, hrow, List.nil_append]

/-- A sign that is the next token of a row, with no space before it, starts the row's text. -/
theorem SignNext.startsPunct {row : List Cell} (h : SignNext row) (hhead : row.head? ≠ some space)
    (hapart : Apart row) : startsPunct (charsOf row) = true := by
  obtain ⟨c, joint, hc, hnext⟩ := h
  -- A row that shows a sign next starts with that sign, as no space stands in between.
  cases row with
  | nil => cases hnext
  | cons first row =>
    cases first with
    | space => exact absurd rfl hhead
    | opening d => cases hnext
    | closing d => cases hnext
    | leaf t =>
      obtain rfl : t = .punct c joint := by simpa [isMark] using hnext
      rw [charsOf_cons, chars, TokenTree.text, String.toList_singleton, List.singleton_append]
      by_cases hslash : c = '/'
      · subst hslash
        exact startsPunct_slash hapart.1.1 hapart.1.2
      · exact startsPunct_cons hc hslash _

-- Two tokens are separated by a space unless the first is joined to the second.
end Cell

namespace TokenTree

open Cell

mutual

/-- The cells of the printed form of a tree. -/
def cells : TokenTree → List Cell
  | group .brace body =>
    .opening .brace :: .space :: (cellsAll body ++
      (if body.isEmpty then [.closing .brace] else [.space, .closing .brace]))
  | group d body => .opening d :: (cellsAll body ++ [.closing d])
  | t => [.leaf t]

/-- The cells of the printed form of trees. -/
def cellsAll : List TokenTree → List Cell
  | [] => []
  | [t] => t.cells
  | t :: ts => t.cells ++ ((if t.isJoint then [] else [.space]) ++ cellsAll ts)

end

mutual

/-- The tokens and brackets of a tree in a row. -/
def marks : TokenTree → List Cell
  | group d body => .opening d :: (marksAll body ++ [.closing d])
  | t => [.leaf t]

/-- The tokens and brackets of trees in a row. -/
def marksAll : List TokenTree → List Cell
  | [] => []
  | t :: ts => t.marks ++ marksAll ts

end

mutual

/-- The cells of a tree have the characters of its printed form. -/
theorem charsOf_cells (t : TokenTree) : charsOf t.cells = t.text.toList := by
  match t with
  | .group .brace body =>
    -- Braces are padded inside, unless they are empty.
    have hbody := charsOf_cellsAll body
    cases body with
    | nil => rfl
    | cons u us => simp [cells, text, charsOf_cons, charsOf_append, hbody, chars, Delimiter.opener,
        Delimiter.closer, charsOf_nil]
  | .group .parenthesis body =>
    simp [cells, text, charsOf_cons, charsOf_append, charsOf_cellsAll body, chars, Delimiter.opener,
      Delimiter.closer, charsOf_nil]
  | .group .bracket body =>
    simp [cells, text, charsOf_cons, charsOf_append, charsOf_cellsAll body, chars, Delimiter.opener,
      Delimiter.closer, charsOf_nil]
  | .ident i => simp [cells, charsOf, chars]
  | .lifetime i => simp [cells, charsOf, chars]
  | .punct c joint => simp [cells, charsOf, chars]
  | .literal text => simp [cells, charsOf, chars]

/-- The cells of tokens make up their printed form. -/
theorem charsOf_cellsAll (ts : List TokenTree) : charsOf (cellsAll ts) = (textAll ts).toList := by
  match ts with
  | [] => rfl
  | [t] =>
    rw [cellsAll, textAll]
    exact charsOf_cells t
  | t :: u :: us =>
    rw [cellsAll, textAll, charsOf_append, charsOf_append, charsOf_cells t,
      charsOf_cellsAll (u :: us)]
    · cases t.isJoint <;> simp [charsOf, chars]
    · simp
    · simp

end

mutual

/-- Without the spaces, the cells of a tree are its marks. -/
theorem filter_cells (t : TokenTree) : t.cells.filter isMark = t.marks := by
  match t with
  | .group .brace body =>
    have hbody := filter_cellsAll body
    cases body <;> simp [cells, marks, List.filter_cons, hbody]
  | .group .parenthesis body => simp [cells, marks, List.filter_cons, filter_cellsAll body]
  | .group .bracket body => simp [cells, marks, List.filter_cons, filter_cellsAll body]
  | .ident i => rfl
  | .lifetime i => rfl
  | .punct c joint => rfl
  | .literal text => rfl

/-- Without its spaces the printed form of tokens has the tokens and their brackets. -/
theorem filter_cellsAll (ts : List TokenTree) : (cellsAll ts).filter isMark = marksAll ts := by
  match ts with
  | [] => rfl
  | [t] =>
    rw [cellsAll, filter_cells t, marksAll, marksAll, List.append_nil]
  | t :: u :: us =>
    rw [cellsAll, marksAll, List.filter_append, List.filter_append, filter_cells t,
      filter_cellsAll (u :: us)]
    · cases t.isJoint <;> rfl
    · simp

end

/-! ## Rows of tokens -/

/-- No other token starts as a comment would go on after a slash. -/
theorem Lexical.head_chars {t : TokenTree} (h : t.Lexical)
    (hne : ∀ joint, t ≠ punct '/' joint ∧ t ≠ punct '*' joint) (row : List Cell) :
    (charsOf (t.cells ++ row)).head? ≠ some '/' ∧ (charsOf (t.cells ++ row)).head? ≠ some '*' := by
  rw [charsOf_append, charsOf_cells]
  cases t with
  | ident i =>
    obtain ⟨c, cs, htext, hc⟩ := exists_text_eq_cons h
    have hslash : c ≠ '/' := identStart_ne hc (by decide)
    have hstar : c ≠ '*' := identStart_ne hc (by decide)
    simp [text, htext, hslash, hstar]
  | lifetime i => simp [text]
  | punct c joint =>
    have hslash : c ≠ '/' := fun heq => (hne joint).1 (by rw [heq])
    have hstar : c ≠ '*' := fun heq => (hne joint).2 (by rw [heq])
    simp [text, hslash, hstar]
  | literal literalText =>
    obtain ⟨c, cs, htext, hc⟩ := h.start
    have hne : c ≠ '/' ∧ c ≠ '*' := by
      -- A literal starts with a digit, a quote, a sign or a letter, never with a comment's sign.
      constructor <;>
      · rintro rfl
        revert hc
        decide
    simp [text, htext, hne]
  | group d body => cases d <;> cases body <;> simp [text, textAll]

/-- The cells of trees start with those of the first one. -/
theorem exists_cellsAll (t : TokenTree) (ts : List TokenTree) :
    ∃ more, cellsAll (t :: ts) = t.cells ++ more := by
  cases ts with
  | nil => exact ⟨[], by rw [cellsAll, List.append_nil]⟩
  | cons u us => exact ⟨_, by rw [cellsAll]; simp⟩

/-- A joint sign ends where the next token starts. -/
theorem endsAt_of_joint {t : TokenTree} {ts : List TokenTree} (hjoint : t.isJoint = true)
    (hslash : SlashGoesOn t ts) (hts : LexicalAll ts) (row : List Cell) :
    (leaf t).EndsAt (charsOf (cellsAll ts ++ row)) := by
  cases t with
  | punct c joint =>
    obtain rfl : joint = true := hjoint
    -- A slash before `/` or `*` would open a comment, so what follows it has to be looked at.
    by_cases hc : c = '/'
    · subst hc
      obtain ⟨u, hu, hne⟩ := hslash rfl
      obtain ⟨us, rfl⟩ := List.head?_eq_some_iff.mp hu
      obtain ⟨more, hcells⟩ := exists_cellsAll u us
      rw [hcells, List.append_assoc]
      exact hts.1.head_chars hne (more ++ row)
    · exact endsAt_punct hc true _
  | ident => cases hjoint
  | lifetime => cases hjoint
  | literal => cases hjoint
  | group => cases hjoint

mutual

/-- The cells of a tree stay apart from a row if its last token does. -/
theorem apart_cells (t : TokenTree) (h : t.Lexical) {row : List Cell} (hrow : Apart row)
    (hends : (leaf t).EndsAt (charsOf row) ∨ EndsToken (charsOf row)) :
    Apart (t.cells ++ row) := by
  have hleaf : (leaf t).EndsAt (charsOf row) := hends.elim id (endsAt_of_endsToken _)
  match t with
  | .group d body =>
    -- Inside a group the last token stands before the closing sign or, in braces, before a space.
    have hclose : ∀ {rest : List Char}, EndsToken (d.closer :: rest) :=
      fun {rest} => EndsToken.cons (by cases d <;> decide) rest
    have hinner : Apart (cellsAll body ++ .closing d :: row) :=
      apart_cellsAll body h ⟨trivial, hrow⟩ hclose
    have hpadded : Apart (cellsAll body ++ .space :: .closing d :: row) :=
      apart_cellsAll body h ⟨trivial, trivial, hrow⟩ (EndsToken.cons (by decide) _)
    cases d with
    | parenthesis => simpa [cells, Apart, EndsAt] using hinner
    | bracket => simpa [cells, Apart, EndsAt] using hinner
    | brace =>
      cases body with
      | nil => simpa [cells, Apart, EndsAt] using hinner
      | cons u us => simpa [cells, Apart, EndsAt] using hpadded
  | .ident i => exact ⟨hleaf, hrow⟩
  | .lifetime i => exact ⟨hleaf, hrow⟩
  | .punct c joint => exact ⟨hleaf, hrow⟩
  | .literal text => exact ⟨hleaf, hrow⟩

/-- No two tokens of a printed form run together. -/
theorem apart_cellsAll (ts : List TokenTree) (h : LexicalAll ts) {row : List Cell}
    (hrow : Apart row) (hends : EndsToken (charsOf row)) : Apart (cellsAll ts ++ row) := by
  match ts with
  | [] => exact hrow
  | [t] => exact apart_cells t h.1 hrow (.inr hends)
  | t :: u :: us =>
    have hmore := apart_cellsAll (u :: us) h.2.2 hrow hends
    rw [cellsAll, List.append_assoc, List.append_assoc]
    · cases hjoint : t.isJoint with
      | false =>
        exact apart_cells t h.1 ⟨trivial, hmore⟩ (.inr (EndsToken.cons (by decide) _))
      | true =>
        exact apart_cells t h.1 hmore (.inl (endsAt_of_joint hjoint h.2.1 h.2.2 row))
    · simp

end

/-- The cells of a tree do not start with a space. -/
theorem head_cells (t : TokenTree) (row : List Cell) : (t.cells ++ row).head? ≠ some space := by
  cases t with
  | group d body => cases d <;> simp [cells]
  | ident => simp [cells]
  | lifetime => simp [cells]
  | punct => simp [cells]
  | literal => simp [cells]

mutual

/-- The cells of a tree stay tied before a row if its last sign is tied to what comes next. -/
theorem tied_cells (t : TokenTree) {row : List Cell} (hrow : Tied row)
    (hnext : t.isJoint = true → SignNext row → row.head? ≠ some space) : Tied (t.cells ++ row) := by
  match t with
  | .group d body =>
    -- A closing delimiter is no sign, so a joint sign may stand at the end of a group.
    have hclose : ¬SignNext (.closing d :: row) := by simp [SignNext]
    have hinner : Tied (cellsAll body ++ .closing d :: row) :=
      tied_cellsAll body ⟨nofun, hrow⟩ hclose
    have hpadded : Tied (cellsAll body ++ .space :: .closing d :: row) :=
      tied_cellsAll body ⟨nofun, nofun, hrow⟩ hclose
    cases d with
    | parenthesis => simpa [cells, Tied, Cell.isJoint] using hinner
    | bracket => simpa [cells, Tied, Cell.isJoint] using hinner
    | brace =>
      cases body with
      | nil => simpa [cells, Tied, Cell.isJoint] using hinner
      | cons u us => simpa [cells, Tied, Cell.isJoint] using hpadded
  | .ident i => exact ⟨nofun, hrow⟩
  | .lifetime i => exact ⟨nofun, hrow⟩
  | .punct c joint => exact ⟨hnext, hrow⟩
  | .literal text => exact ⟨nofun, hrow⟩

/-- In a printed form no space stands after a joint sign that goes on into another one. -/
theorem tied_cellsAll (ts : List TokenTree) {row : List Cell} (hrow : Tied row)
    (hnext : ¬SignNext row) : Tied (cellsAll ts ++ row) := by
  match ts with
  | [] => exact hrow
  | [t] => exact tied_cells t hrow fun _ h => absurd h hnext
  | t :: u :: us =>
    have hmore := tied_cellsAll (u :: us) hrow hnext
    rw [cellsAll, List.append_assoc, List.append_assoc]
    -- Only a joined token has nothing between itself and the next.
    · cases hjoint : t.isJoint with
      | false => exact tied_cells t ⟨nofun, hmore⟩ fun h => by rw [hjoint] at h; cases h
      | true =>
        obtain ⟨more, hcells⟩ := exists_cellsAll u us
        refine tied_cells t hmore fun _ _ => ?_
        rw [hcells, List.append_assoc]
        exact head_cells u (more ++ row)
    · simp

end

end TokenTree

/-! ## Reading rows -/

namespace Token

open Cell TokenTree

/-- A slash that starts no comment is a token. -/
theorem Lexes.slash {rest : List Char} (hslash : rest.head? ≠ some '/')
    (hstar : rest.head? ≠ some '*') : Lexes ['/'] [.punct '/' (startsPunct rest)] rest := by
  -- What follows is neither `/` nor `*`, so no comment starts here.
  have hnext : ∀ c cs, rest = c :: cs → '/' ≠ c ∧ '*' ≠ c := by
    rintro c cs rfl
    exact ⟨fun heq => hslash (by rw [heq]; rfl), fun heq => hstar (by rw [heq]; rfl)⟩
  have hskip : ∀ fuel, skipSpace (fuel + 1) ('/' :: rest) = '/' :: rest := by
    intro fuel
    have hspace : isSpace '/' = false := by decide
    cases rest with
    | nil => rfl
    | cons c rest =>
      simp [skipSpace, startsLineComment, startsBlockComment, startsWith, hnext c rest rfl, hspace]
  have hdoc : docComment? ('/' :: rest) = none := by
    cases rest with
    | nil => rfl
    | cons c rest => simp [docComment?, startsWith, hnext c rest rfl]
  have hpunct := startsPunct_slash hslash hstar
  refine Lexes.leaf_at hskip hdoc rfl rfl ?_
  rw [List.singleton_append, leaf?, literal?_eq_none (by decide) (by decide)]
  · simp [hpunct]
  · decide

/-- Spaces are read as no tokens. -/
theorem lexes_spaces {row : List Cell} (h : row.filter isMark = []) (rest : List Char) :
    Lexes (charsOf row) [] rest := by
  induction row with
  | nil => exact Lexes.nil rest
  | cons c row ih =>
    cases c with
    | space => exact (ih h).space
    | leaf => cases h
    | opening => cases h
    | closing => cases h

/-- A token that is no group is read where it ends. A joint sign that can go on as an operator stays
joint if a sign follows. -/
theorem lexes_leaf {t : TokenTree} (h : t.Lexical) (hleaf : ∀ d body, t ≠ .group d body)
    {rest : List Char} (hends : (Cell.leaf t).EndsAt rest) {ts : List TokenTree}
    (hjoint : t.isJoint = true → ∀ c, goesOn c ts = true → startsPunct rest = true) :
    ∃ u, Lexes t.text.toList [u] rest ∧
      ∀ us, KeepsOperators us ts → KeepsOperators (u :: us) (t :: ts) := by
  cases t with
  | ident i => exact ⟨_, Lexes.ident h (EndsToken.endsWord hends), fun _ => .keep _⟩
  | lifetime i =>
    refine ⟨_, ?_, fun _ => .keep _⟩
    simpa [TokenTree.text] using Lexes.lifetime h (EndsToken.endsWord hends)
  | punct c joint =>
    refine ⟨.punct c (startsPunct rest), ?_,
      fun _ => .sign c fun hgoes hpunct => hjoint hpunct c hgoes⟩
    rw [TokenTree.text, String.toList_singleton]
    -- The slash is the one sign the reader looks past for a comment.
    by_cases hc : c = '/'
    · subst hc
      exact Lexes.slash hends.1 hends.2
    · exact Lexes.punct h hc rest
  | literal text => exact ⟨_, Lexes.literal h hends, fun _ => .keep _⟩
  | group d body => exact absurd rfl (hleaf d body)

/-- Spaces around a text make no difference. -/
theorem Lexes.padded {first after : List Cell} {cs rest : List Char} {ts : List TokenTree}
    (hfirst : first.filter isMark = []) (hafter : after.filter isMark = [])
    (h : Lexes cs ts (charsOf after ++ rest)) :
    Lexes (charsOf first ++ (cs ++ charsOf after)) ts rest := by
  have hend := h.append (lexes_spaces hafter rest)
  rw [List.append_nil] at hend
  simpa using (lexes_spaces hfirst ((cs ++ charsOf after) ++ rest)).append hend

/-- A group of which the content is read. -/
theorem lexes_group {d : Delimiter} {body rest : List Char} {ts : List TokenTree}
    (h : Lexes body ts (d.closer :: rest)) :
    Lexes (d.opener :: (body ++ [d.closer])) [.group d ts] rest := by
  cases d with
  | parenthesis => exact Lexes.group ⟨by decide, by decide⟩ ⟨by decide, by decide⟩ rfl rfl rfl h
  | bracket => exact Lexes.group ⟨by decide, by decide⟩ ⟨by decide, by decide⟩ rfl rfl rfl h
  | brace => exact Lexes.group ⟨by decide, by decide⟩ ⟨by decide, by decide⟩ rfl rfl rfl h

/-- A row of spaces has no marks. -/
theorem filter_eq_nil_of_forall {row : List Cell} (h : ∀ c ∈ row, ¬c.isMark = true) :
    row.filter isMark = [] := List.filter_eq_nil_iff.mpr h

/-- Tokens that start with a sign make a row of which the next token is a sign. -/
theorem signNext_of_goesOn {c : Char} {ts : List TokenTree} (h : LexicalAll ts)
    (hgoes : goesOn c ts = true) {row : List Cell} (hrow : row.filter isMark = marksAll ts)
    (more : List Cell) : SignNext (row ++ more) := by
  -- An operator can only go on with a sign, which is the next mark of the row.
  cases ts with
  | nil => cases hgoes
  | cons t ts =>
    cases t with
    | punct d joint =>
      refine ⟨d, joint, h.1, ?_⟩
      rw [List.filter_append, hrow]
      rfl
    | ident => cases hgoes
    | lifetime => cases hgoes
    | literal => cases hgoes
    | group => cases hgoes

mutual

/-- The first tree of a row is read where it ends. -/
theorem lexes_tree (t : TokenTree) (h : t.Lexical) {ts : List TokenTree} {row more : List Cell}
    (hrow : row.filter isMark = t.marks) (hnext : ∀ c, goesOn c ts = true → SignNext more)
    (hapart : Apart (row ++ more)) (htied : Tied (row ++ more)) :
    ∃ u, Lexes (charsOf row) [u] (charsOf more) ∧
      ∀ us, KeepsOperators us ts → KeepsOperators (u :: us) (t :: ts) := by
  have hleaf : t.marks = [.leaf t] → (∀ d body, t ≠ .group d body) →
      ∃ u, Lexes (charsOf row) [u] (charsOf more) ∧
        ∀ us, KeepsOperators us ts → KeepsOperators (u :: us) (t :: ts) := by
    intro hmarks hgroup
    rw [hmarks, List.filter_eq_cons_iff] at hrow
    obtain ⟨first, after, rfl, hfirst, -, hafter⟩ := hrow
    rw [List.append_assoc] at hapart htied
    have hends : (leaf t).EndsAt (charsOf (after ++ more)) := hapart.of_append.1
    have hrest : Apart (after ++ more) := hapart.of_append.2
    -- a sign that follows a joint one has no space before it
    have hjoint : t.isJoint = true → ∀ c, goesOn c ts = true →
        startsPunct (charsOf (after ++ more)) = true := by
      intro hjoint c hgoes
      have hsign := (hnext c hgoes).of_spaces hafter
      exact hsign.startsPunct (htied.of_append.1 hjoint hsign) hrest
    rw [charsOf_append] at hends hjoint
    obtain ⟨u, hu, hkeeps⟩ := lexes_leaf h hgroup hends hjoint
    refine ⟨u, ?_, hkeeps⟩
    rw [charsOf_append, charsOf_cons]
    exact Lexes.padded (filter_eq_nil_of_forall hfirst) hafter hu
  match t with
  | .group d body =>
    rw [marks, List.filter_eq_cons_iff] at hrow
    obtain ⟨first, inner, rfl, hfirst, -, hinner⟩ := hrow
    obtain ⟨content, close, rfl, hcontent, hclose⟩ := List.filter_eq_append_iff.mp hinner
    obtain ⟨before, after, rfl, hbefore, -, hafter⟩ := List.filter_eq_cons_iff.mp hclose
    -- the spaces before the closing bracket belong to the content
    have hbody : (content ++ before).filter isMark = marksAll body := by
      rw [List.filter_append, hcontent, filter_eq_nil_of_forall hbefore, List.append_nil]
    have hsplit : (first ++ .opening d :: (content ++ (before ++ .closing d :: after))) ++ more =
        first ++ .opening d :: ((content ++ before) ++ .closing d :: (after ++ more)) := by simp
    rw [hsplit] at hapart htied
    obtain ⟨body', hlexes, hkeeps⟩ :=
      lexes_row body h hbody hapart.of_append.2 htied.of_append.2
    refine ⟨.group d body', ?_, fun us => .group d hkeeps⟩
    have hgroup : Lexes (d.opener :: (charsOf (content ++ before) ++ [d.closer])) [.group d body']
        (charsOf after ++ charsOf more) := by
      rw [← charsOf_append]
      exact lexes_group hlexes
    have hpadded := Lexes.padded (filter_eq_nil_of_forall hfirst) hafter hgroup
    simpa [charsOf, chars] using hpadded
  | .ident i => exact hleaf rfl (by simp)
  | .lifetime i => exact hleaf rfl (by simp)
  | .punct c joint => exact hleaf rfl (by simp)
  | .literal text => exact hleaf rfl (by simp)

/-- A row in which no two tokens run together is read as its tokens in another layout, and no
operator comes apart. -/
theorem lexes_row (ts : List TokenTree) (h : LexicalAll ts) {row more : List Cell}
    (hrow : row.filter isMark = marksAll ts) (hapart : Apart (row ++ more))
    (htied : Tied (row ++ more)) :
    ∃ us, Lexes (charsOf row) us (charsOf more) ∧ KeepsOperators us ts := by
  -- The row is cut after the first tree's marks; spaces go with the part before them.
  match ts with
  | [] => exact ⟨[], lexes_spaces hrow _, .nil⟩
  | t :: ts =>
    rw [marksAll, List.filter_eq_append_iff] at hrow
    obtain ⟨first, rest, rfl, hfirst, hrest⟩ := hrow
    rw [List.append_assoc] at hapart htied
    have hnext := fun c hgoes => @signNext_of_goesOn c ts h.2.2 hgoes rest hrest more
    obtain ⟨u, hu, hkeeps⟩ := lexes_tree t h.1 hfirst hnext hapart htied
    obtain ⟨us, hus, hkeepsAll⟩ := lexes_row ts h.2.2 hrest hapart.of_append htied.of_append
    refine ⟨u :: us, ?_, hkeeps us hkeepsAll⟩
    rw [charsOf_append] at hu ⊢
    exact hu.append hus

end

end Token

end Memberwise
