import Memberwise.Proofs.Layout
import Memberwise.Source.Written

/-!
# Memberwise.Proofs.Tightening — printed tokens drawn together

The replaced words consist of spaces and of signs that are tokens of their own, and no other token
starts or ends with one of these. So an occurrence in a printed text lies inside one literal, or is
a row of whole cells; in the latter case only spaces are dropped.
-/

namespace Memberwise

open Text Token Cell TokenTree

namespace Text

/-! ## Replacing in two parts -/

section

variable {word new x y : List Char}

/-- A word that does not go on over the end of a part lies inside it. -/
theorem prefix_append_iff (hx : x ≠ []) (hlast : ∀ c ∈ x.getLast?, c ∉ word) :
    word <+: x ++ y ↔ word <+: x := by
  constructor
  · rintro ⟨t, ht⟩
    obtain ⟨z, rfl, -⟩ | ⟨z, rfl, -⟩ := List.append_eq_append_iff.mp ht
    · exact List.prefix_append word z
    · have hmem := List.mem_append_left z (List.getLast_mem hx)
      exact absurd hmem (hlast _ (List.getLast?_eq_some_getLast hx))
  · exact fun h => h.trans (List.prefix_append x y)

/-- What is replaced in a part that ends with another character than those of the word does not
depend on what follows. -/
theorem replaceFrom_append {skip : Nat} (hskip : skip ≤ x.length)
    (hlast : ∀ c ∈ x.getLast?, c ∉ word) :
    replaceFrom word new skip (x ++ y) =
      replaceFrom word new skip x ++ replaceFrom word new 0 y := by
  induction x generalizing skip with
  | nil =>
    obtain rfl : skip = 0 := Nat.le_zero.mp hskip
    cases y <;> rfl
  | cons c x ih =>
    have hlast' : ∀ d ∈ x.getLast?, d ∉ word := by
      intro d hd
      cases x with
      | nil => cases hd
      | cons e x => exact hlast d (by rw [List.getLast?_cons_cons]; exact hd)
    cases skip with
    | succ skip => exact ih (Nat.le_of_succ_le_succ hskip) hlast'
    | zero =>
      -- no occurrence goes over the end of the first part
      have hstarts : word.isPrefixOf (c :: (x ++ y)) = word.isPrefixOf (c :: x) := by
        rw [Bool.eq_iff_iff, List.isPrefixOf_iff_prefix, List.isPrefixOf_iff_prefix]
        exact prefix_append_iff (List.cons_ne_nil c x) hlast
      rw [List.cons_append, replaceFrom, replaceFrom, hstarts]
      split
      · next hword =>
        have hlength := (List.isPrefixOf_iff_prefix.mp hword).length_le
        rw [List.length_cons] at hlength
        rw [ih (by omega) hlast', List.append_assoc]
      · rw [ih (Nat.zero_le _) hlast', List.cons_append]

/-- The characters that a replaced word covers are passed over. -/
theorem replaceFrom_skip : replaceFrom word new x.length (x ++ y) = replaceFrom word new 0 y := by
  induction x with
  | nil => rfl
  | cons c x ih => exact ih

/-- Where the word is found it is replaced. -/
theorem replaceFrom_word (hword : word ≠ []) :
    replaceFrom word new 0 (word ++ y) = new ++ replaceFrom word new 0 y := by
  cases word with
  | nil => exact absurd rfl hword
  | cons c w =>
    have hstarts : (c :: w).isPrefixOf (c :: (w ++ y)) = true :=
      List.isPrefixOf_iff_prefix.mpr (List.prefix_append (c :: w) y)
    rw [List.cons_append, replaceFrom, if_pos hstarts, List.length_cons, Nat.add_sub_cancel,
      replaceFrom_skip]

/-- Where the word is not found the text goes on. -/
theorem replaceFrom_cons {c : Char} (h : ¬word <+: c :: y) :
    replaceFrom word new 0 (c :: y) = c :: replaceFrom word new 0 y := by
  rw [replaceFrom, if_neg (by rwa [List.isPrefixOf_iff_prefix])]

/-- A text without the first character of the word stays. -/
theorem replaceFrom_of_notMem {c : Char} {w : List Char} (h : c ∉ x) :
    replaceFrom (c :: w) new 0 x = x := by
  induction x with
  | nil => rfl
  | cons d x ih =>
    obtain ⟨hne, hx⟩ := not_or.mp (List.mem_cons.not.mp h)
    rw [replaceFrom_cons (fun hstarts => hne (List.cons_prefix_cons.mp hstarts).1), ih hx]

/-- Replacing words by shorter ones makes no text longer. -/
theorem length_replaceFrom_le (hword : word ≠ []) (hnew : new.length ≤ word.length) {skip : Nat}
    (hskip : skip ≤ x.length) : (replaceFrom word new skip x).length + skip ≤ x.length := by
  -- Induction on the text; a replacement gives back what it skips.
  induction x generalizing skip with
  | nil => simpa [replaceFrom] using hskip
  | cons c x ih =>
    cases skip with
    | succ skip =>
      have hmore := ih (Nat.le_of_succ_le_succ hskip)
      rw [replaceFrom, List.length_cons]
      omega
    | zero =>
      rw [replaceFrom]
      split
      · next hstarts =>
        have hlength := (List.isPrefixOf_iff_prefix.mp hstarts).length_le
        have hpos := List.length_pos_iff.mpr hword
        rw [List.length_cons] at hlength ⊢
        have hmore := @ih (word.length - 1) (by omega)
        rw [List.length_append]
        omega
      · have hmore := @ih 0 (Nat.zero_le _)
        simp only [List.length_cons]
        omega

/-- A text in which the word does not occur stays. -/
theorem replaceFrom_of_not_infix (h : ¬word <:+: x) : replaceFrom word new 0 x = x := by
  induction x with
  | nil => rfl
  | cons c x ih =>
    rw [List.infix_cons_iff, not_or] at h
    rw [replaceFrom_cons h.1, ih h.2]

/-- A text in which the word occurs gets shorter, if what stands for the word is. -/
theorem length_replaceFrom_lt (hnew : new.length < word.length) (h : word <:+: x) :
    (replaceFrom word new 0 x).length < x.length := by
  have hword : word ≠ [] := List.ne_nil_of_length_pos (by omega)
  -- Induction on the text: the word stands here, or further on.
  induction x with
  | nil => exact absurd (List.infix_nil.mp h) hword
  | cons c x ih =>
    by_cases hstarts : word <+: c :: x
    · obtain ⟨t, ht⟩ := hstarts
      have hrest := @length_replaceFrom_le word new t hword hnew.le 0 (Nat.zero_le _)
      rw [← ht, replaceFrom_word hword, List.length_append, List.length_append]
      omega
    · have hrest := ih ((List.infix_cons_iff.mp h).resolve_left hstarts)
      rw [replaceFrom_cons hstarts, List.length_cons, List.length_cons]
      omega

end

end Text

/-! ## Dropping spaces -/

namespace Token

/-- Spaces are dropped one after another, each beside a sign at which none is kept. -/
def DropsTo : List Char → List Char → Prop :=
  Relation.ReflTransGen fun cs ds => ∃ u v, cs = u ++ ' ' :: v ∧ ds = u ++ v ∧ Soft u v

namespace DropsTo

variable {u v cs ds : List Char}

/-- A space before a sign of this kind is dropped. -/
theorem before {c : Char} (hc : c ∈ softBefore) : DropsTo (' ' :: c :: v) (c :: v) :=
  .single ⟨[], c :: v, rfl, rfl, .inr ⟨c, rfl, hc⟩⟩

/-- A space after a sign of this kind is dropped. -/
theorem after {c : Char} (hc : c ∈ softAfter) : DropsTo (c :: ' ' :: v) (c :: v) :=
  .single ⟨[c], v, rfl, rfl, .inl ⟨c, rfl, hc⟩⟩

/-- What is dropped after a character is dropped from the whole text. -/
theorem cons (c : Char) (h : DropsTo cs ds) : DropsTo (c :: cs) (c :: ds) := by
  refine Relation.ReflTransGen.lift (c :: ·) ?_ _ _ h
  rintro _ _ ⟨u, v, rfl, rfl, hsoft⟩
  refine ⟨c :: u, v, rfl, rfl, ?_⟩
  cases u with
  | nil => exact hsoft.imp nofun id
  | cons d u => rwa [Soft, List.getLast?_cons_cons]

/-- What is dropped after a text is dropped from the whole text. -/
theorem append (x : List Char) (h : DropsTo cs ds) : DropsTo (x ++ cs) (x ++ ds) := by
  induction x with
  | nil => exact h
  | cons c x ih => exact ih.cons c

end DropsTo

/-- A literal of which spaces are dropped is still a literal. -/
theorem LiteralText.dropsTo {cs ds : List Char} (h : LiteralText cs) (hdrops : DropsTo cs ds) :
    LiteralText ds := by
  induction hdrops with
  | refl => exact h
  | tail _ hstep ih =>
    obtain ⟨u, v, rfl, rfl, hsoft⟩ := hstep
    exact ih.drop hsoft

end Token

namespace Source

/-- What is replaced is shorter by spaces beside signs at which none is kept. -/
theorem dropsTo_of_mem_tightenings {word new : String} (h : (word, new) ∈ tightenings)
    (cs : List Char) : DropsTo (word.toList ++ cs) (new.toList ++ cs) := by
  simp only [tightenings, List.mem_cons, Prod.mk.injEq, List.not_mem_nil, or_false] at h
  rcases h with ⟨rfl, rfl⟩ | ⟨rfl, rfl⟩ | ⟨rfl, rfl⟩ | ⟨rfl, rfl⟩ | ⟨rfl, rfl⟩ | ⟨rfl, rfl⟩ |
    ⟨rfl, rfl⟩
  · exact (DropsTo.before (by decide)).trans ((DropsTo.after (by decide)).cons ':')
  · exact (DropsTo.after (by decide)).cons ':'
  · exact DropsTo.before (by decide)
  · exact DropsTo.after (by decide)
  · exact DropsTo.before (by decide)
  · exact DropsTo.before (by decide)
  · exact DropsTo.after (by decide)

/-- The words that are replaced have only characters of spacing, and what stands for them is
shorter. -/
theorem tightenings_facts : ∀ e ∈ tightenings, (∀ c ∈ e.1.toList, c ∈ spacing) ∧
    e.2.toList.length < e.1.toList.length := by
  intro e he
  simp only [tightenings, List.mem_cons, List.not_mem_nil, or_false] at he
  rcases he with rfl | rfl | rfl | rfl | rfl | rfl | rfl <;>
    exact ⟨forall_mem_of_all (by decide), by decide⟩

/-- What is replaced in a text is shorter by spaces beside signs at which none is kept. -/
theorem dropsTo_replaceAll {word new : String} (h : (word, new) ∈ tightenings) (cs : List Char) :
    DropsTo cs (replaceAll word new cs) := by
  have hshorter : new.toList.length < word.toList.length := (tightenings_facts _ h).2
  have hword : word.toList ≠ [] := List.ne_nil_of_length_pos (by omega)
  -- Strong induction on the length, as a replacement skips a whole word.
  induction hlength : cs.length using Nat.strong_induction_on generalizing cs with
  | _ n ih =>
    by_cases hstarts : word.toList <+: cs
    · obtain ⟨t, rfl⟩ := hstarts
      rw [replaceAll, replaceFrom_word hword]
      rw [List.length_append] at hlength
      have hpos := List.length_pos_iff.mpr hword
      exact (dropsTo_of_mem_tightenings h t).trans ((ih t.length (by omega) t rfl).append _)
    · cases cs with
      | nil => exact .refl
      | cons c cs =>
        rw [replaceAll, replaceFrom_cons hstarts]
        rw [List.length_cons] at hlength
        exact (ih cs.length (by omega) cs rfl).cons c

end Source

/-! ## Cells -/

namespace Cell

/-- A cell with another text in place of its literal. -/
def mapLiteral (f : String → String) : Cell → Cell
  | leaf t => leaf (t.mapLiterals f)
  | c => c

/-- The token of a cell is no group and is read from its own text. -/
def Lexical : Cell → Prop
  | leaf t => t.Lexical ∧ ∀ d body, t ≠ .group d body
  | _ => True

/-- The cells are the spaces and signs that the characters are. -/
inductive Spells : List Cell → List Char → Prop where
  | nil : Spells [] []
  | space {row : List Cell} {w : List Char} (h : Spells row w) : Spells (space :: row) (' ' :: w)
  | sign {c : Char} {joint : Bool} {row : List Cell} {w : List Char} (hc : c ≠ ' ')
      (h : Spells row w) : Spells (leaf (.punct c joint) :: row) (c :: w)

/-- Cells that spell a word have its characters. -/
theorem Spells.charsOf {row : List Cell} {w : List Char} (h : Spells row w) : charsOf row = w := by
  induction h with
  | nil => rfl
  | space _ ih => rw [charsOf_cons, ih]; rfl
  | sign hc _ ih => rw [charsOf_cons, ih, chars, text, String.toList_singleton]; rfl

/-- An identifier has none of the characters that spaces are dropped at. -/
theorem notMem_spacing_of_ident {i : Ident} (h : i.Lexical) : ∀ x ∈ i.text.toList, x ∉ spacing := by
  have hname : ∀ x ∈ i.name.toList, x ∉ spacing := by
    intro x hx hmem
    have hcontinue := h.1.isIdentContinue x hx
    rw [isIdentContinue_of_spacing x hmem] at hcontinue
    cases hcontinue
  cases hraw : i.raw with
  | false => rwa [toList_text_plain hraw]
  | true =>
    rw [toList_text_raw hraw, List.forall_mem_cons, List.forall_mem_cons]
    exact ⟨by decide, by decide, hname⟩

/-- A cell is a space or a sign of spacing, a literal, or has other characters only. -/
theorem Lexical.cases {c : Cell} (h : c.Lexical) :
    (∃ x ∈ spacing, Spells [c] [x] ∧ ∀ f, c.mapLiteral f = c) ∨
      (∃ text, c = leaf (.literal text) ∧ LiteralText text.toList) ∨
        c.chars ≠ [] ∧ (∀ x ∈ c.chars, x ∉ spacing) ∧ ∀ f, c.mapLiteral f = c := by
  cases c with
  | space => exact .inl ⟨' ', by decide, .space .nil, fun _ => rfl⟩
  | opening d =>
    refine .inr (.inr ⟨List.cons_ne_nil _ _, ?_, fun _ => rfl⟩)
    cases d <;> exact forall_mem_of_all (by decide)
  | closing d =>
    refine .inr (.inr ⟨List.cons_ne_nil _ _, ?_, fun _ => rfl⟩)
    cases d <;> exact forall_mem_of_all (by decide)
  | leaf t =>
    cases t with
    -- of the tokens, only punctuation can be a sign of spacing
    | ident i =>
      obtain ⟨c, cs, htext, -⟩ := exists_text_eq_cons h.1
      have hne : i.text.toList ≠ [] := by rw [htext]; exact List.cons_ne_nil c cs
      exact .inr (.inr ⟨hne, notMem_spacing_of_ident h.1, fun _ => rfl⟩)
    | lifetime i =>
      have hchars : (leaf (.lifetime i)).chars = '\'' :: i.text.toList := by simp [chars, text]
      refine .inr (.inr ⟨by rw [hchars]; exact List.cons_ne_nil _ _, ?_, fun _ => rfl⟩)
      rw [hchars, List.forall_mem_cons]
      exact ⟨by decide, notMem_spacing_of_ident h.1⟩
    | punct c joint =>
      have hchars : (leaf (.punct c joint)).chars = [c] := by
        rw [chars, TokenTree.text, String.toList_singleton]
      have hspace : c ≠ ' ' := by
        have hpunct : c ∈ punctuation := h.1
        rintro rfl
        exact absurd hpunct (by decide)
      by_cases hc : c ∈ spacing
      · exact .inl ⟨c, hc, .sign hspace .nil, fun _ => rfl⟩
      · refine .inr (.inr ⟨by rw [hchars]; exact List.cons_ne_nil _ _, ?_, fun _ => rfl⟩)
        rw [hchars]
        exact List.forall_mem_singleton.mpr hc
    | literal text => exact .inr (.inl ⟨text, rfl, h.1⟩)
    | group d body => exact absurd rfl (h.2 d body)

/-- A literal starts with no space and no sign of spacing. -/
theorem head_notMem_spacing {text : List Char} (h : LiteralText text) :
    ∀ x ∈ text.head?, x ∉ spacing := by
  obtain ⟨c, cs, rfl, hc⟩ := h.start
  rintro x hx hmem
  cases hx
  have hnot : ∀ d ∈ spacing, d ∉ ['"', '\'', 'r', 'b', 'c'] ∧ d.isDigit = false :=
    forall_mem_of_all (by decide)
  rcases hc with hc | hc
  · exact (hnot c hmem).1 hc
  · rw [(hnot c hmem).2] at hc
    cases hc

/-- Where a row starts with a space or a sign of spacing, its first cell is that. -/
theorem Lexical.spells_head {c : Cell} (h : c.Lexical) {row : List Cell} {x : Char}
    (hx : x ∈ spacing) (hhead : (charsOf (c :: row)).head? = some x) : Spells [c] [x] := by
  have hnot : c.chars ≠ [] → (∀ y ∈ c.chars.head?, y ∉ spacing) → False := by
    intro hne hother
    obtain ⟨y, ys, hchars⟩ := List.exists_cons_of_ne_nil hne
    rw [charsOf_cons, hchars] at hhead
    rw [hchars] at hother
    exact hother y rfl (Option.some.inj hhead ▸ hx)
  -- a literal or another token starts with no character of spacing
  rcases h.cases with ⟨y, -, hspells, -⟩ | ⟨text, rfl, htext⟩ | ⟨hne, hother, -⟩
  · have hone := hspells.charsOf
    rw [charsOf_cons, charsOf_nil, List.append_nil] at hone
    rw [charsOf_cons, hone] at hhead
    cases hhead
    exact hspells
  · obtain ⟨d, ds, hchars, -⟩ := htext.start
    refine (hnot ?_ (head_notMem_spacing htext)).elim
    rw [chars, TokenTree.text, hchars]
    exact List.cons_ne_nil d ds
  · exact (hnot hne fun y hy => hother y (List.mem_of_mem_head? hy)).elim

/-- A cell for one character goes before cells that spell a word. -/
theorem Spells.cons {c : Cell} {row : List Cell} {x : Char} {w : List Char}
    (hcell : Spells [c] [x]) (h : Spells row w) : Spells (c :: row) (x :: w) := by
  cases hcell with
  | space => exact .space h
  | sign hne => exact .sign hne h

/-- A word of spaces and signs that a row starts with is spelled by whole cells. -/
theorem exists_spells {w : List Char} (hw : ∀ x ∈ w, x ∈ spacing) {row : List Cell}
    (hrow : ∀ c ∈ row, c.Lexical) (h : w <+: charsOf row) :
    ∃ cells rest, row = cells ++ rest ∧ Spells cells w := by
  -- Induction on the word: each of its characters is the first of a cell that is one character.
  induction w generalizing row with
  | nil => exact ⟨[], row, rfl, .nil⟩
  | cons x w ih =>
    obtain ⟨hx, hw⟩ := List.forall_mem_cons.mp hw
    cases row with
    | nil => exact absurd (List.prefix_nil.mp h) (List.cons_ne_nil x w)
    | cons c row =>
      obtain ⟨hc, hrow⟩ := List.forall_mem_cons.mp hrow
      have hhead : (charsOf (c :: row)).head? = some x := by
        obtain ⟨t, ht⟩ := h
        rw [← ht]
        rfl
      have hcell : Spells [c] [x] := hc.spells_head hx hhead
      have hchars : charsOf (c :: row) = x :: charsOf row := by
        have hone := hcell.charsOf
        rw [charsOf_cons, charsOf_nil, List.append_nil] at hone
        rw [charsOf_cons, hone]
        rfl
      rw [hchars, List.cons_prefix_cons] at h
      obtain ⟨cells, rest, rfl, hcells⟩ := ih hw hrow h.2
      exact ⟨c :: cells, rest, rfl, hcell.cons hcells⟩

namespace Spells

variable {cells : List Cell} {w : List Char}

/-- No cells spell the empty word. -/
theorem of_nil (h : Spells cells []) : cells = [] := by
  cases h
  rfl

/-- A word that starts with a space is spelled with a space in front. -/
theorem of_space (h : Spells cells (' ' :: w)) :
    ∃ row, cells = Cell.space :: row ∧ Spells row w := by
  cases h with
  | space h => exact ⟨_, rfl, h⟩
  | sign hc => exact absurd rfl hc

/-- A word that starts with a sign is spelled with the token of this sign in front. -/
theorem of_sign {c : Char} (hc : c ≠ ' ') (h : Spells cells (c :: w)) :
    ∃ joint row, cells = leaf (.punct c joint) :: row ∧ Spells row w := by
  cases h with
  | space => exact absurd rfl hc
  | sign _ h => exact ⟨_, _, rfl, h⟩

end Spells

/-- The second row is the first with other texts of literals, and without some of the spaces beside
signs at which none is kept. -/
inductive Tighter (f : String → String) : List Cell → List Cell → Prop where
  | nil : Tighter f [] []
  | keep (c : Cell) {row row' : List Cell} (h : Tighter f row row') :
      Tighter f (c :: row) (c.mapLiteral f :: row')
  | before {c : Char} {joint : Bool} {row row' : List Cell} (hc : c ∈ softBefore)
      (h : Tighter f (leaf (.punct c joint) :: row) row') :
      Tighter f (space :: leaf (.punct c joint) :: row) row'
  | after {c : Char} {joint : Bool} {row row' : List Cell} (hc : c ∈ softAfter)
      (h : Tighter f row row') :
      Tighter f (leaf (.punct c joint) :: space :: row) (leaf (.punct c joint) :: row')

/-- Whatever follows, the cells become cells with this text when they are drawn together. -/
def TightensTo (cells : List Cell) (new : List Char) : Prop :=
  ∃ cells', charsOf cells' = new ∧ ∀ f row row', Tighter f row row' →
    Tighter f (cells ++ row) (cells' ++ row')

namespace Spells

variable {cells : List Cell} {c : Char}

/-- Cells that spell a space and a sign are drawn together to the sign. -/
theorem tightensTo_of_before (hne : c ≠ ' ') (hc : c ∈ softBefore) (h : Spells cells [' ', c]) :
    TightensTo cells [c] := by
  obtain ⟨_, rfl, hsign⟩ := h.of_space
  obtain ⟨joint, _, rfl, hend⟩ := hsign.of_sign hne
  obtain rfl := hend.of_nil
  exact ⟨[leaf (.punct c joint)], (Spells.sign hne .nil).charsOf,
    fun f row row' h => .before hc (.keep _ h)⟩

/-- Cells that spell a sign and a space are drawn together to the sign. -/
theorem tightensTo_of_after (hne : c ≠ ' ') (hc : c ∈ softAfter) (h : Spells cells [c, ' ']) :
    TightensTo cells [c] := by
  obtain ⟨joint, _, rfl, hspace⟩ := h.of_sign hne
  obtain ⟨_, rfl, hend⟩ := hspace.of_space
  obtain rfl := hend.of_nil
  exact ⟨[leaf (.punct c joint)], (Spells.sign hne .nil).charsOf, fun f row row' h => .after hc h⟩

/-- Double colons with a space after them are three cells. -/
theorem eq_colons (h : Spells cells [':', ':', ' ']) :
    ∃ j k, cells = [leaf (.punct ':' j), leaf (.punct ':' k), Cell.space] := by
  obtain ⟨j, _, rfl, hsecond⟩ := h.of_sign (by decide)
  obtain ⟨k, _, rfl, hspace⟩ := hsecond.of_sign (by decide)
  obtain ⟨_, rfl, hend⟩ := hspace.of_space
  obtain rfl := hend.of_nil
  exact ⟨j, k, rfl⟩

end Spells

/-- Double colons are two characters. -/
theorem charsOf_colons (j k : Bool) :
    charsOf [leaf (.punct ':' j), leaf (.punct ':' k)] = [':', ':'] :=
  (Spells.sign (by decide) (Spells.sign (by decide) .nil)).charsOf

/-- Where a replaced word is spelled by whole cells, spaces are dropped. -/
theorem tightensTo_of_mem_tightenings {word new : String} (h : (word, new) ∈ Source.tightenings)
    {cells : List Cell} (hcells : Spells cells word.toList) : TightensTo cells new.toList := by
  simp only [Source.tightenings, List.mem_cons, Prod.mk.injEq, List.not_mem_nil, or_false] at h
  rcases h with ⟨rfl, rfl⟩ | ⟨rfl, rfl⟩ | ⟨rfl, rfl⟩ | ⟨rfl, rfl⟩ | ⟨rfl, rfl⟩ | ⟨rfl, rfl⟩ |
    ⟨rfl, rfl⟩
  -- both spaces around a pair of colons, then only the one after it
  · obtain ⟨_, rfl, hrest⟩ := Spells.of_space hcells
    obtain ⟨j, k, rfl⟩ := hrest.eq_colons
    exact ⟨_, charsOf_colons j k,
      fun f row row' h => .before (by decide) (.keep _ (.after (by decide) h))⟩
  · obtain ⟨j, k, rfl⟩ := Spells.eq_colons hcells
    exact ⟨_, charsOf_colons j k, fun f row row' h => .keep _ (.after (by decide) h)⟩
  -- one space at a single sign
  · exact hcells.tightensTo_of_before (by decide) (by decide)
  · exact hcells.tightensTo_of_after (by decide) (by decide)
  · exact hcells.tightensTo_of_before (by decide) (by decide)
  · exact hcells.tightensTo_of_before (by decide) (by decide)
  · exact hcells.tightensTo_of_after (by decide) (by decide)

/-- A literal's text with a word replaced. -/
def replaced (word new : String) (text : String) : String :=
  String.ofList (replaceAll word new text.toList)

/-- Where no occurrence starts at a cell, that cell stays, but for what is replaced in a literal. -/
theorem replaceAll_cons {word new : String} (hword : ∀ c ∈ word.toList, c ∈ spacing) {c : Cell}
    (hc : c.Lexical) {row : List Cell} (hstarts : ¬word.toList <+: charsOf (c :: row)) :
    replaceAll word new (charsOf (c :: row)) =
      (c.mapLiteral (replaced word new)).chars ++ replaceAll word new (charsOf row) := by
  -- No word that is replaced starts inside the cell and ends outside it.
  have hparts : (∀ x ∈ c.chars.getLast?, x ∉ spacing) → replaceAll word new (charsOf (c :: row)) =
      replaceAll word new c.chars ++ replaceAll word new (charsOf row) :=
    fun hlast => replaceFrom_append (Nat.zero_le _) fun x hx hmem => hlast x hx (hword x hmem)
  -- The cell is one character of spacing, a literal, or a token without any.
  rcases hc.cases with ⟨x, -, hspells, hsame⟩ | ⟨text, rfl, htext⟩ | ⟨-, hother, hsame⟩
  · have hchars : c.chars = [x] := by
      have hone := hspells.charsOf
      rwa [charsOf_cons, charsOf_nil, List.append_nil] at hone
    rw [charsOf_cons, hchars] at hstarts ⊢
    rw [hsame, hchars]
    exact replaceFrom_cons hstarts
  · rw [hparts htext.ends, mapLiteral, mapLiterals, chars, chars, TokenTree.text, TokenTree.text,
      replaced, String.toList_ofList]
  · rw [hparts fun x hx => hother x (List.mem_of_getLast? hx), hsame]
    have hstay : replaceAll word new c.chars = c.chars := by
      cases hw : word.toList with
      | nil => exact absurd (hw ▸ List.nil_prefix) hstarts
      | cons d w =>
        have hd : d ∈ spacing := hword d (by simp [hw])
        rw [replaceAll, hw]
        exact replaceFrom_of_notMem fun hmem => hother d hmem hd
    rw [hstay]

/-- Replacing a word in a row changes the literals in which it occurs, and drops spaces. -/
theorem exists_tighter {word new : String} (h : (word, new) ∈ Source.tightenings) {row : List Cell}
    (hrow : ∀ c ∈ row, c.Lexical) :
    ∃ row', replaceAll word new (charsOf row) = charsOf row' ∧
      Tighter (replaced word new) row row' := by
  obtain ⟨hspacing, hshorter⟩ : (∀ c ∈ word.toList, c ∈ spacing) ∧
      new.toList.length < word.toList.length := Source.tightenings_facts _ h
  have hword : word.toList ≠ [] := List.ne_nil_of_length_pos (by omega)
  induction hlength : row.length using Nat.strong_induction_on generalizing row with
  | _ n ih =>
    by_cases hstarts : word.toList <+: charsOf row
    · -- an occurrence of whole cells
      obtain ⟨cells, rest, rfl, hcells⟩ := exists_spells hspacing hrow hstarts
      obtain ⟨cells', hnew, htighter⟩ := tightensTo_of_mem_tightenings h hcells
      have hpos : 0 < cells.length := by
        cases cells with
        | nil => exact absurd hcells.charsOf.symm hword
        | cons c cells => exact Nat.succ_pos _
      rw [List.length_append] at hlength
      obtain ⟨row', heq, hrow'⟩ := ih rest.length (by omega)
        (fun c hc => hrow c (List.mem_append_right cells hc)) rfl
      refine ⟨cells' ++ row', ?_, htighter _ _ _ hrow'⟩
      rw [charsOf_append, charsOf_append, hcells.charsOf, hnew, replaceAll, replaceFrom_word hword,
        ← heq, replaceAll]
    · cases row with
      | nil => exact ⟨[], rfl, .nil⟩
      | cons c row =>
        obtain ⟨hc, hrow⟩ := List.forall_mem_cons.mp hrow
        obtain ⟨row', heq, hrow'⟩ := ih row.length (by simp [← hlength]) hrow rfl
        refine ⟨c.mapLiteral (replaced word new) :: row', ?_, .keep c hrow'⟩
        rw [replaceAll_cons hspacing hc hstarts, heq, charsOf_cons]

/-! ## What tightening keeps -/

/-- The texts that stand in place of literals are literals and start like them. -/
structure KeepsLiterals (f : String → String) : Prop where
  literal : ∀ text : String, LiteralText text.toList → LiteralText (f text).toList
  head : ∀ text : String, LiteralText text.toList → (f text).toList.head? = text.toList.head?

/-- A literal in which a word was replaced is a literal, and starts and ends as before. -/
theorem keepsLiterals_replaced {word new : String} (h : (word, new) ∈ Source.tightenings) :
    KeepsLiterals (replaced word new) where
  literal text htext := by
    rw [replaced, String.toList_ofList]
    exact htext.dropsTo (Source.dropsTo_replaceAll h _)
  head text htext := by
    -- A literal never starts with spacing, so its first character is not replaced.
    obtain ⟨hspacing, hshorter⟩ : (∀ c ∈ word.toList, c ∈ spacing) ∧
        new.toList.length < word.toList.length := Source.tightenings_facts _ h
    obtain ⟨c, cs, htextChars, -⟩ := htext.start
    have hc : c ∉ spacing := head_notMem_spacing htext c (by rw [htextChars]; rfl)
    have hstarts : ¬word.toList <+: c :: cs := by
      intro hstarts
      cases hw : word.toList with
      | nil => simp [hw] at hshorter
      | cons d w =>
        rw [hw, List.cons_prefix_cons] at hstarts
        exact hc (hstarts.1 ▸ hspacing d (by simp [hw]))
    rw [replaced, String.toList_ofList, htextChars, replaceAll, replaceFrom_cons hstarts]
    rfl

/-- A change of literals makes no mark a space. -/
theorem isMark_mapLiteral (f : String → String) (c : Cell) :
    (c.mapLiteral f).isMark = c.isMark := by
  cases c <;> rfl

/-- A changed literal ends where the literal did. -/
theorem endsAt_mapLiteral (f : String → String) (c : Cell) (rest : List Char) :
    (c.mapLiteral f).EndsAt rest ↔ c.EndsAt rest := by
  cases c with
  | leaf t => cases t <;> exact Iff.rfl
  | space => exact Iff.rfl
  | opening => exact Iff.rfl
  | closing => exact Iff.rfl

/-- Where a token ends depends on the next character alone. -/
theorem EndsAt.congr {c : Cell} {rest rest' : List Char} (h : c.EndsAt rest)
    (hhead : rest'.head? = rest.head?) : c.EndsAt rest' := by
  have htoken : EndsToken rest → EndsToken rest' := fun h d hd => h d (hhead ▸ hd)
  cases c with
  | leaf t =>
    cases t with
    | punct c joint =>
      -- The slash looks at the very next character; every other leaf only asks where tokens end.
      by_cases hc : c = '/'
      · subst hc
        exact ⟨hhead ▸ h.1, hhead ▸ h.2⟩
      · exact endsAt_punct hc joint rest'
    | ident => exact htoken h
    | lifetime => exact htoken h
    | literal => exact htoken h
    | group => exact htoken h
  | space => trivial
  | opening => trivial
  | closing => trivial

/-- A changed literal starts with the character that the literal started with. -/
theorem Lexical.head_mapLiteral {f : String → String} (hf : KeepsLiterals f) {c : Cell}
    (h : c.Lexical) (row row' : List Cell) :
    (charsOf (c.mapLiteral f :: row')).head? = (charsOf (c :: row)).head? := by
  -- A text that is not empty has the same head whatever is appended to it.
  have hpart : ∀ {x y a b : List Char}, x ≠ [] → y.head? = x.head? →
      (y ++ b).head? = (x ++ a).head? := by
    intro x y a b hx hhead
    obtain ⟨d, x, rfl⟩ := List.exists_cons_of_ne_nil hx
    obtain ⟨y, rfl⟩ := List.head?_eq_some_iff.mp hhead
    rfl
  rw [charsOf_cons, charsOf_cons]
  rcases h.cases with ⟨x, -, hspells, hsame⟩ | ⟨text, rfl, htext⟩ | ⟨hne, -, hsame⟩
  · rw [hsame]
    refine hpart (fun hnil => ?_) rfl
    have hone := hspells.charsOf
    rw [charsOf_cons, charsOf_nil, hnil] at hone
    cases hone
  · obtain ⟨d, ds, hchars, -⟩ := htext.start
    refine hpart ?_ (hf.head text htext)
    rw [chars, TokenTree.text, hchars]
    exact List.cons_ne_nil d ds
  · rw [hsame]
    exact hpart hne rfl

namespace Tighter

variable {f : String → String} {row row' : List Cell}

/-- No token is lost, and only literals change. -/
theorem filter_isMark (h : Tighter f row row') :
    row'.filter isMark = (row.filter isMark).map (mapLiteral f) := by
  induction h with
  | nil => rfl
  | keep c h ih =>
    rw [List.filter_cons, List.filter_cons, isMark_mapLiteral, ih]
    split <;> rfl
  | before hc h ih => exact ih
  | after hc h ih =>
    rw [List.filter_cons, List.filter_cons, List.filter_cons, ih]
    rfl

/-- A row that starts with a sign still starts with it when it is drawn together. -/
theorem head_sign {c : Char} {joint : Bool} (h : Tighter f (leaf (.punct c joint) :: row) row') :
    (charsOf row').head? = some c := by
  cases h <;> simp [charsOf_cons, chars, mapLiteral, mapLiterals, TokenTree.text]

/-- A token that ended before a row ends before the row drawn together. -/
theorem endsAt (hf : KeepsLiterals f) (hrow : ∀ c ∈ row, c.Lexical) (h : Tighter f row row')
    {c : Cell} (hends : c.EndsAt (charsOf row)) : c.EndsAt (charsOf row') := by
  cases h with
  | nil => exact hends
  | keep d h => exact hends.congr ((hrow d List.mem_cons_self).head_mapLiteral hf _ _)
  | before hd h =>
    have hsoft : ∀ d ∈ softBefore, d ∈ tokenEnds := forall_mem_of_all (by decide)
    refine c.endsAt_of_endsToken fun e he => ?_
    rw [h.head_sign] at he
    cases he
    exact hsoft _ hd
  | after hd h => exact hends.congr (by simp [charsOf_cons, chars, TokenTree.text])

/-- Nothing runs together where spaces are dropped. -/
theorem apart (hf : KeepsLiterals f) (hrow : ∀ c ∈ row, c.Lexical) (h : Tighter f row row')
    (hapart : Apart row) : Apart row' := by
  induction h with
  | nil => trivial
  | keep c h ih =>
    have hrest := (List.forall_mem_cons.mp hrow).2
    exact ⟨(endsAt_mapLiteral f c _).mpr (h.endsAt hf hrest hapart.1), ih hrest hapart.2⟩
  | before hc h ih => exact ih (List.forall_mem_cons.mp hrow).2 hapart.2
  -- Behind the sign a space is dropped; only a slash would mind, and it is not such a sign.
  | @after c joint row row' hc h ih =>
    have hslash : c ≠ '/' := by
      rintro rfl
      exact absurd hc (by decide)
    have hrest := fun d hd => hrow d (List.mem_cons_of_mem _ (List.mem_cons_of_mem _ hd))
    exact ⟨endsAt_punct hslash joint _, ih hrest hapart.2.2⟩

/-- If a sign comes next in the row drawn together, one came next before. -/
theorem signNext (h : Tighter f row row') (hnext : SignNext row') : SignNext row := by
  obtain ⟨c, joint, hc, hhead⟩ := hnext
  rw [h.filter_isMark, List.head?_map, Option.map_eq_some_iff] at hhead
  obtain ⟨d, hd, heq⟩ := hhead
  refine ⟨c, joint, hc, ?_⟩
  -- only a literal changes, and a sign is none
  cases d with
  | leaf t =>
    cases t with
    | punct => rw [hd]; exact congrArg some heq
    | ident => cases heq
    | lifetime => cases heq
    | literal => cases heq
    | group => cases heq
  | space => cases heq
  | opening => cases heq
  | closing => cases heq

/-- No space comes to stand in front. -/
theorem head_ne_space (h : Tighter f row row') (hhead : row.head? ≠ some space) :
    row'.head? ≠ some space := by
  cases h with
  | nil => exact hhead
  | keep c h =>
    cases c with
    | space => exact absurd rfl hhead
    | leaf t => simp [mapLiteral]
    | opening d => simp [mapLiteral]
    | closing d => simp [mapLiteral]
  | before hc h => exact absurd rfl hhead
  | after hc h => simp

/-- Dropping spaces parts no operator. -/
theorem tied (h : Tighter f row row') (htied : Tied row) : Tied row' := by
  induction h with
  | nil => trivial
  | keep c h ih =>
    refine ⟨fun hjoint hnext => h.head_ne_space (htied.1 ?_ (h.signNext hnext)), ih htied.2⟩
    cases c with
    | leaf t => cases t <;> exact hjoint
    | space => cases hjoint
    | opening => cases hjoint
    | closing => cases hjoint
  | before hc h ih => exact ih htied.2
  -- A sign joined to a sign has no space behind it that could be dropped.
  | after hc h ih =>
    refine ⟨fun hjoint hnext => ?_, ih htied.2.2⟩
    exact absurd rfl (htied.1 hjoint (h.signNext hnext))

end Tighter

end Cell

/-! ## Drawing together -/

namespace TokenTree

open Cell

mutual

/-- The marks of a changed tree are the changed marks. -/
theorem marks_mapLiterals (f : String → String) (t : TokenTree) :
    (t.mapLiterals f).marks = t.marks.map (mapLiteral f) := by
  match t with
  | .group d body =>
    simp [mapLiterals, marks, marksAll_mapLiterals f body, mapLiteral]
  | .ident i => rfl
  | .lifetime i => rfl
  | .punct c joint => rfl
  | .literal text => rfl

/-- The marks of changed trees are the changed marks. -/
theorem marksAll_mapLiterals (f : String → String) (ts : List TokenTree) :
    marksAll (mapLiteralsAll f ts) = (marksAll ts).map (mapLiteral f) := by
  match ts with
  | [] => rfl
  | t :: ts =>
    rw [mapLiteralsAll, marksAll, marksAll, marks_mapLiterals f t, marksAll_mapLiterals f ts,
      List.map_append]

end

mutual

/-- Two changes of the literals of a tree are one. -/
theorem mapLiterals_mapLiterals (f g : String → String) (t : TokenTree) :
    (t.mapLiterals f).mapLiterals g = t.mapLiterals (g ∘ f) := by
  match t with
  | .group d body =>
    rw [mapLiterals, mapLiterals, mapLiterals, mapLiteralsAll_mapLiteralsAll f g body]
  | .ident i => rfl
  | .lifetime i => rfl
  | .punct c joint => rfl
  | .literal text => rfl

/-- Two changes of the literals of trees are one. -/
theorem mapLiteralsAll_mapLiteralsAll (f g : String → String) (ts : List TokenTree) :
    mapLiteralsAll g (mapLiteralsAll f ts) = mapLiteralsAll (g ∘ f) ts := by
  match ts with
  | [] => rfl
  | t :: ts =>
    rw [mapLiteralsAll, mapLiteralsAll, mapLiteralsAll, mapLiterals_mapLiterals f g t,
      mapLiteralsAll_mapLiteralsAll f g ts]

end

/-- A slash goes on with the same token after a change of literals. -/
theorem SlashGoesOn.mapLiterals {t : TokenTree} {ts : List TokenTree} (h : SlashGoesOn t ts)
    (f : String → String) : SlashGoesOn (t.mapLiterals f) (mapLiteralsAll f ts) := by
  intro heq
  have ht : t = punct '/' true := by
    cases t <;> simp_all [TokenTree.mapLiterals]
  obtain ⟨u, hu, hne⟩ := h ht
  obtain ⟨us, rfl⟩ := List.head?_eq_some_iff.mp hu
  refine ⟨u.mapLiterals f, rfl, fun joint => ?_⟩
  have hjoint := hne joint
  cases u <;> simp_all [TokenTree.mapLiterals]

mutual

/-- A tree whose tokens are read from their own texts is still one after a change of literals. -/
theorem Lexical.mapLiterals {f : String → String} (hf : KeepsLiterals f) (t : TokenTree)
    (h : t.Lexical) : (t.mapLiterals f).Lexical := by
  match t with
  | .group d body => exact LexicalAll.mapLiterals hf body h
  | .ident i => exact h
  | .lifetime i => exact h
  | .punct c joint => exact h
  | .literal text => exact hf.literal text h

/-- Trees whose tokens are read from their own texts are still such after a change of literals. -/
theorem LexicalAll.mapLiterals {f : String → String} (hf : KeepsLiterals f) (ts : List TokenTree)
    (h : LexicalAll ts) : LexicalAll (mapLiteralsAll f ts) := by
  match ts with
  | [] => exact h
  | t :: ts =>
    exact ⟨Lexical.mapLiterals hf t h.1, h.2.1.mapLiterals f, LexicalAll.mapLiterals hf ts h.2.2⟩

end

mutual

/-- The marks of a tree are read from their own texts if its tokens are. -/
theorem lexical_of_mem_marks (t : TokenTree) (h : t.Lexical) : ∀ c ∈ t.marks, c.Lexical := by
  match t with
  | .group d body =>
    rw [marks, List.forall_mem_cons, List.forall_mem_append]
    exact ⟨trivial, lexical_of_mem_marksAll body h, List.forall_mem_singleton.mpr trivial⟩
  | .ident i => exact List.forall_mem_singleton.mpr ⟨h, by simp⟩
  | .lifetime i => exact List.forall_mem_singleton.mpr ⟨h, by simp⟩
  | .punct c joint => exact List.forall_mem_singleton.mpr ⟨h, by simp⟩
  | .literal text => exact List.forall_mem_singleton.mpr ⟨h, by simp⟩

/-- The marks of trees are read from their own texts if their tokens are. -/
theorem lexical_of_mem_marksAll (ts : List TokenTree) (h : LexicalAll ts) :
    ∀ c ∈ marksAll ts, c.Lexical := by
  match ts with
  | [] => simp [marksAll]
  | t :: ts =>
    rw [marksAll, List.forall_mem_append]
    exact ⟨lexical_of_mem_marks t h.1, lexical_of_mem_marksAll ts h.2.2⟩

end

/-- The row has these tokens; no two of its cells run together, and no operator stands apart. -/
structure LaidOut (ts : List TokenTree) (row : List Cell) : Prop where
  lexical : LexicalAll ts
  marks : row.filter isMark = marksAll ts
  apart : Apart row
  tied : Tied row

/-- Printed tokens are laid out as they were printed. -/
theorem laidOut_cellsAll {ts : List TokenTree} (h : LexicalAll ts) : LaidOut ts (cellsAll ts) where
  lexical := h
  marks := filter_cellsAll ts
  apart := by
    have hapart : Apart (cellsAll ts ++ []) := apart_cellsAll ts h trivial EndsToken.nil
    rwa [List.append_nil] at hapart
  tied := by
    have htied : Tied (cellsAll ts ++ []) := tied_cellsAll ts trivial (by simp [SignNext])
    rwa [List.append_nil] at htied

namespace LaidOut

variable {ts : List TokenTree} {row : List Cell}

/-- Each cell of a layout is read from its own text. -/
theorem cells (h : LaidOut ts row) : ∀ c ∈ row, c.Lexical := by
  intro c hc
  cases hmark : c.isMark with
  | false =>
    cases c with
    | space => trivial
    | leaf => cases hmark
    | opening => cases hmark
    | closing => cases hmark
  | true =>
    have hmem : c ∈ row.filter isMark := List.mem_filter.mpr ⟨hc, hmark⟩
    rw [h.marks] at hmem
    exact lexical_of_mem_marksAll ts h.lexical c hmem

/-- The text of a row is read as its tokens in another layout. -/
theorem lex (h : LaidOut ts row) :
    ∃ us, Token.lex (String.ofList (charsOf row)) = some us ∧ KeepsOperators us ts := by
  have hapart : Apart (row ++ []) := by rw [List.append_nil]; exact h.apart
  have htied : Tied (row ++ []) := by rw [List.append_nil]; exact h.tied
  obtain ⟨us, hus, hkeeps⟩ := lexes_row ts h.lexical h.marks hapart htied
  exact ⟨us, lex_of_lexes (by rwa [String.toList_ofList]), hkeeps⟩

/-- Replacing a word keeps the tokens, but for the texts of literals. -/
theorem replace (h : LaidOut ts row) {word new : String}
    (hword : (word, new) ∈ Source.tightenings) :
    ∃ row', replaceAll word new (charsOf row) = charsOf row' ∧
      LaidOut (mapLiteralsAll (replaced word new) ts) row' := by
  have hf := keepsLiterals_replaced hword
  obtain ⟨row', heq, htighter⟩ := exists_tighter hword h.cells
  refine ⟨row', heq, LexicalAll.mapLiterals hf ts h.lexical, ?_,
    htighter.apart hf h.cells h.apart, htighter.tied h.tied⟩
  rw [htighter.filter_isMark, h.marks, marksAll_mapLiterals]

/-- So do any of the replacements, one after another. -/
theorem replaceEach (h : LaidOut ts row) {words : List (String × String)}
    (hwords : words ⊆ Source.tightenings) :
    ∃ row', words.foldl (fun cs (word, new) => replaceAll word new cs) (charsOf row) =
        charsOf row' ∧
      LaidOut (mapLiteralsAll (fun text => String.ofList
        (words.foldl (fun cs (word, new) => replaceAll word new cs) text.toList)) ts) row' := by
  -- Induction on the replacements; each leaves a row that is laid out again.
  induction words generalizing ts row with
  | nil =>
    refine ⟨row, rfl, ?_⟩
    have hself : mapLiteralsAll (fun text => String.ofList text.toList) ts = ts :=
      mapLiteralsAll_eq_self ts fun text _ => String.ofList_toList
    rwa [← hself] at h
  | cons e words ih =>
    obtain ⟨hmem, hwords⟩ := List.cons_subset.mp hwords
    obtain ⟨row₁, heq₁, h₁⟩ := h.replace hmem
    obtain ⟨row', heq, h'⟩ := ih h₁ hwords
    refine ⟨row', ?_, ?_⟩
    · rw [List.foldl_cons, ← heq, ← heq₁]
    · rw [mapLiteralsAll_mapLiteralsAll] at h'
      simpa [Function.comp_def, replaced] using h'

end LaidOut

end TokenTree

namespace Source

/-- A text with all replaced words replaced, one after another. -/
def tightened (text : String) : String :=
  String.ofList (tightenings.foldl (fun cs (word, new) => replaceAll word new cs) text.toList)

/-- The written form of a type is the printed form of its tokens, drawn together. -/
theorem written_eq_tightened (t : SourceType) : t.written = tightened (textAll t.tokens) := rfl

/-- Printed tokens that are drawn together are read as these tokens again, with the words replaced
in the texts of literals. No operator comes apart, but two signs may join. -/
theorem lex_tightened {ts : List TokenTree} (h : LexicalAll ts) :
    ∃ us, lex (tightened (textAll ts)) = some us ∧
      KeepsOperators us (mapLiteralsAll tightened ts) := by
  obtain ⟨row, heq, hrow⟩ := (laidOut_cellsAll h).replaceEach fun _ he => he
  rw [charsOf_cellsAll] at heq
  rw [tightened, heq]
  exact hrow.lex

/-- The replacements make no text longer, taken one after the other. -/
theorem length_foldl_replaceAll_le {words : List (String × String)} (hwords : words ⊆ tightenings)
    (cs : List Char) :
    (words.foldl (fun cs (word, new) => replaceAll word new cs) cs).length ≤ cs.length := by
  induction words generalizing cs with
  | nil => exact Nat.le_refl _
  | cons e words ih =>
    obtain ⟨hmem, hwords⟩ := List.cons_subset.mp hwords
    have hshorter := (tightenings_facts e hmem).2
    have hword : e.1.toList ≠ [] := List.ne_nil_of_length_pos (by omega)
    exact (ih hwords _).trans (length_replaceFrom_le hword hshorter.le (Nat.zero_le _))

/-- The replacements leave a text as it is exactly if none of their words is in it. -/
theorem foldl_replaceAll_eq_self_iff {words : List (String × String)} (hwords : words ⊆ tightenings)
    {cs : List Char} :
    words.foldl (fun cs (word, new) => replaceAll word new cs) cs = cs ↔
      ∀ e ∈ words, ¬e.1.toList <:+: cs := by
  induction words with
  | nil => simp
  | cons e words ih =>
    obtain ⟨hmem, hrest⟩ := List.cons_subset.mp hwords
    have hshorter := (tightenings_facts e hmem).2
    rw [List.forall_mem_cons, List.foldl_cons, ← ih hrest]
    by_cases hinfix : e.1.toList <:+: cs
    · -- one replacement makes the text shorter, and none makes it longer again
      refine iff_of_false (fun heq => ?_) fun h => h.1 hinfix
      have hle := length_foldl_replaceAll_le hrest (replaceAll e.1 e.2 cs)
      have hlt : (replaceAll e.1 e.2 cs).length < cs.length := length_replaceFrom_lt hshorter hinfix
      rw [heq] at hle
      omega
    · have hself : replaceAll e.1 e.2 cs = cs := replaceFrom_of_not_infix hinfix
      simp [hself, hinfix]

/-- A text is kept exactly if none of the words occurs in it. -/
theorem tightened_eq_self_iff {text : String} :
    tightened text = text ↔ ∀ e ∈ tightenings, ¬e.1.toList <:+: text.toList := by
  rw [← foldl_replaceAll_eq_self_iff fun _ he => he, ← String.toList_inj, tightened,
    String.toList_ofList]

end Source

end Memberwise
