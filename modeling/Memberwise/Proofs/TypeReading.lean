import Memberwise.Proofs.Reading
import Memberwise.Proofs.TypeInduction
import Memberwise.Source.Parse

/-!
# Memberwise.Proofs.TypeReading — types and the tokens that are read as them

`SpellsType w ts` and its companions for bounds, paths and arguments say that the tokens `ts` spell
out the type `w`. They follow the shape of the type and leave open only whether a sign is joint to
what follows, which no rule of the grammar asks. `SourceType.Fits` says that no trait object with
several bounds stands where a plus sign is not read.

The rules of the grammar call each other to a depth. Each rule is first shown to read its own
tokens, if the rules for the parts do (`reads_typeForm_…`, `reads_boundRule_…`,
`reads_genericArgument_…`). One induction on the type then puts these together: a type that fits is
read from the tokens that spell it out, where the depth is at least eight times the size of the
tokens (`reads_type`, `parseType_of_spells`).
-/

namespace Memberwise.Source

/-! ## Tokens of types -/

/-- The tokens of `::`. -/
def colons (joint : Bool) : List TokenTree := [.punct ':' true, .punct ':' joint]

/-- The words that stand in a path without arguments. -/
def loneWords : List String := ["super", "self", "crate", "try"]

/-- Whether an identifier is a segment that takes no arguments. -/
def isLone (i : Ident) : Bool := loneWords.any i.isWord

/-- Whether an identifier can be a segment of a path. -/
def isSegment (i : Ident) : Bool := i.isName || i.isWord "Self" || isLone i

/-- Whether an identifier can start a path that starts with no `::`. -/
def isHead (i : Ident) : Bool := i.isName || pathWords.any i.isWord

/-- A length of an array that is read from `ts`. -/
def RereadsLength (length ts : List TokenTree) : Prop :=
  ∀ depth, 8 * TokenTree.sizeAll ts ≤ depth →
    ∃ kind, expr (rules depth) true ⟨ts, []⟩ = some (kind, ⟨[], length.reverse⟩)

/-- What can follow a type: nothing, or an operator that does not go on with it. -/
def Follows (plus : Bool) (rest : List TokenTree) : Prop :=
  ∀ t ts, rest = t :: ts →
    ∃ c joint, t = .punct c joint ∧ (c ∈ [',', '>', ';', '='] ∨ plus = false ∧ c = '+')

/-- A constant that is read from `ts`. -/
def RereadsConst (tokens ts : List TokenTree) : Prop :=
  ∀ depth rest, 8 * TokenTree.sizeAll ts ≤ depth → Follows true rest →
    atConst (ts ++ rest) = true ∧ atLifetime (ts ++ rest) = false ∧
      constArgument (rules depth) ⟨ts ++ rest, []⟩ = some ((), ⟨rest, tokens.reverse⟩)

/-- Whether a token can start a type: it is no lifetime, no constant and not `mut`. -/
def startsType : TokenTree → Bool
  | .ident i => !(["true", "false", "mut"].any i.isWord)
  | .lifetime _ => false
  | .punct c _ => c ∈ [':', '&', '*', '!']
  | .literal _ => false
  | .group d _ => d ≠ .brace

/-- A function pointer that is read from `ts`. -/
def RereadsFunction (tokens ts : List TokenTree) : Prop :=
  (ts.head?.any startsType = true) ∧
    ∀ depth plus rest, 8 * TokenTree.sizeAll ts ≤ depth → Follows plus rest →
      Reads ((rules depth).type plus) ts rest (.function tokens)

mutual

/-- The tokens of a type in canonical form. -/
def SpellsType : SourceType → List TokenTree → Prop
  | .path p, ts => SpellsPath false p ts
  | .reference lifetime mutable target, ts =>
    ∃ joint us, SpellsType target us ∧
      ts = .punct '&' joint :: ((lifetime.map TokenTree.lifetime).toList ++
        ((if mutable then [wordToken "mut"] else []) ++ us))
  | .pointer mutable target, ts =>
    ∃ joint us, SpellsType target us ∧
      ts = .punct '*' joint :: wordToken (if mutable then "mut" else "const") :: us
  | .traitObject marked bounds trailing, ts =>
    marked = true ∧ trailing = false ∧ bounds.any TypeBound.isTrait = true ∧
      ∃ us, SpellsBounds bounds us ∧ ts = wordToken "dyn" :: us
  | .tuple [] trailing, ts => trailing = false ∧ ts = [.group .parenthesis []]
  | .tuple (elem :: elems) trailing, ts =>
    trailing = elems.isEmpty ∧
      ∃ us joint ws, SpellsType elem us ∧ SpellsTypes elems ws ∧
        ts = [.group .parenthesis (us ++ .punct ',' joint :: ws)]
  | .array elem length, ts =>
    ∃ us joint ws, SpellsType elem us ∧ RereadsLength length ws ∧
      ts = [.group .bracket (us ++ .punct ';' joint :: ws)]
  | .slice elem, ts => ∃ us, SpellsType elem us ∧ ts = [.group .bracket us]
  | .function tokens, ts => RereadsFunction tokens ts
  | .never, ts => ∃ joint, ts = [.punct '!' joint]
  | .paren _, _ => False
  | .other _, _ => False

/-- The tokens of types with commas between them. -/
def SpellsTypes : List SourceType → List TokenTree → Prop
  | [], ts => ts = []
  | [t], ts => SpellsType t ts
  | t :: u :: rest, ts =>
    ∃ us joint ws, SpellsType t us ∧ SpellsTypes (u :: rest) ws ∧ ts = us ++ .punct ',' joint :: ws

/-- The tokens of a path. Only the path of a trait can be a call. -/
def SpellsPath (call : Bool) : SourcePath → List TokenTree → Prop
  | .mk true segments, ts =>
    ∃ joint us, SpellsSegments call segments us ∧ ts = colons joint ++ us
  | .mk false segments, ts =>
    (segments.head?.any fun s => isHead s.name) = true ∧ SpellsSegments call segments ts

/-- The tokens of segments with `::` between them. Only the last one has arguments. -/
def SpellsSegments (call : Bool) : List PathSegment → List TokenTree → Prop
  | [], _ => False
  | [segment], ts => SpellsLast call segment ts
  | .mk i arguments :: next :: rest, ts =>
    arguments = .none ∧ isSegment i = true ∧
      ∃ joint ws, SpellsSegments call (next :: rest) ws ∧ ts = .ident i :: (colons joint ++ ws)

/-- The tokens of a segment. -/
def SpellsLast (call : Bool) : PathSegment → List TokenTree → Prop
  | .mk i .none, ts => isSegment i = true ∧ ts = [.ident i]
  | .mk i (.angle turbofish args trailing), ts =>
    turbofish = false ∧ trailing = false ∧ isSegment i = true ∧ isLone i = false ∧
      ∃ joint joint' us, SpellsArgs args us ∧
        ts = .ident i :: .punct '<' joint :: (us ++ [.punct '>' joint'])
  | .mk i (.call inputs trailing none), ts =>
    call = true ∧ trailing = false ∧ isSegment i = true ∧
      ∃ us, SpellsTypes inputs us ∧ ts = [.ident i, .group .parenthesis us]
  | .mk i (.call inputs trailing (some output)), ts =>
    call = true ∧ trailing = false ∧ isSegment i = true ∧
      ∃ us joint ws, SpellsTypes inputs us ∧ SpellsType output ws ∧
        ts = .ident i :: .group .parenthesis us :: .punct '-' true :: .punct '>' joint :: ws

/-- The tokens of arguments with commas between them. -/
def SpellsArgs : List GenericArgument → List TokenTree → Prop
  | [], ts => ts = []
  | [a], ts => SpellsArg a ts
  | a :: b :: rest, ts =>
    ∃ us joint ws, SpellsArg a us ∧ SpellsArgs (b :: rest) ws ∧ ts = us ++ .punct ',' joint :: ws

/-- The tokens of an argument. -/
def SpellsArg : GenericArgument → List TokenTree → Prop
  | .type t, ts => SpellsType t ts
  | .lifetime i, ts => ts = [.lifetime i]
  | .const tokens, ts => RereadsConst tokens ts
  | .binding i own t, ts =>
    own = .none ∧ isHead i = true ∧
      ∃ joint us, SpellsType t us ∧ ts = .ident i :: .punct '=' joint :: us
  | .other _, _ => False

/-- The tokens of bounds with plus signs between them. -/
def SpellsBounds : List TypeBound → List TokenTree → Prop
  | [], _ => False
  | [b], ts => SpellsBound b ts
  | b :: c :: rest, ts =>
    ∃ us joint ws, SpellsBound b us ∧ SpellsBounds (c :: rest) ws ∧
      ts = us ++ .punct '+' joint :: ws

/-- The tokens of a bound. -/
def SpellsBound : TypeBound → List TokenTree → Prop
  | .lifetime i, ts => ts = [.lifetime i]
  | .trait parenthesized maybe binder p, ts =>
    parenthesized = false ∧ binder = [] ∧
      ∃ joint us, SpellsPath true p us ∧ ts = (if maybe then [.punct '?' joint] else []) ++ us
  | .other _, _ => False

end

mutual

/-- Whether the bounds of trait objects stand where they are read: a type that is read without
plus signs has one bound at most. -/
def SourceType.Fits : SourceType → Bool → Prop
  | .path p, _ => p.Fits
  | .reference _ _ target, _ => target.Fits false
  | .pointer _ target, _ => target.Fits false
  | .traitObject marked bounds _, plus =>
    (marked = true → plus = true ∨ bounds.length ≤ 1) ∧ BoundsFit bounds
  | .tuple elems _, _ => TypesFit elems
  | .array elem _, _ => elem.Fits true
  | .slice elem, _ => elem.Fits true
  | .paren inner, _ => inner.Fits true
  | .function _, _ => True
  | .never, _ => True
  | .other _, _ => True

def TypesFit : List SourceType → Prop
  | [] => True
  | t :: ts => t.Fits true ∧ TypesFit ts

def SourcePath.Fits : SourcePath → Prop
  | .mk _ segments => SegmentsFit segments

def SegmentsFit : List PathSegment → Prop
  | [] => True
  | .mk _ arguments :: rest => arguments.Fits ∧ SegmentsFit rest

def PathArguments.Fits : PathArguments → Prop
  | .none => True
  | .angle _ args _ => ArgsFit args
  | .call inputs _ none => TypesFit inputs
  | .call inputs _ (some output) => TypesFit inputs ∧ output.Fits false

def ArgsFit : List GenericArgument → Prop
  | [] => True
  | a :: as => a.Fits ∧ ArgsFit as

def GenericArgument.Fits : GenericArgument → Prop
  | .type t => t.Fits true
  | .lifetime _ => True
  | .const _ => True
  | .binding _ _ t => t.Fits true
  | .other _ => True

def BoundsFit : List TypeBound → Prop
  | [] => True
  | b :: bs => b.Fits ∧ BoundsFit bs

def TypeBound.Fits : TypeBound → Prop
  | .lifetime _ => True
  | .trait _ _ _ p => p.Fits
  | .other _ => True

end

/-- The types of a list fit if each of them does. -/
theorem typesFit_iff {ts : List SourceType} : TypesFit ts ↔ ∀ t ∈ ts, t.Fits true := by
  induction ts with
  | nil => simp [TypesFit]
  | cons t ts ih => rw [TypesFit, ih, List.forall_mem_cons]

/-- The arguments of a list fit if each of them does. -/
theorem argsFit_iff {as : List GenericArgument} : ArgsFit as ↔ ∀ a ∈ as, a.Fits := by
  induction as with
  | nil => simp [ArgsFit]
  | cons a as ih => rw [ArgsFit, ih, List.forall_mem_cons]

/-- The bounds of a list fit if each of them does. -/
theorem boundsFit_iff {bs : List TypeBound} : BoundsFit bs ↔ ∀ b ∈ bs, b.Fits := by
  induction bs with
  | nil => simp [BoundsFit]
  | cons b bs ih => rw [BoundsFit, ih, List.forall_mem_cons]

/-- Segments fit if the arguments of each of them do. -/
theorem segmentsFit_iff {segments : List PathSegment} :
    SegmentsFit segments ↔ ∀ s ∈ segments, s.arguments.Fits := by
  induction segments with
  | nil => simp [SegmentsFit]
  | cons s segments ih =>
    rcases s with ⟨i, arguments⟩
    rw [SegmentsFit, ih, List.forall_mem_cons]
    rfl

/-! ## What follows -/

/-- No operator is there that starts with another character. -/
theorem atOpChars_cons_ne {c d : Char} (h : c ≠ d) (cs : List Char) (joint : Bool)
    (ts : List TokenTree) : atOpChars (c :: cs) (.punct d joint :: ts) = false := by
  cases cs <;> simp [atOpChars, h]

namespace Follows

variable {plus : Bool} {rest : List TokenTree}

/-- A type can end where the tokens do. -/
theorem nil (plus : Bool) : Follows plus [] := by
  intro t ts h
  cases h

/-- A type can be followed by what separates or closes, whether or not plus signs are read. -/
theorem cons {c : Char} (h : c ∈ [',', '>', ';', '=']) (plus joint : Bool) (ts : List TokenTree) :
    Follows plus (.punct c joint :: ts) := by
  intro t us heq
  cases heq
  exact ⟨c, joint, rfl, Or.inl h⟩

/-- A plus sign can follow a type that is read without plus signs. -/
theorem cons_plus (joint : Bool) (ts : List TokenTree) :
    Follows false (.punct '+' joint :: ts) := by
  intro t us heq
  cases heq
  exact ⟨'+', joint, rfl, Or.inr ⟨rfl, rfl⟩⟩

/-- What can follow a type with plus signs can follow one without. -/
theorem weaken (h : Follows plus rest) : Follows false rest := by
  intro t ts heq
  rcases h t ts heq with ⟨c, joint, rfl, hc | hc⟩
  · exact ⟨c, joint, rfl, Or.inl hc⟩
  · exact ⟨c, joint, rfl, Or.inr ⟨rfl, hc.2⟩⟩

theorem atOpChars (h : Follows plus rest) {c : Char} (hc : c ∉ [',', '>', ';', '=', '+'])
    (cs : List Char) : atOpChars (c :: cs) rest = false := by
  cases rest with
  | nil => cases cs <;> rfl
  | cons t ts =>
    rcases h t ts rfl with ⟨d, joint, rfl, hd⟩
    have hmem : d ∈ [',', '>', ';', '=', '+'] := by
      rcases hd with hd | ⟨-, rfl⟩
      · exact List.mem_append_left ['+'] hd
      · decide
    exact atOpChars_cons_ne (fun heq : c = d => hc (heq ▸ hmem)) cs joint ts

/-- Where plus signs are read, no plus sign is left after a type. -/
theorem atPlus (h : Follows true rest) : atOp "+" rest = false := by
  cases rest with
  | nil => rfl
  | cons t ts =>
    rcases h t ts rfl with ⟨d, joint, rfl, hd⟩
    have hne : '+' ≠ d := by
      rintro rfl
      simp at hd
    exact atOpChars_cons_ne hne [] joint ts

/-- No group follows a type. -/
theorem atGroup (h : Follows plus rest) (d : Delimiter) : atGroup d rest = false := by
  cases rest with
  | nil => rfl
  | cons t ts =>
    rcases h t ts rfl with ⟨c, joint, rfl, -⟩
    rfl

/-- No double colon follows a type, so that a path does not go on. -/
theorem atColons (h : Follows plus rest) : atOp "::" rest = false := h.atOpChars (by decide) [':']

/-- No arguments follow a type, so that its last segment has none beside its own. -/
theorem atAngle (h : Follows plus rest) : atAngle false rest = false := by
  have hless : atOp "<" rest = false := h.atOpChars (by decide) []
  simp [Source.atAngle, hless, h.atColons]

/-- No further segment follows a type. -/
theorem atNextSegment (h : Follows plus rest) : atNextSegment rest = false := by
  simp [Source.atNextSegment, h.atColons]

end Follows

/-! ## First tokens -/

/-- A name is no keyword. -/
theorem isWord_eq_false_of_isName {i : Ident} (h : i.isName = true) {word : String}
    (hword : word ∈ Ident.reserved) : i.isWord word = false := by
  rw [Bool.eq_false_iff]
  intro heq
  simp only [Ident.isWord, Bool.and_eq_true, Bool.not_eq_eq_eq_not, Bool.not_true,
    beq_iff_eq] at heq
  simp [Ident.isName, heq.1, heq.2, hword] at h

/-- The first identifier of a path is no other word. -/
theorem isWord_eq_false_of_isHead {i : Ident} (h : isHead i = true) {word : String}
    (hword : word ∈ Ident.reserved) (hothers : word ∉ pathWords) : i.isWord word = false := by
  rw [isHead, Bool.or_eq_true] at h
  rcases h with h | h
  · exact isWord_eq_false_of_isName h hword
  · rcases List.any_eq_true.mp h with ⟨other, hother, his⟩
    rw [Bool.eq_false_iff]
    intro heq
    simp only [Ident.isWord, Bool.and_eq_true, beq_iff_eq] at heq his
    exact hothers (heq.2 ▸ his.2 ▸ hother)

/-- What can start a path can be a segment of it. -/
theorem isSegment_of_isHead {i : Ident} (h : isHead i = true) : isSegment i = true := by
  rw [isHead, Bool.or_eq_true] at h
  rw [isSegment, isLone, Bool.or_eq_true, Bool.or_eq_true]
  rcases h with h | h
  · exact Or.inl (Or.inl h)
  · rcases List.any_eq_true.mp h with ⟨word, hword, his⟩
    have hwords : ∀ word ∈ pathWords, word = "Self" ∨ word ∈ loneWords := by decide
    rcases hwords word hword with rfl | hlone
    · exact Or.inl (Or.inr his)
    · exact Or.inr (List.any_eq_true.mpr ⟨word, hlone, his⟩)

/-- The tokens of a segment start with its name. -/
theorem head_spellsLast {call : Bool} {s : PathSegment} {ts : List TokenTree}
    (h : SpellsLast call s ts) : ∃ us, ts = .ident s.name :: us := by
  rcases s with ⟨i, arguments⟩
  -- Whatever its arguments, the segment starts with its name.
  cases arguments with
  | none => exact ⟨[], h.2⟩
  | angle turbofish args trailing =>
    rcases h with ⟨-, -, -, -, joint, joint', us, -, rfl⟩
    exact ⟨_, rfl⟩
  | call inputs trailing output =>
    cases output with
    | none =>
      rcases h with ⟨-, -, -, us, -, rfl⟩
      exact ⟨_, rfl⟩
    | some output =>
      rcases h with ⟨-, -, -, us, joint, ws, -, -, rfl⟩
      exact ⟨_, rfl⟩

/-- The tokens of segments start with the name of the first one. -/
theorem head_spellsSegments {call : Bool} {segments : List PathSegment} {ts : List TokenTree}
    (h : SpellsSegments call segments ts) :
    ∃ s rest us, segments = s :: rest ∧ ts = .ident s.name :: us := by
  cases segments with
  | nil => exact h.elim
  | cons s rest =>
    cases rest with
    | nil =>
      rcases head_spellsLast h with ⟨us, rfl⟩
      exact ⟨s, [], us, rfl, rfl⟩
    | cons next rest =>
      rcases s with ⟨i, arguments⟩
      rcases h with ⟨-, -, joint, ws, -, rfl⟩
      exact ⟨.mk i arguments, next :: rest, _, rfl, rfl⟩

/-- A path starts with `::` or with an identifier. -/
theorem head_spellsPath {call : Bool} {p : SourcePath} {ts : List TokenTree}
    (h : SpellsPath call p ts) :
    (∃ joint us, ts = .punct ':' true :: .punct ':' joint :: us) ∨
      ∃ i us, isHead i = true ∧ ts = .ident i :: us := by
  rcases p with ⟨absolute, segments⟩
  cases absolute with
  | true =>
    rcases h with ⟨joint, us, -, rfl⟩
    exact Or.inl ⟨joint, us, rfl⟩
  | false =>
    rcases h with ⟨hhead, hsegments⟩
    rcases head_spellsSegments hsegments with ⟨s, rest, us, rfl, rfl⟩
    exact Or.inr ⟨s.name, us, hhead, rfl⟩

/-- A type starts with a token that nothing else starts with. -/
theorem head_spellsType {t : SourceType} {ts : List TokenTree} (h : SpellsType t ts) :
    ts.head?.any startsType = true := by
  cases t with
  | path p =>
    rcases head_spellsPath h with ⟨joint, us, rfl⟩ | ⟨i, us, hi, rfl⟩
    · simp [startsType]
    -- a word that starts a path is none of these
    · have hwords : ∀ word ∈ ["true", "false", "mut"],
          word ∈ Ident.reserved ∧ word ∉ pathWords := by decide
      have hothers : ["true", "false", "mut"].any i.isWord = false := by
        rw [List.any_eq_false]
        intro word hword
        simp [isWord_eq_false_of_isHead hi (hwords word hword).1 (hwords word hword).2]
      simp only [List.head?_cons, Option.any_some, startsType, hothers, Bool.not_false]
  | reference lifetime mutable target =>
    rcases h with ⟨joint, us, -, rfl⟩
    simp [startsType]
  | pointer mutable target =>
    rcases h with ⟨joint, us, -, rfl⟩
    simp [startsType]
  | traitObject marked bounds trailing =>
    rcases h with ⟨-, -, -, us, -, rfl⟩
    simp [startsType, wordToken, Ident.isWord, Ident.plain]
  | tuple elems trailing =>
    cases elems with
    | nil =>
      rcases h with ⟨-, rfl⟩
      rfl
    | cons elem elems =>
      rcases h with ⟨-, us, joint, ws, -, -, rfl⟩
      rfl
  | array elem length =>
    rcases h with ⟨us, joint, ws, -, -, rfl⟩
    rfl
  | slice elem =>
    rcases h with ⟨us, -, rfl⟩
    rfl
  | paren inner => exact h.elim
  | function tokens => exact h.1
  | never =>
    rcases h with ⟨joint, rfl⟩
    simp [startsType]
  | other tokens => exact h.elim

section

variable {ts : List TokenTree} (h : ts.head?.any startsType = true) (rest : List TokenTree)

include h

/-- Tokens that start a type are not empty. -/
theorem ne_nil_of_startsType : ts ≠ [] := by
  rintro rfl
  cases h

/-- A type does not start with a lifetime, so an argument is not taken for one. -/
theorem atLifetime_of_startsType : atLifetime (ts ++ rest) = false := by
  cases ts with
  | nil => cases h
  | cons t ts => cases t <;> first | rfl | cases h

/-- A type does not start with `mut`, which would be taken as part of a reference. -/
theorem atMut_of_startsType : atWord "mut" (ts ++ rest) = false := by
  cases ts with
  | nil => cases h
  | cons t ts =>
    cases t with
    | ident i =>
      simp only [List.head?_cons, Option.any_some, startsType, List.any_cons, Bool.not_eq_eq_eq_not,
        Bool.not_true, Bool.or_eq_false_iff] at h
      exact h.2.2.1
    | _ => rfl

/-- A type does not start with a question mark, which would be taken as part of a bound. -/
theorem atMaybe_of_startsType : atOp "?" (ts ++ rest) = false := by
  cases ts with
  | nil => cases h
  | cons t ts =>
    cases t with
    | punct c joint =>
      have hc : c ∈ [':', '&', '*', '!'] := by simpa [startsType] using h
      have hne : '?' ≠ c := by
        rintro rfl
        simp at hc
      exact atOpChars_cons_ne hne [] joint (ts ++ rest)
    | _ => rfl

/-- A type does not start as a constant does. -/
theorem atConst_of_startsType : atConst (ts ++ rest) = false := by
  cases ts with
  | nil => cases h
  | cons t ts =>
    -- A constant starts with a literal, a minus or a block; a type with none of these.
    cases t with
    | ident i =>
      simp only [List.head?_cons, Option.any_some, startsType, List.any_cons, Bool.not_eq_eq_eq_not,
        Bool.not_true, Bool.or_eq_false_iff] at h
      simp [atConst, atLiteral, atGroup, h.1, h.2.1]
    | punct c joint =>
      have hc : c ∈ [':', '&', '*', '!'] := by simpa [startsType] using h
      have hne : c ≠ '-' := by
        rintro rfl
        simp at hc
      simp [atConst, atLiteral, atGroup, hne]
    | group d body =>
      have hd : d ≠ .brace := by simpa [startsType] using h
      simp [atConst, atLiteral, atGroup, Ne.symm hd]
    | lifetime i => cases h
    | literal text => cases h

end

/-! ## Paths -/

/-- Whether a token can start an argument in angle brackets. -/
def startsArgument : TokenTree → Bool
  | .punct c _ => c ∈ [':', '&', '*', '!', '-']
  | _ => true

/-- An argument does not start with an operator that would go on with the bracket before it. -/
theorem atOpChars_of_startsArgument {ts : List TokenTree} (h : ts.head?.any startsArgument = true)
    {c : Char} (hc : c ∉ [':', '&', '*', '!', '-']) (cs : List Char) (rest : List TokenTree) :
    atOpChars (c :: cs) (ts ++ rest) = false := by
  cases ts with
  | nil => cases h
  | cons t ts =>
    cases t with
    | punct d joint =>
      have hd : d ∈ [':', '&', '*', '!', '-'] := by simpa [startsArgument] using h
      exact atOpChars_cons_ne (fun heq : c = d => hc (heq ▸ hd)) cs joint (ts ++ rest)
    | _ => cases cs <;> rfl

section

variable {r : Rules}

/-- A segment that takes arguments is `Self` or a name. -/
theorem not_isLone_cases {i : Ident} (hi : isSegment i = true) (hlone : isLone i = false) :
    i.isWord "Self" = true ∨ i.isWord "Self" = false ∧ i.isName = true := by
  rw [isSegment, hlone, Bool.or_false, Bool.or_eq_true] at hi
  cases hself : i.isWord "Self" with
  | true => exact Or.inl rfl
  | false =>
    rcases hi with hname | hself'
    · exact Or.inr ⟨rfl, hname⟩
    · rw [hself] at hself'
      cases hself'

/-- A name after which no arguments come is read as a segment without arguments. -/
theorem reads_pathSegment_none {i : Ident} {rest : List TokenTree} (hi : isSegment i = true)
    (hrest : atAngle false rest = false) :
    Reads (pathSegment r false) [.ident i] rest (.mk i .none) := by
  cases hlone : isLone i with
  | true => exact Reads.peek_true hlone ((Reads.ident i rest).after (Reads.pure _ _))
  | false =>
    refine Reads.peek_false hlone ?_
    rcases not_isLone_cases hi hlone with hself | ⟨hself, hname⟩
    · refine Reads.peek_true hself ((Reads.ident i rest).after ?_)
      exact Reads.peek_false hrest (Reads.pure _ _)
    · refine Reads.peek_false hself ((Reads.name hname rest).after ?_)
      exact Reads.peek_false hrest (Reads.pure _ _)

/-- A bracket that no other sign goes on with opens arguments. -/
theorem atAngle_punct {joint : Bool} {ts : List TokenTree}
    (h : ∀ c ∈ ['=', '<'], ∀ cs, atOpChars (c :: cs) ts = false) :
    atAngle false (.punct '<' joint :: ts) = true := by
  have hequals : atOp "<=" (.punct '<' joint :: ts) = false := by
    change ('<' == '<' && joint && atOpChars ['='] ts) = false
    rw [h '=' (by decide), Bool.and_false]
  have hshift : atOp "<<=" (.punct '<' joint :: ts) = false := by
    change ('<' == '<' && joint && atOpChars ['<', '='] ts) = false
    rw [h '<' (by decide), Bool.and_false]
  have hless : atOp "<" (.punct '<' joint :: ts) = true := rfl
  simp [atAngle, hless, hequals, hshift]

/-- Arguments in angle brackets are read if those between the brackets are. -/
theorem reads_angleArguments {args : List GenericArgument} {joint joint' : Bool}
    {us rest : List TokenTree}
    (h : SeparatedReads (atOp ">") "," (genericArgument r) (.punct '>' joint' :: rest) us args) :
    Reads (angleArguments r) (.punct '<' joint :: (us ++ [.punct '>' joint'])) rest
      (.angle false args false) := by
  have hclose : Reads (op ">") [.punct '>' joint'] rest () := Reads.op rfl rfl
  have hargs := h.terminated rfl
  have hopen : Reads (op "<") [.punct '<' joint] (us ++ [.punct '>' joint'] ++ rest) () :=
    Reads.op rfl rfl
  refine Reads.printedAs ((Reads.op?_false ?_).before (hopen.bind (hargs.bind ?_)))
  · rfl
  · exact hclose.after (Reads.pure _ _)

/-- A name with arguments in angle brackets is read as a segment. -/
theorem reads_pathSegment_angle {i : Ident} {args : List GenericArgument} {joint joint' : Bool}
    {us rest : List TokenTree} (hi : isSegment i = true) (hlone : isLone i = false)
    (hhead : us = [] ∨ us.head?.any startsArgument = true)
    (h : SeparatedReads (atOp ">") "," (genericArgument r) (.punct '>' joint' :: rest) us args) :
    Reads (pathSegment r false) (.ident i :: .punct '<' joint :: (us ++ [.punct '>' joint'])) rest
      (.mk i (.angle false args false)) := by
  -- The opening `<` is followed by neither `=` nor `<`, so it is one sign.
  have hangle : atAngle false (.punct '<' joint :: (us ++ [.punct '>' joint']) ++ rest) = true := by
    refine atAngle_punct fun c hc cs => ?_
    change atOpChars (c :: cs) (us ++ [.punct '>' joint'] ++ rest) = false
    rw [List.append_assoc]
    rcases hhead with rfl | hhead
    · refine atOpChars_cons_ne ?_ cs joint' rest
      rintro rfl
      revert hc
      decide
    · refine atOpChars_of_startsArgument hhead ?_ cs _
      simp only [List.mem_cons, List.not_mem_nil, or_false] at hc
      rcases hc with rfl | rfl <;> decide
  -- The segment's name is read in two ways, and the arguments follow in the same way.
  refine Reads.peek_false hlone ?_
  rcases not_isLone_cases hi hlone with hself | ⟨hself, hname⟩
  · refine Reads.peek_true hself ((Reads.ident i _).bind ?_)
    exact Reads.peek_true hangle ((reads_angleArguments h).after (Reads.pure _ _))
  · refine Reads.peek_false hself ((Reads.name hname _).bind ?_)
    exact Reads.peek_true hangle ((reads_angleArguments h).after (Reads.pure _ _))

end

section

variable {r : Rules}

/-- The segments of a path, if its last one is read. -/
theorem reads_segments_of_last {segments : List PathSegment} {ts rest : List TokenTree}
    (h : SpellsSegments false segments ts)
    (hlast : ∀ s ls, segments.getLast? = some s → SpellsLast false s ls → ls <:+ ts →
      Reads (pathSegment r false) ls rest s)
    (hrest : atNextSegment rest = false) :
    ∃ s more us vs, segments = s :: more ∧ ts = us ++ vs ∧
      Reads (pathSegment r false) us (vs ++ rest) s ∧
      ManyReads (fun ts => !atNextSegment ts) (do op "::"; pathSegment r false) rest vs more := by
  induction segments generalizing ts with
  | nil => exact h.elim
  | cons s more ih =>
    cases more with
    | nil =>
      refine ⟨s, [], ts, [], rfl, (List.append_nil ts).symm, ?_, .nil (by simp [hrest])⟩
      exact hlast s ts rfl h (List.suffix_refl ts)
    | cons next more =>
      rcases s with ⟨i, arguments⟩
      rcases h with ⟨rfl, hi, joint, ws, hnext, rfl⟩
      have hsuffix : ws <:+ .ident i :: (colons joint ++ ws) :=
        (List.suffix_append _ _).trans (List.suffix_cons _ _)
      obtain ⟨s', more', us, vs, heq, rfl, hs', hmore⟩ :=
        ih hnext fun s ls hs hls hsub => hlast s ls hs hls (hsub.trans hsuffix)
      -- the next segment starts with a name, so no arguments are looked for before the colons
      rcases head_spellsSegments hnext with ⟨s'', rest'', us'', heq'', hus⟩
      refine ⟨.mk i .none, next :: more, [.ident i], colons joint ++ us ++ vs, rfl, ?_, ?_, ?_⟩
      · simp
      · refine reads_pathSegment_none hi ?_
        rw [List.append_assoc, List.append_assoc, ← List.append_assoc us, hus]
        rfl
      · rw [heq]
        refine .cons ?_ (by simp [colons]) ?_ hmore
        · rw [List.append_assoc, List.append_assoc, ← List.append_assoc us, hus]
          rfl
        · have hcolons : Reads (op "::") (colons joint) (us ++ (vs ++ rest)) () := Reads.op rfl rfl
          exact hcolons.bind hs'

/-- A path, if its last segment is read. -/
theorem reads_sourcePath_of_last {absolute : Bool} {segments : List PathSegment}
    {ts rest : List TokenTree} (h : SpellsPath false (.mk absolute segments) ts)
    (hlast : ∀ s ls, segments.getLast? = some s → SpellsLast false s ls → ls <:+ ts →
      Reads (pathSegment r false) ls rest s)
    (hrest : atNextSegment rest = false) :
    Reads (sourcePath r false) ts rest (.mk absolute segments) := by
  cases absolute with
  | true =>
    rcases h with ⟨joint, us, hsegments, rfl⟩
    obtain ⟨s, more, vs, ws, rfl, rfl, hs, hmore⟩ := reads_segments_of_last hsegments
      (fun s ls hs hls hsub => hlast s ls hs hls (hsub.trans (List.suffix_append _ _))) hrest
    -- The colons of an absolute path are read as the option that a relative path leaves out.
    have hcolons : Reads (op? "::") (colons joint) (vs ++ ws ++ rest) true := Reads.op?_true rfl rfl
    exact hcolons.bind (hs.bind (hmore.many.after (Reads.pure _ _)))
  | false =>
    rcases h with ⟨-, hsegments⟩
    rcases head_spellsSegments hsegments with ⟨s', rest', us', -, hts⟩
    rcases reads_segments_of_last hsegments hlast hrest with ⟨s, more, us, vs, rfl, rfl, hs, hmore⟩
    have hcolons : Reads (op? "::") [] (us ++ vs ++ rest) false := by
      refine Reads.op?_false ?_
      rw [hts]
      rfl
    exact hcolons.before (hs.bind (hmore.many.after (Reads.pure _ _)))

end

/-! ## Types by their first token -/

section

variable {r : Rules} {plus : Bool} {ts us ws rest : List TokenTree} {t : SourceType}

/-- The rule for types reads what its forms read. -/
theorem reads_typeRule {t : SourceType} (h : Reads (typeForm r plus) ts rest fun _ => t) :
    Reads (typeRule r plus) ts rest t := Reads.form h

/-- Where no `for` comes, no binder is read. -/
theorem reads_binder_none (h : atWord "for" rest = false) : Reads (binder r) [] rest [] :=
  Reads.peek_false h (Reads.pure _ _)

/-- A type that starts with a path. -/
theorem reads_typeForm_path {p : SourcePath} (h : SpellsPath false p ts)
    (hp : Reads (sourcePath r false) ts rest p) (hrest : Follows plus rest) :
    Reads (typeForm r plus) ts rest fun _ => .path p := by
  -- what follows makes the path neither a macro nor the first of several bounds
  have hmacro : atMacro (some p) rest = false := by
    have hmark : atOp "!" rest = false := hrest.atOpChars (by decide) []
    simp [atMacro, hmark]
  have hplus : (plus && atOp "+" rest) = false := by
    cases plus with
    | false => rfl
    | true => exact hrest.atPlus
  have hless : atOp "<" (ts ++ rest) = false := by
    rcases head_spellsPath h with ⟨joint, us, rfl⟩ | ⟨i, us, -, rfl⟩ <;> rfl
  have hpath : Reads (pathType r plus []) ts rest fun _ => .path p := by
    have hany : Reads (anyPath r false) ts rest (some p) :=
      (Reads.op?_false hless).before (hp.after (Reads.pure _ _))
    refine hany.after (Reads.peek_false hmacro (Reads.peek_bind ?_))
    rw [List.nil_append, hplus]
    exact Reads.pure _ _
  rcases head_spellsPath h with ⟨joint, us, rfl⟩ | ⟨i, us, hi, rfl⟩
  · refine (reads_binder_none rfl).before (Reads.ahead_bind ?_)
    exact hpath
  -- a name in front is no word that starts another kind of type
  · have hreserved : ∀ word ∈ ["for", "fn", "unsafe", "extern"], i.isWord word = false := by
      intro word hword
      have hwords : ∀ word ∈ ["for", "fn", "unsafe", "extern"],
          word ∈ Ident.reserved ∧ word ∉ pathWords := by decide
      exact isWord_eq_false_of_isHead hi (hwords word hword).1 (hwords word hword).2
    have hnamed : (atName (.ident i :: us ++ rest) ||
        atSomeWord pathWords (.ident i :: us ++ rest)) = true := hi
    have hfunction : atSomeWord functionWords (.ident i :: us ++ rest) = false := by
      simp [atSomeWord, functionWords, atWord, hreserved]
    have hgroup : atGroup .parenthesis (.ident i :: us ++ rest) = false := rfl
    have hfor : atWord "for" (.ident i :: us ++ rest) = false := hreserved "for" (by decide)
    refine (reads_binder_none hfor).before (Reads.ahead_bind ?_)
    simp only [hnamed, hfunction, hgroup, List.isEmpty_nil, Bool.not_true, Bool.false_and,
      Bool.false_eq_true, if_false, Bool.true_or, if_true]
    exact hpath

/-- An exclamation mark is read as the type of no value. -/
theorem reads_typeForm_never {joint : Bool} :
    Reads (typeForm r plus) [.punct '!' joint] rest fun _ => .never := by
  refine (reads_binder_none rfl).before (Reads.ahead_bind ?_)
  exact (Reads.op rfl rfl).after (Reads.pure _ _)

/-- A reference is read if its target is, which starts with no `mut` of its own. -/
theorem reads_typeForm_reference {joint : Bool} {lifetime : Option Ident} {mutable : Bool}
    (hstart : us.head?.any startsType = true) (h : Reads (r.type false) us rest t) :
    Reads (typeForm r plus)
      (.punct '&' joint :: ((lifetime.map TokenTree.lifetime).toList ++
        ((if mutable then [wordToken "mut"] else []) ++ us))) rest
      fun _ => .reference lifetime mutable t := by
  have htarget : Reads (do return SourceType.reference lifetime mutable (← r.type false)) us rest
      (.reference lifetime mutable t) := h.after (Reads.pure _ _)
  -- Each of the two optional parts is present or is ruled out by the first token of the target.
  have hmut : Reads (word? "mut") (if mutable then [wordToken "mut"] else [])
      (us ++ rest) mutable := by
    cases mutable with
    | true => exact Reads.word?_true "mut" _
    | false => exact Reads.word?_false (atMut_of_startsType hstart rest)
  have hlifetime : Reads lifetime? (lifetime.map TokenTree.lifetime).toList
      ((if mutable then [wordToken "mut"] else []) ++ us ++ rest) lifetime := by
    cases lifetime with
    | some i => exact Reads.lifetime?_some i _
    | none =>
      refine Reads.lifetime?_none ?_
      cases mutable with
      | true => rfl
      | false => exact atLifetime_of_startsType hstart rest
  have hop : Reads (op "&") [.punct '&' joint] ((lifetime.map TokenTree.lifetime).toList ++
      ((if mutable then [wordToken "mut"] else []) ++ us) ++ rest) () := Reads.op rfl rfl
  have hreference : Reads (referenceType r) _ rest (.reference lifetime mutable t) :=
    hop.bind (hlifetime.bind (hmut.bind htarget))
  refine (reads_binder_none rfl).before (Reads.ahead_bind ?_)
  exact hreference.after (Reads.pure _ _)

/-- A pointer is read if its target is. -/
theorem reads_typeForm_pointer {joint mutable : Bool} (h : Reads (r.type false) us rest t) :
    Reads (typeForm r plus)
      (.punct '*' joint :: wordToken (if mutable then "mut" else "const") :: us) rest
      fun _ => .pointer mutable t := by
  have hop : Reads (op "*") [.punct '*' joint]
      ([wordToken (if mutable then "mut" else "const")] ++ us ++ rest) () := Reads.op rfl rfl
  have htarget : Reads (do return SourceType.pointer mutable (← r.type false)) us rest
      (.pointer mutable t) := h.after (Reads.pure _ _)
  have hpointer : Reads (pointerType r)
      (.punct '*' joint :: wordToken (if mutable then "mut" else "const") :: us) rest
      (.pointer mutable t) := by
    -- Of the two words of a pointer one is optional for the reader, the other required.
    cases mutable with
    | true => exact hop.bind ((Reads.word?_true "mut" (us ++ rest)).bind htarget)
    | false =>
      have hconst : Reads (word "const") [wordToken "const"] (us ++ rest) () := Reads.word _ _
      refine hop.bind (Reads.before (Reads.word?_false rfl) ?_)
      exact hconst.bind htarget
  refine (reads_binder_none rfl).before (Reads.ahead_bind ?_)
  exact hpointer.after (Reads.pure _ _)

/-- A slice is read if its elements are. -/
theorem reads_typeForm_slice (h : Reads (r.type true) us [] t) :
    Reads (typeForm r plus) [.group .bracket us] rest fun _ => .slice t := by
  have hop : Reads (op? ";") [] [] false := Reads.op?_false rfl
  have hbracket : Reads (bracketType r) [.group .bracket us] rest (.slice t) := by
    refine Reads.group (h.after (hop.before ?_)) rest
    exact Reads.pure _ _
  refine (reads_binder_none rfl).before (Reads.ahead_bind ?_)
  exact hbracket.after (Reads.pure _ _)

/-- An array is read if its elements are and its length is taken to the end of the brackets. -/
theorem reads_typeForm_array {joint : Bool} {length : List TokenTree} {kind : ExprKind}
    (h : Reads (r.type true) us (.punct ';' joint :: ws) t)
    (hlength : expr r true ⟨ws, []⟩ = some (kind, ⟨[], length.reverse⟩)) :
    Reads (typeForm r plus) [.group .bracket (us ++ .punct ';' joint :: ws)] rest
      fun _ => .array t length := by
  -- The length is captured as tokens, whatever kind of expression it is.
  have hcaptured : Reads (captured (expr r true)) ws [] (kind, length) := by
    intro taken
    refine ⟨length.reverse ++ taken, ?_⟩
    simp only [captured, List.append_nil, hlength, List.reverse_reverse]
  have hop : Reads (op? ";") [.punct ';' joint] (ws ++ []) true := Reads.op?_true rfl rfl
  have h' : Reads (r.type true) us ([.punct ';' joint] ++ ws ++ []) t := by
    rwa [List.append_nil]
  have hbracket : Reads (bracketType r) [.group .bracket (us ++ ([.punct ';' joint] ++ ws))] rest
      (.array t length) := by
    refine Reads.group (h'.bind (hop.bind ?_)) rest
    exact hcaptured.after (Reads.pure _ _)
  refine (reads_binder_none rfl).before (Reads.ahead_bind ?_)
  exact hbracket.after (Reads.pure _ _)

/-- Empty parentheses are read as the tuple without elements. -/
theorem reads_typeForm_unit :
    Reads (typeForm r plus) [.group .parenthesis []] rest fun _ => .tuple [] false := by
  have hcontent : Reads (parenContent r) [] [] (.tuple [] false) :=
    Reads.peek_true rfl (Reads.pure _ _)
  have hparen : Reads (parenType r plus) [.group .parenthesis []] rest (.tuple [] false) :=
    (Reads.group hcontent rest).after (Reads.pure _ _)
  refine (reads_binder_none rfl).before (Reads.ahead_bind ?_)
  exact hparen.after (Reads.pure _ _)

/-- A tuple is read if its first element and those after the first comma are. -/
theorem reads_typeForm_tuple {joint : Bool} {elems : List SourceType}
    (hstart : us.head?.any startsType = true)
    (h : Reads (r.type true) us (.punct ',' joint :: ws) t)
    (helems : SeparatedReads List.isEmpty "," (r.type true) [] ws elems) :
    Reads (typeForm r plus) [.group .parenthesis (us ++ .punct ',' joint :: ws)] rest
      fun _ => .tuple (t :: elems) elems.isEmpty := by
  have hop : Reads (op? ",") [.punct ',' joint] (ws ++ []) true := Reads.op?_true rfl rfl
  have h' : Reads (r.type true) us ([.punct ',' joint] ++ ws ++ []) t := by
    rwa [List.append_nil]
  have hne : (us ++ ([TokenTree.punct ',' joint] ++ ws) ++ []).isEmpty = false := by
    simp
  have hcontent : Reads (parenContent r) (us ++ ([.punct ',' joint] ++ ws)) []
      (.tuple (t :: elems) elems.isEmpty) := by
    -- The first three tests of a parenthesis fail: it is not empty, a lifetime or a `?`.
    refine Reads.peek_false hne (Reads.peek_false ?_ (Reads.peek_false ?_ ?_))
    · rw [List.append_assoc]
      exact atLifetime_of_startsType hstart _
    · rw [List.append_assoc]
      exact atMaybe_of_startsType hstart _
    · refine h'.bind (hop.bind ((helems.terminated rfl).after ?_))
      simp only [Bool.or_false]
      exact Reads.pure _ _
  have hparen : Reads (parenType r plus)
      [.group .parenthesis (us ++ ([.punct ',' joint] ++ ws))] rest
      (.tuple (t :: elems) elems.isEmpty) := (Reads.group hcontent rest).after (Reads.pure _ _)
  refine (reads_binder_none rfl).before (Reads.ahead_bind ?_)
  exact hparen.after (Reads.pure _ _)

/-- A trait object is read if its bounds are and one of them is a trait. -/
theorem reads_typeForm_object {bs : List TypeBound} (htrait : bs.any TypeBound.isTrait = true)
    (hstar : atOp "*" (us ++ rest) = false)
    (h : Reads (bounds r plus false false) us rest (bs, false)) :
    Reads (typeForm r plus) (wordToken "dyn" :: us) rest fun _ => .traitObject true bs false := by
  have hobject : Reads (objectBounds r true plus) us rest (.traitObject true bs false) := by
    refine h.after ?_
    simp only [htrait, if_true]
    exact Reads.pure _ _
  have hword : Reads (word "dyn") [wordToken "dyn"] (us ++ rest) () := Reads.word _ _
  refine (reads_binder_none rfl).before (Reads.ahead_bind ?_)
  exact hword.bind ((Reads.op?_false hstar).before (hobject.after (Reads.pure _ _)))

end

/-! ## Bounds -/

section

variable {r : Rules} {plus : Bool} {ts us ws rest : List TokenTree} {b : TypeBound}

/-- One bound is read where no plus sign goes on with it. -/
theorem reads_bounds_one (h : Reads (r.bound false false) ts rest b)
    (hplus : (plus && atOp "+" rest) = false) :
    Reads (bounds r plus false false) ts rest ([b], false) := by
  refine h.after (Reads.peek_bind ?_)
  rw [List.nil_append, hplus]
  exact Reads.pure _ _

/-- Several bounds are read where plus signs are. -/
theorem reads_bounds_more {joint : Bool} {more : List TypeBound}
    (h : Reads (r.bound false false) us (.punct '+' joint :: ws ++ rest) b)
    (hmore :
      ChainedReads (fun ts => !startsBound false ts) "+" (r.bound false false) rest ws more) :
    Reads (bounds r true false false) (us ++ .punct '+' joint :: ws) rest (b :: more, false) := by
  have hempty : more.isEmpty = false := by
    cases hmore <;> rfl
  have hop : Reads (op "+") [.punct '+' joint] (ws ++ rest) () := Reads.op rfl rfl
  refine h.bind (Reads.peek_true rfl ?_)
  refine hop.bind ((hmore.chained rfl).after ?_)
  simp only [hempty, Bool.or_false]
  exact Reads.pure _ _

/-- A lifetime is read as a bound. -/
theorem reads_boundRule_lifetime (i : Ident) :
    Reads (boundRule r false false) [.lifetime i] rest (.lifetime i) := by
  refine Reads.form (Reads.peek_true rfl ?_)
  exact (Reads.lifetime i rest).after (Reads.pure _ _)

/-- A trait as a bound, if its path is read. -/
theorem reads_boundRule_trait {joint maybe : Bool} {p : SourcePath} (h : SpellsPath true p us)
    (hp : Reads (traitPath r) us rest p) :
    Reads (boundRule r false false) ((if maybe then [.punct '?' joint] else []) ++ us) rest
      (.trait false maybe [] p) := by
  have hhead : ∀ words : List String, (∀ word ∈ words, word ∈ Ident.reserved ∧ word ∉ pathWords) →
      ∀ word ∈ words, atWord word (us ++ rest) = false := by
    intro words hwords word hword
    rcases head_spellsPath h with ⟨joint, vs, rfl⟩ | ⟨i, vs, hi, rfl⟩
    · rfl
    · exact isWord_eq_false_of_isHead hi (hwords word hword).1 (hwords word hword).2
  -- none of the marks that can stand before a bound is there
  have hwords := hhead ["for", "const", "use"] (by decide)
  have hgroups : ∀ d, atGroup d (us ++ rest) = false := by
    intro d
    rcases head_spellsPath h with ⟨joint, vs, rfl⟩ | ⟨i, vs, -, rfl⟩ <;> rfl
  have hlifetime : atLifetime (us ++ rest) = false := by
    rcases head_spellsPath h with ⟨joint, vs, rfl⟩ | ⟨i, vs, -, rfl⟩ <;> rfl
  have hmark : atOp "?" (us ++ rest) = false := by
    rcases head_spellsPath h with ⟨joint, vs, rfl⟩ | ⟨i, vs, -, rfl⟩ <;> rfl
  have hbinder : Reads (binder r) [] (us ++ rest) [] :=
    reads_binder_none (hwords "for" (by decide))
  have htrait : Reads (traitBound r false false)
      ((if maybe then [.punct '?' joint] else []) ++ us) rest
      fun _ => .trait false maybe [] p := by
    cases maybe with
    | true =>
      have hop : Reads (op? "?") [.punct '?' joint] (us ++ rest) true := Reads.op?_true rfl rfl
      have hconst : Reads constMark [] (.punct '?' joint :: us ++ rest) false :=
        Reads.peek_false rfl (Reads.word?_false rfl)
      refine (reads_binder_none rfl).before (hconst.before (hop.bind (hbinder.before ?_)))
      exact hp.after (Reads.pure _ _)
    | false =>
      have hconst : Reads constMark [] (us ++ rest) false :=
        Reads.peek_false (hgroups _) (Reads.word?_false (hwords "const" (by decide)))
      refine hbinder.before (hconst.before ((Reads.op?_false hmark).before (hbinder.before ?_)))
      exact hp.after (Reads.pure _ _)
  have hform : ∀ ts, ts = (if maybe then [.punct '?' joint] else []) ++ us →
      atLifetime (ts ++ rest) = false ∧ atWord "use" (ts ++ rest) = false ∧
        atGroup .parenthesis (ts ++ rest) = false := by
    rintro ts rfl
    cases maybe with
    | true => exact ⟨rfl, rfl, rfl⟩
    | false => exact ⟨hlifetime, hwords "use" (by decide), hgroups _⟩
  rcases hform _ rfl with ⟨hlifetime', huse, hgroup⟩
  refine Reads.form (Reads.peek_false hlifetime'
    (Reads.peek_false huse (Reads.peek_false hgroup ?_)))
  exact htrait

/-- The tokens of arguments in parentheses. -/
def SpellsCall (inputs : List SourceType) : Option SourceType → List TokenTree → Prop
  | none, ts => ∃ us, SpellsTypes inputs us ∧ ts = [.group .parenthesis us]
  | some output, ts =>
    ∃ us joint ws, SpellsTypes inputs us ∧ SpellsType output ws ∧
      ts = .group .parenthesis us :: .punct '-' true :: .punct '>' joint :: ws

/-- The inputs of a call without an output are read where no arrow follows them. -/
theorem reads_callArguments_none {inputs : List SourceType}
    (h : SeparatedReads List.isEmpty "," (r.type true) [] us inputs)
    (hrest : atOp "->" rest = false) :
    Reads (callArguments r) [.group .parenthesis us] rest (.call inputs false none) := by
  have hinputs := Reads.group (h.terminated rfl) rest (d := .parenthesis)
  refine Reads.printedAs ((Reads.op?_false rfl).discard.before (hinputs.after ?_))
  refine (Reads.op?_false hrest).before ((Reads.pure none rest).before ?_)
  exact Reads.pure _ _

/-- The inputs of a call are read with its output. -/
theorem reads_callArguments_some {inputs : List SourceType} {output : SourceType} {joint : Bool}
    (h : SeparatedReads List.isEmpty "," (r.type true) [] us inputs)
    (houtput : Reads (r.type false) ws rest output) :
    Reads (callArguments r)
      (.group .parenthesis us :: .punct '-' true :: .punct '>' joint :: ws) rest
      (.call inputs false (some output)) := by
  have hinputs := Reads.group (h.terminated rfl) (.punct '-' true :: .punct '>' joint :: ws ++ rest)
    (d := .parenthesis)
  have hop : Reads (op? "->") [.punct '-' true, .punct '>' joint] (ws ++ rest) true :=
    Reads.op?_true rfl rfl
  refine Reads.printedAs ((Reads.op?_false rfl).discard.before (hinputs.bind ?_))
  refine hop.bind ((houtput.map some).after ?_)
  exact Reads.pure _ _

/-- A call at the end of a path is read after the path. -/
theorem spellsSegments_call {segments : List PathSegment} (h : SpellsSegments true segments ts) :
    SpellsSegments false segments ts ∨
      ∃ init i inputs output us cs, segments = init ++ [.mk i (.call inputs false output)] ∧
        ts = us ++ cs ∧ SpellsSegments false (init ++ [.mk i .none]) us ∧
        SpellsCall inputs output cs := by
  induction segments generalizing ts with
  | nil => exact h.elim
  | cons s more ih =>
    rcases s with ⟨i, arguments⟩
    cases more with
    | nil =>
      cases arguments with
      -- only a call is read on its own; other arguments belong to the path
      | none => exact Or.inl h
      | angle turbofish args trailing => exact Or.inl h
      | call inputs trailing output =>
        right
        cases output with
        | none =>
          rcases h with ⟨-, rfl, hi, us, hus, rfl⟩
          exact ⟨[], i, inputs, none, [.ident i], _, rfl, rfl, ⟨hi, rfl⟩, us, hus, rfl⟩
        | some output =>
          rcases h with ⟨-, rfl, hi, us, joint, ws, hus, hws, rfl⟩
          exact ⟨[], i, inputs, some output, [.ident i], _, rfl, rfl, ⟨hi, rfl⟩, us, joint, ws, hus,
            hws, rfl⟩
    | cons next more =>
      rcases h with ⟨rfl, hi, joint, ws, hnext, rfl⟩
      rcases ih hnext with hplain | ⟨init, j, inputs, output, us, cs, heq, rfl, hus, hcs⟩
      · exact Or.inl ⟨rfl, hi, joint, ws, hplain, rfl⟩
      · right
        refine ⟨.mk i .none :: init, j, inputs, output, .ident i :: (colons joint ++ us), cs, ?_,
          ?_, ?_, hcs⟩
        · rw [heq, List.cons_append]
        · simp
        · cases init with
          | nil => exact ⟨rfl, hi, joint, us, hus, rfl⟩
          | cons s init => exact ⟨rfl, hi, joint, us, hus, rfl⟩

/-- A call becomes the arguments of the last segment. -/
theorem withCall_append (call : PathArguments) (init : List PathSegment) (i : Ident) :
    withCall call (init ++ [.mk i .none]) = init ++ [.mk i call] := by
  induction init with
  | nil => rfl
  | cons s init ih =>
    rcases s with ⟨j, arguments⟩
    cases init with
    | nil => rfl
    | cons s init => exact congrArg (.mk j arguments :: ·) ih

/-- The path of a trait is plain, or it is a plain path followed by a call. -/
theorem spellsPath_call {absolute : Bool} {segments : List PathSegment}
    (h : SpellsPath true (.mk absolute segments) ts) :
    SpellsPath false (.mk absolute segments) ts ∨
      ∃ init i inputs output us cs, segments = init ++ [.mk i (.call inputs false output)] ∧
        ts = us ++ cs ∧ SpellsPath false (.mk absolute (init ++ [.mk i .none])) us ∧
        SpellsCall inputs output cs := by
  -- The leading colons go with whichever form the segments have.
  cases absolute with
  | true =>
    rcases h with ⟨joint, us, hus, rfl⟩
    rcases spellsSegments_call hus with
      hplain | ⟨init, i, inputs, output, vs, cs, heq, rfl, hvs, hcs⟩
    · exact Or.inl ⟨joint, us, hplain, rfl⟩
    · refine Or.inr ⟨init, i, inputs, output, colons joint ++ vs, cs, heq, ?_,
        ⟨joint, vs, hvs, rfl⟩, hcs⟩
      rw [List.append_assoc]
  | false =>
    rcases h with ⟨hhead, hus⟩
    rcases spellsSegments_call hus with
      hplain | ⟨init, i, inputs, output, vs, cs, rfl, rfl, hvs, hcs⟩
    · exact Or.inl ⟨hhead, hplain⟩
    · refine Or.inr ⟨init, i, inputs, output, vs, cs, rfl, rfl, ⟨?_, hvs⟩, hcs⟩
      cases init <;> exact hhead

/-- A segment without arguments, before anything but arguments in angle brackets. -/
theorem reads_last_none {init : List PathSegment} {i : Ident} {s : PathSegment}
    {ls : List TokenTree} (hlast : (init ++ [PathSegment.mk i .none]).getLast? = some s)
    (h : SpellsLast false s ls) (hrest : atAngle false rest = false) :
    Reads (pathSegment r false) ls rest s := by
  rw [List.getLast?_concat, Option.some.injEq] at hlast
  subst hlast
  rcases h with ⟨hi, rfl⟩
  exact reads_pathSegment_none hi hrest

/-- The path of a trait, if its last segment or its call is read. -/
theorem reads_traitPath {absolute : Bool} {segments : List PathSegment}
    (h : SpellsPath true (.mk absolute segments) ts) (hrest : Follows plus rest)
    (hlast : ∀ s ls, segments.getLast? = some s → SpellsLast false s ls → ls <:+ ts →
      Reads (pathSegment r false) ls rest s)
    (hcall : ∀ i inputs output cs, segments.getLast? = some (.mk i (.call inputs false output)) →
      SpellsCall inputs output cs → cs <:+ ts →
      Reads (callArguments r) cs rest (.call inputs false output)) :
    Reads (traitPath r) ts rest (.mk absolute segments) := by
  rcases spellsPath_call h with hplain | ⟨init, i, inputs, output, us, cs, rfl, rfl, hus, hcs⟩
  · have hpath := reads_sourcePath_of_last hplain hlast hrest.atNextSegment
    refine hpath.after (Reads.ahead_bind ?_)
    simp only [List.nil_append, hrest.atGroup, hrest.atColons, Bool.or_false, Bool.false_and,
      Bool.and_false, Bool.false_eq_true, if_false]
    exact Reads.pure _ _
  -- the segments before the call are read as a plain path, which the parentheses end
  · have hgroup : ∃ vs ws, cs = .group .parenthesis vs :: ws := by
      cases output with
      | none =>
        rcases hcs with ⟨vs, -, rfl⟩
        exact ⟨vs, [], rfl⟩
      | some output =>
        rcases hcs with ⟨vs, joint, ws, -, -, rfl⟩
        exact ⟨vs, _, rfl⟩
    have hpath : Reads (sourcePath r false) us (cs ++ rest)
        (.mk absolute (init ++ [.mk i .none])) := by
      rcases hgroup with ⟨vs, ws, rfl⟩
      exact reads_sourcePath_of_last hus (fun s ls hs hls _ => reads_last_none hs hls rfl) rfl
    have hread := hcall i inputs output cs List.getLast?_concat hcs (List.suffix_append us cs)
    refine hpath.bind (Reads.ahead_bind ?_)
    -- the call is added to the last segment, which has no arguments yet
    have hbare : ((init ++ [PathSegment.mk i .none]).getLast?.any
        fun s => s.arguments.isNone) = true := by
      rw [List.getLast?_concat]
      rfl
    have hparen : atGroup .parenthesis (cs ++ rest) = true := by
      rcases hgroup with ⟨vs, ws, rfl⟩
      rfl
    simp only [SourcePath.segments, SourcePath.absolute, hbare, hparen, Bool.true_or, Bool.true_and,
      if_true]
    rw [← withCall_append (.call inputs false output)]
    exact hread.after (Reads.pure _ _)

end

/-! ## Arguments -/

/-- What follows an argument in angle brackets. -/
def EndsArgument (rest : List TokenTree) : Prop :=
  ∃ c joint ts, rest = .punct c joint :: ts ∧ c ∈ [',', '>']

/-- What ends an argument can follow a type. -/
theorem EndsArgument.follows {rest : List TokenTree} (h : EndsArgument rest) (plus : Bool) :
    Follows plus rest := by
  rcases h with ⟨c, joint, ts, rfl, hc⟩
  exact Follows.cons (List.mem_append_left [';', '='] hc) plus joint ts

/-- No other operator comes where an argument ends. -/
theorem EndsArgument.atOpChars {rest : List TokenTree} (h : EndsArgument rest) {c : Char}
    (hc : c ∉ [',', '>']) (cs : List Char) : atOpChars (c :: cs) rest = false := by
  rcases h with ⟨d, joint, ts, rfl, hd⟩
  exact atOpChars_cons_ne (fun heq : c = d => hc (heq ▸ hd)) cs joint ts

section

variable {r : Rules} {ts us rest : List TokenTree}

/-- A lifetime is read as an argument. -/
theorem reads_genericArgument_lifetime (i : Ident) (hrest : EndsArgument rest) :
    Reads (genericArgument r) [.lifetime i] rest (.lifetime i) := by
  have hplus : atOp "+" rest = false := hrest.atOpChars (by decide) []
  have hpeek : (atLifetime (.lifetime i :: rest) &&
      !atOp "+" ((.lifetime i :: rest).drop 1)) = true := by
    simp [atLifetime, hplus]
  refine Reads.form (Reads.peek_true hpeek ?_)
  exact (Reads.lifetime i rest).after (Reads.pure _ _)

/-- A constant is read as an argument. -/
theorem reads_genericArgument_const {tokens : List TokenTree} {depth : Nat}
    (h : RereadsConst tokens ts) (hdepth : 8 * TokenTree.sizeAll ts ≤ depth)
    (hrest : EndsArgument rest) :
    Reads (genericArgument (rules depth)) ts rest (.const tokens) := by
  rcases h depth rest hdepth (hrest.follows true) with ⟨hconst, hlifetime, hread⟩
  have hform : argumentForm (rules depth) ⟨ts ++ rest, []⟩ =
      some (GenericArgument.const, ⟨rest, tokens.reverse⟩) := by
    -- The reader is opened by hand here, as a constant is given as a run and not as tokens read.
    have hpeek : ∀ {β : Type} (q : List TokenTree → Bool) (f : Bool → Reader β) (c : Cursor),
        (peek q >>= f) c = f (q c.rest) c := fun _ _ _ => rfl
    have hbind : ∀ {α β : Type} (p : Reader α) (f : α → Reader β) (c : Cursor),
        (p >>= f) c = (p c).bind fun x => f x.1 x.2 := fun _ _ _ => rfl
    unfold argumentForm
    rw [hpeek]
    simp only [hlifetime, Bool.false_and, Bool.false_eq_true, if_false]
    rw [hpeek]
    simp only [hconst, if_true]
    rw [hbind, hread]
    rfl
  intro taken
  refine ⟨tokens.reverse ++ taken, ?_⟩
  change (captured (argumentForm (rules depth)) ⟨ts ++ rest, taken⟩).bind _ = _
  simp only [captured, hform, List.reverse_reverse]
  rfl

/-- A type is read as an argument where no value of an associated type follows it. -/
theorem reads_genericArgument_type {t : SourceType} (hstart : ts.head?.any startsType = true)
    (h : Reads (r.type true) ts rest t) (hrest : EndsArgument rest) :
    Reads (genericArgument r) ts rest (.type t) := by
  have hlifetime : (atLifetime (ts ++ rest) && !atOp "+" ((ts ++ rest).drop 1)) = false := by
    rw [atLifetime_of_startsType hstart, Bool.false_and]
  refine Reads.form (Reads.peek_false hlifetime
    (Reads.peek_false (atConst_of_startsType hstart rest) ?_))
  -- What ends an argument is neither an `=` nor a colon, so it is no binding.
  have hequals : atOp "=" rest = false := hrest.atOpChars (by decide) []
  have hcolon : atOp ":" rest = false := hrest.atOpChars (by decide) []
  refine h.after ?_
  split
  · refine (Reads.op?_false hequals).before ((Reads.op?_false hcolon).before ?_)
    exact Reads.pure _ _
  · exact Reads.pure _ _

/-- A name, an equals sign and a type are read as an associated type. -/
theorem reads_genericArgument_binding {i : Ident} {t : SourceType} {joint : Bool}
    (hi : isHead i = true)
    (hname : Reads (r.type true) [.ident i] (.punct '=' joint :: us ++ rest)
      (.path (.mk false [.mk i .none])))
    (hstart : us.head?.any startsType = true) (h : Reads (r.type true) us rest t) :
    Reads (genericArgument r) (.ident i :: .punct '=' joint :: us) rest (.binding i .none t) := by
  -- The name is read as a type first; the `=` after it makes it a binding.
  have hspells : SpellsType (.path (.mk false [.mk i .none])) [.ident i] :=
    ⟨hi, isSegment_of_isHead hi, rfl⟩
  have hconst : atConst ([.ident i] ++ (.punct '=' joint :: us ++ rest)) = false :=
    atConst_of_startsType (head_spellsType hspells) _
  have hop : Reads (op? "=") [.punct '=' joint] (us ++ rest) true := Reads.op?_true rfl rfl
  refine Reads.form (Reads.peek_false rfl (Reads.peek_false hconst ?_))
  refine hname.bind (hop.bind (Reads.peek_false (atConst_of_startsType hstart rest) ?_))
  exact h.after (Reads.pure _ _)

end

/-- What starts a type starts an argument. -/
theorem startsArgument_of_startsType {t : TokenTree} (h : startsType t = true) :
    startsArgument t = true := by
  cases t with
  | punct c joint =>
    have hc : c ∈ [':', '&', '*', '!'] := by simpa [startsType] using h
    have hmem : c ∈ [':', '&', '*', '!', '-'] := List.mem_append_left ['-'] hc
    simpa [startsArgument] using hmem
  | _ => rfl

/-- What starts a constant starts an argument. -/
theorem startsArgument_of_atConst {t : TokenTree} {ts : List TokenTree}
    (h : atConst (t :: ts) = true) : startsArgument t = true := by
  cases t with
  | punct c joint =>
    by_cases hc : c = '-'
    · simp [startsArgument, hc]
    · simp [atConst, atLiteral, atGroup, hc] at h
  | _ => rfl

/-- The tokens of an argument start as one. -/
theorem head_spellsArg {a : GenericArgument} {ts : List TokenTree} (h : SpellsArg a ts) :
    ts.head?.any startsArgument = true := by
  -- One case for each kind of argument; the last kind has no spelling at all.
  cases a with
  | type t =>
    have hstart := head_spellsType h
    cases ts with
    | nil => cases hstart
    | cons t ts => exact startsArgument_of_startsType hstart
  | lifetime i =>
    subst h
    rfl
  | const tokens =>
    rcases h _ [] (Nat.le_refl _) (Follows.nil true) with ⟨hconst, -, -⟩
    cases ts with
    | nil => cases hconst
    | cons t ts => exact startsArgument_of_atConst hconst
  | binding i own t =>
    rcases h with ⟨-, -, joint, us, -, rfl⟩
    rfl
  | other tokens => exact h.elim

/-- The tokens of arguments start as one, if there are any. -/
theorem head_spellsArgs {args : List GenericArgument} {ts : List TokenTree}
    (h : SpellsArgs args ts) :
    ts = [] ∨ ts.head?.any startsArgument = true := by
  cases args with
  | nil => exact Or.inl h
  | cons a args =>
    right
    cases args with
    | nil => exact head_spellsArg h
    | cons b args =>
      rcases h with ⟨us, joint, ws, hus, -, rfl⟩
      have hstart := head_spellsArg hus
      -- The first argument is not empty, as it starts like one.
      cases us with
      | nil => cases hstart
      | cons u us => exact hstart

/-- A bound starts with a token that `dyn` can stand before. -/
theorem head_spellsBound {b : TypeBound} {ts : List TokenTree} (h : SpellsBound b ts)
    (rest : List TokenTree) :
    atOp "*" (ts ++ rest) = false ∧ startsBound false (ts ++ rest) = true := by
  cases b with
  | lifetime i =>
    subst h
    exact ⟨rfl, rfl⟩
  | trait parenthesized maybe binder p =>
    rcases h with ⟨-, -, joint, us, hus, rfl⟩
    -- A bound starts with `?` or with its path.
    cases maybe with
    | true => exact ⟨rfl, rfl⟩
    | false =>
      rcases head_spellsPath hus with ⟨joint, vs, rfl⟩ | ⟨i, vs, -, rfl⟩
      · exact ⟨rfl, rfl⟩
      · exact ⟨rfl, rfl⟩
  | other tokens => exact h.elim

/-! ## Reading types -/

/-- The size of a list is that of its parts together. -/
theorem sizeAll_append (ts us : List TokenTree) :
    TokenTree.sizeAll (ts ++ us) = TokenTree.sizeAll ts + TokenTree.sizeAll us := by
  induction ts with
  | nil => simp [TokenTree.sizeAll]
  | cons t ts ih =>
    rw [List.cons_append, TokenTree.sizeAll, TokenTree.sizeAll, ih, Nat.add_assoc]

/-- What is left of a list is no larger than the list. -/
theorem sizeAll_le_of_suffix {ts us : List TokenTree} (h : ts <:+ us) :
    TokenTree.sizeAll ts ≤ TokenTree.sizeAll us := by
  rcases h with ⟨vs, rfl⟩
  rw [sizeAll_append]
  omega

/-- A list with tokens has a size. -/
theorem sizeAll_pos {ts : List TokenTree} (h : ts ≠ []) : 0 < TokenTree.sizeAll ts := by
  cases ts with
  | nil => exact absurd rfl h
  | cons t ts =>
    have hpos : 0 < t.size := by
      cases t with
      | group d body =>
        rw [TokenTree.size]
        omega
      | _ => exact Nat.one_pos
    rw [TokenTree.sizeAll]
    omega

/-- Tokens of a type need a depth of at least one. -/
theorem exists_depth_eq {t : SourceType} {ts : List TokenTree} {depth : Nat} (h : SpellsType t ts)
    (hdepth : 8 * TokenTree.sizeAll ts ≤ depth) : ∃ d, depth = d + 1 := by
  have hpos := sizeAll_pos (ne_nil_of_startsType (head_spellsType h))
  exact ⟨depth - 1, by omega⟩

/-- A path has tokens. -/
theorem ne_nil_of_spellsPath {call : Bool} {p : SourcePath} {ts : List TokenTree}
    (h : SpellsPath call p ts) : ts ≠ [] := by
  rcases head_spellsPath h with ⟨joint, us, rfl⟩ | ⟨i, us, -, rfl⟩
  · exact List.cons_ne_nil _ _
  · exact List.cons_ne_nil _ _

/-- Where an argument starts, the brackets do not close. -/
theorem atClose_of_startsArgument {ts : List TokenTree}
    (h : ts.head?.any startsArgument = true) (rest : List TokenTree) :
    atOp ">" (ts ++ rest) = false :=
  atOpChars_of_startsArgument h (by decide) [] rest

/-- A name alone is read as a type. -/
theorem reads_type_name {i : Ident} {joint : Bool} {rest : List TokenTree} {depth : Nat}
    (hi : isHead i = true) (hdepth : 0 < depth) :
    Reads ((rules depth).type true) [.ident i] (.punct '=' joint :: rest)
      (.path (.mk false [.mk i .none])) := by
  obtain ⟨d, rfl⟩ : ∃ d, depth = d + 1 := ⟨depth - 1, by omega⟩
  have hspells : SpellsPath false (.mk false [.mk i .none]) [.ident i] :=
    ⟨hi, isSegment_of_isHead hi, rfl⟩
  have hrest : Follows true (.punct '=' joint :: rest) := Follows.cons (c := '=') (by decide) _ _ _
  refine reads_typeRule (reads_typeForm_path hspells ?_ hrest)
  refine reads_sourcePath_of_last hspells (fun s ls hs hls _ => ?_) hrest.atNextSegment
  have hs' : ([] ++ [PathSegment.mk i .none]).getLast? = some s := hs
  exact reads_last_none hs' hls hrest.atAngle

/-! ## Reading types -/

/-- A type is read from its tokens if its bounds fit, deep enough for the tokens. -/
def ReadsType (t : SourceType) : Prop :=
  ∀ ⦃plus : Bool⦄ ⦃ts rest : List TokenTree⦄ ⦃depth : Nat⦄, SpellsType t ts → t.Fits plus →
    Follows plus rest → 8 * TokenTree.sizeAll ts ≤ depth →
      Reads ((rules depth).type plus) ts rest t

/-- Arguments are read from their tokens in the last segment of a path. -/
structure ReadsArguments (a : PathArguments) : Prop where
  /-- With the name of the segment, unless they are those of a call. -/
  segment : ∀ ⦃i : Ident⦄ ⦃ls rest : List TokenTree⦄ ⦃depth : Nat⦄, a.Fits →
    SpellsLast false (.mk i a) ls → 8 * TokenTree.sizeAll ls ≤ depth + 8 →
      atAngle false rest = false → Reads (pathSegment (rules depth) false) ls rest (.mk i a)
  /-- Those of a call, after the name. -/
  call : ∀ ⦃inputs : List SourceType⦄ ⦃output : Option SourceType⦄ ⦃plus : Bool⦄
    ⦃cs rest : List TokenTree⦄ ⦃depth : Nat⦄, a = .call inputs false output → a.Fits →
      SpellsCall inputs output cs → 8 * TokenTree.sizeAll cs ≤ depth + 8 → Follows plus rest →
        Reads (callArguments (rules depth)) cs rest a

/-- An argument in angle brackets is read from its tokens. -/
def ReadsArgument (a : GenericArgument) : Prop :=
  ∀ ⦃ts rest : List TokenTree⦄ ⦃depth : Nat⦄, SpellsArg a ts → a.Fits →
    8 * TokenTree.sizeAll ts ≤ depth → EndsArgument rest →
      Reads (genericArgument (rules depth)) ts rest a

/-- A bound is read from its tokens. -/
def ReadsBound (b : TypeBound) : Prop :=
  ∀ ⦃ts rest : List TokenTree⦄ ⦃depth : Nat⦄, SpellsBound b ts → b.Fits → Follows false rest →
    8 * TokenTree.sizeAll ts ≤ depth → Reads ((rules depth).bound false false) ts rest b

/-- Types in parentheses are read if each of them is. -/
theorem reads_types {elems : List SourceType} (helems : ∀ t ∈ elems, ReadsType t)
    {ts : List TokenTree} {depth : Nat} (h : SpellsTypes elems ts) (hfits : TypesFit elems)
    (hdepth : 8 * TokenTree.sizeAll ts ≤ depth) :
    SeparatedReads List.isEmpty "," ((rules depth).type true) [] ts elems := by
  induction elems generalizing ts with
  | nil =>
    subst h
    exact .nil rfl
  | cons t elems ih =>
    obtain ⟨ht, helems⟩ := List.forall_mem_cons.mp helems
    -- The last element is read to the end, the others up to a comma.
    cases elems with
    | nil =>
      refine .last ?_ (ht h hfits.1 (Follows.nil true) hdepth) rfl
      simpa using ne_nil_of_startsType (head_spellsType h)
    | cons u more =>
      rcases h with ⟨us, joint, ws, hus, hws, rfl⟩
      simp only [sizeAll_append, TokenTree.sizeAll, TokenTree.size] at hdepth
      have hread := ht hus hfits.1 (Follows.cons (c := ',') (by decide) true joint (ws ++ []))
        (show 8 * TokenTree.sizeAll us ≤ depth by omega)
      exact .cons (by simp) hread rfl rfl (by simp) (ih helems hws hfits.2 (by omega))

/-- Arguments in angle brackets are read if each of them is. -/
theorem reads_args {args : List GenericArgument} (hargs : ∀ a ∈ args, ReadsArgument a)
    {ts rest : List TokenTree} {joint : Bool} {depth : Nat} (h : SpellsArgs args ts)
    (hfits : ArgsFit args) (hdepth : 8 * TokenTree.sizeAll ts ≤ depth) :
    SeparatedReads (atOp ">") "," (genericArgument (rules depth)) (.punct '>' joint :: rest) ts
      args := by
  induction args generalizing ts with
  | nil =>
    subst h
    exact .nil rfl
  | cons a args ih =>
    obtain ⟨ha, hargs⟩ := List.forall_mem_cons.mp hargs
    cases args with
    | nil =>
      -- The last argument ends at the closing sign, the others at a comma.
      have hend : EndsArgument (.punct '>' joint :: rest) := ⟨'>', joint, rest, rfl, by decide⟩
      exact .last (atClose_of_startsArgument (head_spellsArg h) _) (ha h hfits.1 hdepth hend) rfl
    | cons b more =>
      rcases h with ⟨us, joint', ws, hus, hws, rfl⟩
      simp only [sizeAll_append, TokenTree.sizeAll, TokenTree.size] at hdepth
      have hend : EndsArgument (.punct ',' joint' :: ws ++ .punct '>' joint :: rest) :=
        ⟨',', joint', _, rfl, by decide⟩
      have hread := ha hus hfits.1 (show 8 * TokenTree.sizeAll us ≤ depth by omega) hend
      refine .cons ?_ hread rfl rfl (by simp) (ih hargs hws hfits.2 (by omega))
      rw [List.append_assoc]
      exact atClose_of_startsArgument (head_spellsArg hus) _

/-- Bounds are read if each of them is. -/
theorem reads_bounds {bs : List TypeBound} (hbs : ∀ b ∈ bs, ReadsBound b) {ts rest : List TokenTree}
    {depth : Nat} (h : SpellsBounds bs ts) (hfits : BoundsFit bs) (hrest : Follows true rest)
    (hdepth : 8 * TokenTree.sizeAll ts ≤ depth) :
    ChainedReads (fun ts => !startsBound false ts) "+" ((rules depth).bound false false) rest ts
      bs := by
  induction bs generalizing ts with
  | nil => exact h.elim
  | cons b bs ih =>
    obtain ⟨hb, hbs⟩ := List.forall_mem_cons.mp hbs
    -- The last bound is followed by whatever follows the list, the others by a `+`.
    cases bs with
    | nil =>
      refine .last ?_ (hb h hfits.1 hrest.weaken hdepth) hrest.atPlus
      rw [(head_spellsBound h rest).2]
      rfl
    | cons c more =>
      rcases h with ⟨us, joint, ws, hus, hws, rfl⟩
      simp only [sizeAll_append, TokenTree.sizeAll, TokenTree.size] at hdepth
      have hread := hb hus hfits.1 (Follows.cons_plus joint (ws ++ rest))
        (show 8 * TokenTree.sizeAll us ≤ depth by omega)
      refine .cons ?_ hread rfl (ih hbs hws hfits.2 (by omega))
      rw [List.append_assoc, (head_spellsBound hus _).2]
      rfl

/-- The last segment of a path is read if its arguments are. -/
theorem reads_last {segments : List PathSegment} (h : ∀ s ∈ segments, ReadsArguments s.arguments)
    (hfits : SegmentsFit segments) {s : PathSegment} {ls rest : List TokenTree} {depth : Nat}
    (hs : segments.getLast? = some s) (hls : SpellsLast false s ls)
    (hdepth : 8 * TokenTree.sizeAll ls ≤ depth + 8) (hrest : atAngle false rest = false) :
    Reads (pathSegment (rules depth) false) ls rest s := by
  have hmem := List.mem_of_getLast? hs
  rcases s with ⟨i, arguments⟩
  exact (h _ hmem).segment (segmentsFit_iff.mp hfits _ hmem) hls hdepth hrest

/-- Every type, and what it is made of, is read from its tokens. -/
theorem reads_typeCases : TypeCases ReadsType ReadsArguments ReadsArgument ReadsBound where
  path absolute segments ih plus ts rest depth h hfits hrest hdepth := by
    rcases exists_depth_eq h hdepth with ⟨d, rfl⟩
    refine reads_typeRule (reads_typeForm_path h ?_ hrest)
    refine reads_sourcePath_of_last h (fun s ls hs hls hsub => ?_) hrest.atNextSegment
    have hsize := sizeAll_le_of_suffix hsub
    exact reads_last ih hfits hs hls (by omega) hrest.atAngle
  reference lifetime mutable target ih plus ts rest depth h hfits hrest hdepth := by
    rcases exists_depth_eq h hdepth with ⟨d, rfl⟩
    rcases h with ⟨joint, us, hus, rfl⟩
    simp only [TokenTree.sizeAll, sizeAll_append, TokenTree.size] at hdepth
    -- a target is read without plus signs, so more can follow it
    have hread := ih hus hfits hrest.weaken (show 8 * TokenTree.sizeAll us ≤ d by omega)
    exact reads_typeRule (reads_typeForm_reference (head_spellsType hus) hread)
  pointer mutable target ih plus ts rest depth h hfits hrest hdepth := by
    rcases exists_depth_eq h hdepth with ⟨d, rfl⟩
    rcases h with ⟨joint, us, hus, rfl⟩
    simp only [TokenTree.sizeAll, TokenTree.size] at hdepth
    have hread := ih hus hfits hrest.weaken (show 8 * TokenTree.sizeAll us ≤ d by omega)
    exact reads_typeRule (reads_typeForm_pointer hread)
  traitObject marked bounds trailing ih plus ts rest depth h hfits hrest hdepth := by
    rcases exists_depth_eq h hdepth with ⟨d, rfl⟩
    rcases h with ⟨rfl, rfl, htrait, us, hus, rfl⟩
    match bounds with
    | [] => exact hus.elim
    | [b] =>
      simp only [TokenTree.sizeAll, TokenTree.size, wordToken] at hdepth
      have hread := ih b List.mem_cons_self hus hfits.2.1 hrest.weaken
        (show 8 * TokenTree.sizeAll us ≤ d by omega)
      have hplus : (plus && atOp "+" rest) = false := by
        cases plus with
        | false => rfl
        | true => exact hrest.atPlus
      exact reads_typeRule (reads_typeForm_object htrait (head_spellsBound hus rest).1
        (reads_bounds_one hread hplus))
    | b :: c :: more =>
      rcases hus with ⟨vs, joint, ws, hvs, hws, rfl⟩
      simp only [TokenTree.sizeAll, sizeAll_append, TokenTree.size, wordToken] at hdepth
      -- several bounds are read only where plus signs are
      have hplus : plus = true := (hfits.1 rfl).resolve_right (by simp)
      subst hplus
      obtain ⟨hb, hbounds⟩ := List.forall_mem_cons.mp ih
      have hread := hb hvs hfits.2.1 (Follows.cons_plus joint (ws ++ rest))
        (show 8 * TokenTree.sizeAll vs ≤ d by omega)
      have hmore := reads_bounds hbounds hws hfits.2.2 hrest
        (show 8 * TokenTree.sizeAll ws ≤ d by omega)
      have hstar : atOp "*" (vs ++ .punct '+' joint :: ws ++ rest) = false := by
        rw [List.append_assoc]
        exact (head_spellsBound hvs _).1
      exact reads_typeRule (reads_typeForm_object htrait hstar (reads_bounds_more hread hmore))
  tuple elems trailing ih plus ts rest depth h hfits hrest hdepth := by
    rcases exists_depth_eq h hdepth with ⟨d, rfl⟩
    cases elems with
    | nil =>
      rcases h with ⟨rfl, rfl⟩
      exact reads_typeRule reads_typeForm_unit
    | cons elem elems =>
      rcases h with ⟨rfl, us, joint, ws, hus, hws, rfl⟩
      simp only [TokenTree.sizeAll, sizeAll_append, TokenTree.size] at hdepth
      obtain ⟨helem, helems⟩ := List.forall_mem_cons.mp ih
      have hread := helem hus hfits.1 (Follows.cons (c := ',') (by decide) true joint ws)
        (show 8 * TokenTree.sizeAll us ≤ d by omega)
      have hmore := reads_types helems hws hfits.2 (show 8 * TokenTree.sizeAll ws ≤ d by omega)
      exact reads_typeRule (reads_typeForm_tuple (head_spellsType hus) hread hmore)
  array elem length ih plus ts rest depth h hfits hrest hdepth := by
    rcases exists_depth_eq h hdepth with ⟨d, rfl⟩
    rcases h with ⟨us, joint, ws, hus, hws, rfl⟩
    simp only [TokenTree.sizeAll, sizeAll_append, TokenTree.size] at hdepth
    have hread := ih hus hfits (Follows.cons (c := ';') (by decide) true joint ws)
      (show 8 * TokenTree.sizeAll us ≤ d by omega)
    rcases hws d (by omega) with ⟨kind, hlength⟩
    exact reads_typeRule (reads_typeForm_array hread hlength)
  slice elem ih plus ts rest depth h hfits hrest hdepth := by
    rcases exists_depth_eq h hdepth with ⟨d, rfl⟩
    rcases h with ⟨us, hus, rfl⟩
    simp only [TokenTree.sizeAll, TokenTree.size] at hdepth
    have hread := ih hus hfits (Follows.nil true) (show 8 * TokenTree.sizeAll us ≤ d by omega)
    exact reads_typeRule (reads_typeForm_slice hread)
  paren _ _ _ _ _ _ h := h.elim
  function _ plus _ rest depth h _ hrest hdepth := h.2 depth plus rest hdepth hrest
  never plus ts rest depth h hfits hrest hdepth := by
    rcases exists_depth_eq h hdepth with ⟨d, rfl⟩
    rcases h with ⟨joint, rfl⟩
    exact reads_typeRule reads_typeForm_never
  other _ _ _ _ _ h := h.elim
  noArguments :=
    { segment := fun _ _ _ _ _ h _ hrest => h.2 ▸ reads_pathSegment_none h.1 hrest
      call := fun _ _ _ _ _ _ h => nomatch h }
  angle turbofish args trailing ih :=
    { segment := by
        intro i ls rest depth hfits h hdepth hrest
        rcases h with ⟨rfl, rfl, hi, hlone, joint, joint', us, hus, rfl⟩
        simp only [sizeAll_append, TokenTree.sizeAll, TokenTree.size] at hdepth
        refine reads_pathSegment_angle hi hlone (head_spellsArgs hus) (reads_args ih hus hfits ?_)
        omega
      call := fun _ _ _ _ _ _ h => nomatch h }
  call inputs trailing output hinputs houtput :=
    { segment := by
        intro i ls rest depth _ h
        cases output <;> cases h.1
      call := by
        intro inputs' output' plus cs rest depth heq hfits h hdepth hrest
        cases heq
        cases output with
        | none =>
          rcases h with ⟨us, hus, rfl⟩
          simp only [TokenTree.sizeAll, TokenTree.size] at hdepth
          have hread := reads_types hinputs hus hfits
            (show 8 * TokenTree.sizeAll us ≤ depth by omega)
          exact reads_callArguments_none hread (hrest.atOpChars (by decide) ['>'])
        | some output =>
          rcases h with ⟨us, joint, ws, hus, hws, rfl⟩
          simp only [TokenTree.sizeAll, TokenTree.size] at hdepth
          have hread := reads_types hinputs hus hfits.1
            (show 8 * TokenTree.sizeAll us ≤ depth by omega)
          have hresult := houtput output rfl hws hfits.2 hrest.weaken
            (show 8 * TokenTree.sizeAll ws ≤ depth by omega)
          exact reads_callArguments_some hread hresult }
  typeArgument _ ih _ _ _ h hfits hdepth hrest :=
    reads_genericArgument_type (head_spellsType h) (ih h hfits (hrest.follows true) hdepth) hrest
  lifetimeArgument i ts rest depth h _ _ hrest := by
    subst h
    exact reads_genericArgument_lifetime i hrest
  constArgument _ _ _ _ h _ hdepth hrest := reads_genericArgument_const h hdepth hrest
  binding i own t _ ih ts rest depth h hfits hdepth hrest := by
    rcases h with ⟨rfl, hi, joint, us, hus, rfl⟩
    simp only [TokenTree.sizeAll, TokenTree.size] at hdepth
    have hread := ih hus hfits (hrest.follows true) (show 8 * TokenTree.sizeAll us ≤ depth by omega)
    exact reads_genericArgument_binding hi (reads_type_name hi (by omega)) (head_spellsType hus)
      hread
  otherArgument _ _ _ _ h := h.elim
  lifetimeBound i ts rest depth h _ _ hdepth := by
    subst h
    obtain ⟨d, rfl⟩ : ∃ d, depth = d + 1 :=
      ⟨depth - 1, by simp [TokenTree.sizeAll, TokenTree.size] at hdepth; omega⟩
    exact reads_boundRule_lifetime i
  trait parenthesized maybe binder absolute segments ih ts rest depth h hfits hrest hdepth := by
    rcases h with ⟨rfl, rfl, joint, us, hus, rfl⟩
    rw [sizeAll_append] at hdepth
    have hpos : 0 < TokenTree.sizeAll us := sizeAll_pos (ne_nil_of_spellsPath hus)
    obtain ⟨d, rfl⟩ : ∃ d, depth = d + 1 := ⟨depth - 1, by omega⟩
    refine reads_boundRule_trait hus (reads_traitPath hus hrest (fun s ls hs hls hsub => ?_)
      fun i inputs output cs hs hcs hsub => ?_)
    · have hsize := sizeAll_le_of_suffix hsub
      exact reads_last ih hfits hs hls (by omega) hrest.atAngle
    · have hsize := sizeAll_le_of_suffix hsub
      have hmem := List.mem_of_getLast? hs
      exact (ih _ hmem).call rfl (segmentsFit_iff.mp hfits _ hmem) hcs (by omega) hrest
  otherBound _ _ _ _ h := h.elim

/-- A type whose bounds fit is read from its tokens, deep enough for them. -/
theorem reads_type (t : SourceType) : ReadsType t := reads_typeCases.type t

/-- A text that falls into the tokens of a type whose bounds fit is read as the type. -/
theorem parseType_of_spells {text : String} {ts : List TokenTree} {t : SourceType}
    (hlex : Token.lex text = some ts) (h : SpellsType t ts) (hfits : t.Fits true) :
    parseType text = some t := by
  have hread := reads_type t h hfits (Follows.nil true)
    (show 8 * TokenTree.sizeAll ts ≤ 8 * (TokenTree.sizeAll ts + 1) by omega)
  rw [parseType, readText, hlex]
  exact hread.run?

end Memberwise.Source
