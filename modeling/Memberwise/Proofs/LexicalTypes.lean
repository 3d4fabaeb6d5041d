import Memberwise.Proofs.LexicalTokens
import Memberwise.Proofs.TypeInduction
import Memberwise.Source.Written

/-!
# Memberwise.Proofs.LexicalTypes — types whose tokens are read from their own texts

A type holds names and, for the forms that are never resolved, tokens as they are. Where the names
are words and these tokens are read from their own texts, so are all tokens of the type
(`lexicalAll_type`), whatever its printed form puts between them.
-/

namespace Memberwise.Source

open Token TokenTree

/-! ## Types -/

mutual

/-- The names in the type are words, and the tokens that it keeps are read from their own texts. -/
inductive SourceType.Lexical : SourceType → Prop
  | path {p : SourcePath} (hp : p.Lexical) : SourceType.Lexical (.path p)
  | reference {lifetime : Option Ident} {mutable : Bool} {target : SourceType}
      (hlifetime : ∀ i ∈ lifetime, i.Lexical) (htarget : target.Lexical) :
      SourceType.Lexical (.reference lifetime mutable target)
  | pointer {mutable : Bool} {target : SourceType} (htarget : target.Lexical) :
      SourceType.Lexical (.pointer mutable target)
  | traitObject {marked trailing : Bool} {bounds : List TypeBound}
      (hbounds : ∀ b ∈ bounds, b.Lexical) : SourceType.Lexical (.traitObject marked bounds trailing)
  | tuple {elems : List SourceType} {trailing : Bool} (helems : ∀ t ∈ elems, t.Lexical) :
      SourceType.Lexical (.tuple elems trailing)
  | array {elem : SourceType} {length : List TokenTree} (helem : elem.Lexical)
      (hlength : LexicalAll length) : SourceType.Lexical (.array elem length)
  | slice {elem : SourceType} (helem : elem.Lexical) : SourceType.Lexical (.slice elem)
  | paren {inner : SourceType} (hinner : inner.Lexical) : SourceType.Lexical (.paren inner)
  | function {tokens : List TokenTree} (htokens : LexicalAll tokens) :
      SourceType.Lexical (.function tokens)
  | never : SourceType.Lexical .never
  | other {tokens : List TokenTree} (htokens : LexicalAll tokens) :
      SourceType.Lexical (.other tokens)

@[inherit_doc SourceType.Lexical]
inductive SourcePath.Lexical : SourcePath → Prop
  | mk {absolute : Bool} {segments : List PathSegment} (hsegments : ∀ s ∈ segments, s.Lexical) :
      SourcePath.Lexical (.mk absolute segments)

@[inherit_doc SourceType.Lexical]
inductive PathSegment.Lexical : PathSegment → Prop
  | mk {name : Ident} {arguments : PathArguments} (hname : name.Lexical)
      (harguments : arguments.Lexical) : PathSegment.Lexical (.mk name arguments)

@[inherit_doc SourceType.Lexical]
inductive PathArguments.Lexical : PathArguments → Prop
  | none : PathArguments.Lexical .none
  | angle {turbofish trailing : Bool} {args : List GenericArgument}
      (hargs : ∀ a ∈ args, a.Lexical) : PathArguments.Lexical (.angle turbofish args trailing)
  | call {inputs : List SourceType} {trailing : Bool} {output : Option SourceType}
      (hinputs : ∀ t ∈ inputs, t.Lexical) (houtput : ∀ t ∈ output, t.Lexical) :
      PathArguments.Lexical (.call inputs trailing output)

@[inherit_doc SourceType.Lexical]
inductive GenericArgument.Lexical : GenericArgument → Prop
  | type {t : SourceType} (ht : t.Lexical) : GenericArgument.Lexical (.type t)
  | lifetime {i : Ident} (hi : i.Lexical) : GenericArgument.Lexical (.lifetime i)
  | const {tokens : List TokenTree} (htokens : LexicalAll tokens) :
      GenericArgument.Lexical (.const tokens)
  | binding {name : Ident} {own : PathArguments} {t : SourceType} (hname : name.Lexical)
      (hown : own.Lexical) (ht : t.Lexical) : GenericArgument.Lexical (.binding name own t)
  | other {tokens : List TokenTree} (htokens : LexicalAll tokens) :
      GenericArgument.Lexical (.other tokens)

@[inherit_doc SourceType.Lexical]
inductive TypeBound.Lexical : TypeBound → Prop
  | lifetime {i : Ident} (hi : i.Lexical) : TypeBound.Lexical (.lifetime i)
  | trait {parenthesized maybe : Bool} {binder : List TokenTree} {p : SourcePath}
      (hbinder : LexicalAll binder) (hp : p.Lexical) :
      TypeBound.Lexical (.trait parenthesized maybe binder p)
  | other {tokens : List TokenTree} (htokens : LexicalAll tokens) :
      TypeBound.Lexical (.other tokens)

end

/-! ## Parts of their tokens -/

/-- No tokens are such tokens. -/
theorem lexicalAll_nil : LexicalAll [] := trivial

/-- An identifier is such a token. -/
theorem lexicalAll_ident {i : Ident} (h : i.Lexical) : LexicalAll [.ident i] :=
  lexicalAll_singleton h (by simp)

/-- A lifetime is such a token. -/
theorem lexicalAll_lifetime {i : Ident} (h : i.Lexical) : LexicalAll [.lifetime i] :=
  lexicalAll_singleton h (by simp)

/-- A literal is such a token. -/
theorem lexicalAll_literal {text : String} (h : LiteralText text.toList) :
    LexicalAll [.literal text] := lexicalAll_singleton h (by simp)

/-- A group of such tokens is such a token. -/
theorem lexicalAll_group {d : Delimiter} {body : List TokenTree} (h : LexicalAll body) :
    LexicalAll [.group d body] := lexicalAll_singleton h (by simp)

/-- A bare word is such a token. -/
theorem lexicalAll_word (word : String) (h : (Ident.plain word).Lexical) :
    LexicalAll [wordToken word] := lexicalAll_ident h

/-- Tokens that may be there are such tokens. -/
theorem lexicalAll_ite {b : Prop} [Decidable b] {ts : List TokenTree} (h : LexicalAll ts) :
    LexicalAll (if b then ts else []) := by
  split
  · exact h
  · exact lexicalAll_nil

/-- An operator is read from its own text if no slash goes on in it. -/
theorem lexicalAll_operatorOf {cs : List Char} (h : ∀ c ∈ cs, c ∈ punctuation)
    (hslash : '/' ∉ cs.dropLast) : LexicalAll (operatorOf cs) := by
  induction cs with
  | nil => exact lexicalAll_nil
  | cons c cs ih =>
    obtain ⟨hc, hcs⟩ := List.forall_mem_cons.mp h
    cases cs with
    | nil => exact lexicalAll_singleton hc (by simp)
    | cons d cs =>
      rw [List.dropLast_cons_cons, List.mem_cons, not_or] at hslash
      -- Only a slash is restricted in what it may be joined to, and it can come last only.
      have hgoes : ∀ ts, SlashGoesOn (.punct c true) ts := by
        intro ts heq
        exact absurd (TokenTree.punct.inj heq).1.symm hslash.1
      exact ⟨hc, hgoes _, ih hcs hslash.2⟩

/-- Whether the text consists of the characters of operators, and no slash goes on in it. -/
def isOperatorText (text : String) : Bool :=
  text.toList.all punctuation.contains && !text.toList.dropLast.contains '/'

/-- The signs of an operator are such tokens. -/
theorem lexicalAll_of_isOperatorText {text : String} (h : isOperatorText text = true) :
    LexicalAll (operator text) := by
  simp only [isOperatorText, Bool.and_eq_true, List.all_eq_true, List.contains_eq_mem,
    decide_eq_true_eq, Bool.not_eq_true', decide_eq_false_iff_not] at h
  exact lexicalAll_operatorOf h.1 h.2

/-- The operators that are named in the grammar. -/
def namedOperators : List String :=
  ["!", "#", "&", "*", "+", ",", "-", "->", ".", "..", "...", "..=", ":", "::", ";", "<", "=", "=>",
    ">", "?", "@", "|"]

/-- The signs of an operator of the grammar are such tokens. -/
theorem lexicalAll_operator (op : String) (h : op ∈ namedOperators) :
    LexicalAll (operator op) := by
  have hall : namedOperators.all isOperatorText = true := by decide +kernel
  exact lexicalAll_of_isOperatorText (List.all_eq_true.mp hall op h)

/-- Parts of such tokens with such separators are such tokens. -/
theorem lexicalAll_separate {separator : List TokenTree} (hseparator : LexicalAll separator)
    (trailing : Bool) {parts : List (List TokenTree)} (h : ∀ part ∈ parts, LexicalAll part) :
    LexicalAll (separate separator trailing parts) := by
  induction parts with
  | nil => exact lexicalAll_nil
  | cons part parts ih =>
    obtain ⟨hpart, hparts⟩ := List.forall_mem_cons.mp h
    cases parts with
    | nil => exact hpart.append (lexicalAll_ite hseparator)
    | cons next parts => exact (hpart.append hseparator).append (ih hparts)

/-- What holds of all parts holds when lifetimes are printed first. -/
theorem forall_mem_lifetimesFirst {parts : List (List TokenTree)}
    (h : ∀ part ∈ parts, LexicalAll part) : ∀ part ∈ lifetimesFirst parts, LexicalAll part := by
  intro part hpart
  rcases List.mem_append.mp hpart with hpart | hpart
  · exact h part (List.mem_of_mem_filter hpart)
  · exact h part (List.mem_of_mem_filter hpart)

/-! ## All their tokens -/

/-- Elements of a list in brackets. -/
theorem lexicalAll_listed {d : Delimiter} {t : Bool} {parts : List (List TokenTree)}
    (h : ∀ part ∈ parts, LexicalAll part) :
    LexicalAll [.group d (separate (operator ",") t parts)] :=
  lexicalAll_group (lexicalAll_separate (lexicalAll_operator "," (by decide)) t h)

/-- Types of such tokens are printed as parts of such tokens. -/
theorem forall_mem_typeTokens {ts : List SourceType} (h : ∀ t ∈ ts, LexicalAll t.tokens) :
    ∀ part ∈ typeTokens ts, LexicalAll part := by
  induction ts with
  | nil => exact List.forall_mem_nil _
  | cons t ts ih =>
    obtain ⟨ht, hts⟩ := List.forall_mem_cons.mp h
    exact List.forall_mem_cons.mpr ⟨ht, ih hts⟩

/-- Segments of such tokens are printed as parts of such tokens. -/
theorem forall_mem_segmentTokens {segments : List PathSegment}
    (h : ∀ s ∈ segments, s.name.Lexical ∧ LexicalAll s.arguments.tokens) :
    ∀ part ∈ segmentTokens segments, LexicalAll part := by
  induction segments with
  | nil => exact List.forall_mem_nil _
  | cons s rest ih =>
    obtain ⟨⟨hname, harguments⟩, hrest⟩ := List.forall_mem_cons.mp h
    cases s with
    | mk i arguments =>
      exact List.forall_mem_cons.mpr ⟨(lexicalAll_ident hname).append harguments, ih hrest⟩

/-- The tokens of arguments are read from their own texts if each argument puts such tokens before
those of the others. -/
theorem forall_mem_argumentTokens {args : List GenericArgument}
    (h : ∀ a ∈ args, ∀ rest, (∀ part ∈ argumentTokens rest, LexicalAll part) →
      ∀ part ∈ argumentTokens (a :: rest), LexicalAll part) :
    ∀ part ∈ argumentTokens args, LexicalAll part := by
  induction args with
  | nil => exact List.forall_mem_nil _
  | cons a args ih =>
    obtain ⟨ha, hargs⟩ := List.forall_mem_cons.mp h
    exact ha args (ih hargs)

/-- Bounds of such tokens are printed as parts of such tokens. -/
theorem forall_mem_boundTokens {bounds : List TypeBound}
    (h : ∀ b ∈ bounds, ∀ rest, (∀ part ∈ boundTokens rest, LexicalAll part) →
      ∀ part ∈ boundTokens (b :: rest), LexicalAll part) :
    ∀ part ∈ boundTokens bounds, LexicalAll part := by
  induction bounds with
  | nil => exact List.forall_mem_nil _
  | cons b bounds ih =>
    obtain ⟨hb, hbounds⟩ := List.forall_mem_cons.mp h
    exact hb bounds (ih hbounds)

/-- A path of such segments is printed as such tokens. -/
theorem lexicalAll_path (absolute : Bool) {segments : List PathSegment}
    (h : ∀ s ∈ segments, s.name.Lexical ∧ LexicalAll s.arguments.tokens) :
    LexicalAll (SourcePath.mk absolute segments).tokens :=
  (lexicalAll_ite (lexicalAll_operator "::" (by decide))).append
    (lexicalAll_separate (lexicalAll_operator "::" (by decide)) false (forall_mem_segmentTokens h))

/-- The segments of a path whose names are words, with what holds of their arguments. -/
theorem forall_mem_segments {absolute : Bool} {segments : List PathSegment}
    (hp : (SourcePath.mk absolute segments).Lexical)
    (h : ∀ s ∈ segments, s.arguments.Lexical → LexicalAll s.arguments.tokens) :
    ∀ s ∈ segments, s.name.Lexical ∧ LexicalAll s.arguments.tokens := by
  cases hp with
  | mk hsegments =>
    intro s hs
    have harguments := h s hs
    cases hsegments s hs with
    | mk hname hlexical => exact ⟨hname, harguments hlexical⟩

/-- Each form of type is printed as such tokens if its parts are. -/
theorem lexical_typeCases :
    TypeCases (fun t => t.Lexical → LexicalAll t.tokens) (fun a => a.Lexical → LexicalAll a.tokens)
      (fun a => a.Lexical → ∀ rest, (∀ part ∈ argumentTokens rest, LexicalAll part) →
        ∀ part ∈ argumentTokens (a :: rest), LexicalAll part)
      (fun b => b.Lexical → ∀ rest, (∀ part ∈ boundTokens rest, LexicalAll part) →
        ∀ part ∈ boundTokens (b :: rest), LexicalAll part) where
  path absolute segments ih
    | .path hp => lexicalAll_path absolute (forall_mem_segments hp ih)
  reference lifetime mutable target ih
    | .reference hlifetime htarget => by
      have hmark : LexicalAll (lifetime.map TokenTree.lifetime).toList := by
        cases lifetime with
        | none => exact lexicalAll_nil
        | some i => exact lexicalAll_lifetime (hlifetime i rfl)
      have hmut := lexicalAll_ite (b := mutable = true) (lexicalAll_word "mut" (by decide))
      have hand := lexicalAll_operator "&" (by decide)
      exact ((hand.append hmark).append hmut).append (ih htarget)
  pointer mutable target ih
    | .pointer htarget => by
      have hword : LexicalAll [wordToken (if mutable then "mut" else "const")] := by
        cases mutable with
        | false => exact lexicalAll_word "const" (by decide)
        | true => exact lexicalAll_word "mut" (by decide)
      have hstar := lexicalAll_operator "*" (by decide)
      exact (hstar.append hword).append (ih htarget)
  traitObject marked bounds trailing ih
    | .traitObject hbounds =>
      (lexicalAll_ite (lexicalAll_word "dyn" (by decide))).append
        (lexicalAll_separate (lexicalAll_operator "+" (by decide)) trailing
          (forall_mem_boundTokens fun b hb => ih b hb (hbounds b hb)))
  tuple elems trailing ih
    | .tuple helems => lexicalAll_listed (forall_mem_typeTokens fun t ht => ih t ht (helems t ht))
  array elem length ih
    | .array helem hlength => lexicalAll_group <|
      ((ih helem).append (lexicalAll_operator ";" (by decide))).append hlength
  slice elem ih
    | .slice helem => lexicalAll_group (ih helem)
  paren inner ih
    | .paren hinner => lexicalAll_group (ih hinner)
  function tokens
    | .function htokens => htokens
  never _ := lexicalAll_operator "!" (by decide)
  other tokens
    | .other htokens => htokens
  noArguments _ := lexicalAll_nil
  angle turbofish args trailing ih
    | .angle hargs => by
      have hparts := forall_mem_lifetimesFirst
        (forall_mem_argumentTokens fun a ha => ih a ha (hargs a ha))
      have hcolons := lexicalAll_ite (b := turbofish = true) (lexicalAll_operator "::" (by decide))
      have hopen := lexicalAll_operator "<" (by decide)
      have hlist := lexicalAll_separate (lexicalAll_operator "," (by decide))
        (trailing || lifetimeEnds (argumentTokens args)) hparts
      -- The lifetimes come first in a printed list, which does not change which parts it has.
      rw [PathArguments.tokens]
      exact ((hcolons.append hopen).append hlist).append (lexicalAll_operator ">" (by decide))
  call inputs trailing output ihinputs ihoutput
    | .call hinputs houtput => by
      have hlist := lexicalAll_listed (d := .parenthesis) (t := trailing)
        (forall_mem_typeTokens fun t ht => ihinputs t ht (hinputs t ht))
      cases output with
      | none => exact hlist
      | some output =>
        have harrow := lexicalAll_operator "->" (by decide)
        exact hlist.append (harrow.append (ihoutput output rfl (houtput output rfl)))
  typeArgument t ih
    | .type ht, _, hrest => List.forall_mem_cons.mpr ⟨ih ht, hrest⟩
  lifetimeArgument i
    | .lifetime hi, _, hrest => List.forall_mem_cons.mpr ⟨lexicalAll_lifetime hi, hrest⟩
  constArgument tokens
    | .const htokens, _, hrest => List.forall_mem_cons.mpr ⟨htokens, hrest⟩
  binding name own t ihown ih
    | .binding hname hown ht, _, hrest => by
      have hbound := (lexicalAll_ident hname).append (ihown hown)
      have hequals := lexicalAll_operator "=" (by decide)
      exact List.forall_mem_cons.mpr ⟨(hbound.append hequals).append (ih ht), hrest⟩
  otherArgument tokens
    | .other htokens, _, hrest => List.forall_mem_cons.mpr ⟨htokens, hrest⟩
  lifetimeBound i
    | .lifetime hi, _, hrest => List.forall_mem_cons.mpr ⟨lexicalAll_lifetime hi, hrest⟩
  trait parenthesized maybe binder absolute segments ih
    | .trait hbinder hp, _, hrest => by
      have hmark := lexicalAll_ite (b := maybe = true) (lexicalAll_operator "?" (by decide))
      have htokens := (hmark.append hbinder).append
        (lexicalAll_path absolute (forall_mem_segments hp ih))
      refine List.forall_mem_cons.mpr ⟨?_, hrest⟩
      cases parenthesized with
      | false => exact htokens
      | true => exact lexicalAll_group htokens
  otherBound tokens
    | .other htokens, _, hrest => List.forall_mem_cons.mpr ⟨htokens, hrest⟩

/-- The tokens of a type are read from their own texts if those that it keeps are. -/
theorem lexicalAll_type (t : SourceType) : t.Lexical → LexicalAll t.tokens :=
  lexical_typeCases.type t

/-- The arguments of a segment are printed as such tokens. -/
theorem lexicalAll_arguments (a : PathArguments) : a.Lexical → LexicalAll a.tokens :=
  lexical_typeCases.arguments a

end Memberwise.Source
