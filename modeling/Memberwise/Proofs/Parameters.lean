import Memberwise.Proofs.CanonicalForm
import Memberwise.Proofs.Pieces
import Memberwise.Proofs.Substitution

/-!
# Memberwise.Proofs.Parameters — which parameters of an alias show

The text of a resolved type is made of parts: canonical paths, the texts of lifetimes, of lengths
and constants, of function pointers and of associated types, and words of the language. All else in
it is punctuation, so the words of the text are those of its parts, in order (`madeOf_resolveIn`).

The parts can be told from the type as it is written (`SourceType.parts`). Where a bare name is a
type parameter of an alias, the parts are those of its argument; all other parts are what the target
itself says. So an alias shows a parameter, be it a lifetime, a type or a constant, exactly if one
of the parts of its target names the parameter (`parameters_hidden_iff`).
-/

namespace Memberwise

open Source

/-! ## Words -/

/-- Whether a character stands between words: it can be no part of an identifier and is no
apostrophe, which starts a lifetime. -/
def isBreak (c : Char) : Bool := !Text.isIdentContinue c && c != '\''

/-- The words of a text, which are lifetimes and what can be identifiers. -/
def words (text : String) : List String :=
  ((Text.splitAt isBreak text.toList).filter fun cs => !cs.isEmpty).map String.ofList

/-- A text that separates words. -/
def Separates (sep : String) : Prop := sep.toList ≠ [] ∧ sep.toList.all isBreak = true

instance : DecidablePred Separates := fun _ => inferInstanceAs (Decidable (_ ∧ _))

/-- A space ends the words beside it. -/
theorem separates_space : Separates " " := by decide +kernel

/-- A comma with a space ends the words beside it. -/
theorem separates_comma : Separates ", " := by decide +kernel

/-- Separators in front of a text add no words. -/
theorem filter_splitAt_append {p : Char → Bool} {cs : List Char} (h : ∀ c ∈ cs, p c = true)
    (ds : List Char) : (Text.splitAt p (cs ++ ds)).filter (fun cs => !cs.isEmpty) =
      (Text.splitAt p ds).filter fun cs => !cs.isEmpty := by
  induction cs with
  | nil => rfl
  | cons c cs ih =>
    obtain ⟨hc, hcs⟩ := List.forall_mem_cons.mp h
    rw [List.cons_append, Text.splitAt, if_pos hc]
    exact ih hcs

/-- Between words, a text falls into two. -/
theorem words_append {sep : String} (hsep : Separates sep) (a b : String) :
    words (a ++ sep ++ b) = words a ++ words b := by
  obtain ⟨hne, hbreaks⟩ := hsep
  obtain ⟨c, cs, heq⟩ := List.exists_cons_of_ne_nil hne
  rw [heq, List.all_eq_true] at hbreaks
  obtain ⟨hc, hcs⟩ := List.forall_mem_cons.mp hbreaks
  have htext : (a ++ sep ++ b).toList = a.toList ++ c :: (cs ++ b.toList) := by simp [heq]
  unfold words
  rw [htext, splitAt_append_cons hc, List.filter_append, filter_splitAt_append hcs, List.map_append]

section

variable {sep : String} (hsep : Separates sep)

/-- The empty text has no words. -/
@[simp] theorem words_empty : words "" = [] := by decide

include hsep

/-- A separator in front adds no words. -/
theorem words_after (b : String) : words (sep ++ b) = words b := by
  have h := words_append hsep "" b
  rwa [String.empty_append] at h

/-- A separator at the end adds no words. -/
theorem words_before (a : String) : words (a ++ sep) = words a := by
  have h := words_append hsep a ""
  rwa [String.append_empty, words_empty, List.append_nil] at h

/-- The words of texts with separators between them are those of each. -/
theorem words_intercalate (texts : List String) :
    words (sep.intercalate texts) = texts.flatMap words := by
  induction texts with
  | nil => simp
  | cons text texts ih =>
    cases texts with
    | nil => simp
    | cons next texts =>
      rw [String.intercalate_cons_cons, words_append hsep, ih]
      rfl

end

/-! ## The parts of a type -/

/-- What the parts of a type are found with: the canonical paths of what it names, the aliases among
these, the parts of an alias whose type arguments have the given parts, and the parts of what stands
for parameters. -/
structure PartsContext where
  canonical : NamePath → Option String
  alias? : String → Option Alias
  expand : Alias → List (List String) → List String
  params : List (String × List String)

/-- The parts of an argument, and whether it is a type. -/
structure ArgumentParts where
  isType : Bool
  parts : List String

/-- The parts of a named type with the parts of its arguments. -/
def PartsContext.named (k : PartsContext) (path : String) (args : List ArgumentParts) :
    List String :=
  match k.alias? path with
  | some a => k.expand a ((args.filter (·.isType)).map (·.parts))
  | none => path :: args.flatMap (·.parts)

namespace Source

mutual

/-- The texts that the canonical form of a type is made of, punctuation apart, in order. -/
def SourceType.parts (k : PartsContext) : SourceType → List String
  | .paren inner => inner.parts k
  | .path p =>
    match (bareName? p).bind fun name => lookupLast name k.params with
    | some parts => parts
    | none =>
      match k.canonical p.namePath with
      | some path => k.named path (p.parts k)
      | none => []
  | .reference lifetime mutable target =>
    (lifetime.map fun i => "'" ++ i.text).toList ++ (if mutable then ["mut"] else []) ++
      target.parts k
  | .pointer mutable target => (if mutable then "mut" else "const") :: target.parts k
  | .traitObject _ bounds _ => "dyn" :: partsOfBounds k bounds
  | .tuple elems _ => partsOfTypes k elems
  | .array elem length => elem.parts k ++ [TokenTree.textAll length]
  | .slice elem => elem.parts k
  | .function tokens => [(SourceType.function tokens).written]
  | .never => []
  | .other _ => []

/-- The parts of a list of types. -/
def partsOfTypes (k : PartsContext) : List SourceType → List String
  | [] => []
  | t :: ts => t.parts k ++ partsOfTypes k ts

/-- The parts of the arguments of the last segment of a path. -/
def SourcePath.parts (k : PartsContext) : SourcePath → List ArgumentParts
  | .mk _ segments => partsOfLast k segments

/-- The parts of the arguments of the last of a list of segments. -/
def partsOfLast (k : PartsContext) : List PathSegment → List ArgumentParts
  | [] => []
  | [.mk _ arguments] => arguments.parts k
  | _ :: rest => partsOfLast k rest

/-- The parts of the arguments of a segment. -/
def PathArguments.parts (k : PartsContext) : PathArguments → List ArgumentParts
  | .none => []
  | .angle _ args _ => partsOfArgs k args
  | .call inputs _ none => [⟨false, partsOfTypes k inputs⟩]
  | .call inputs _ (some output) => [⟨false, partsOfTypes k inputs⟩, ⟨false, output.parts k⟩]

/-- The parts of arguments in angle brackets. -/
def partsOfArgs (k : PartsContext) : List GenericArgument → List ArgumentParts
  | [] => []
  | a :: as => a.parts k :: partsOfArgs k as

/-- The parts of an argument in angle brackets. -/
def GenericArgument.parts (k : PartsContext) : GenericArgument → ArgumentParts
  | .type t => ⟨true, t.parts k⟩
  | .lifetime i => ⟨false, ["'" ++ i.text]⟩
  | .const tokens => ⟨false, [TokenTree.textAll tokens]⟩
  | .binding i _ t => ⟨false, i.text :: t.parts k⟩
  | .other _ => ⟨false, []⟩

/-- The parts of bounds. -/
def partsOfBounds (k : PartsContext) : List TypeBound → List String
  | [] => []
  | b :: bs => b.parts k ++ partsOfBounds k bs

/-- The parts of a bound. -/
def TypeBound.parts (k : PartsContext) : TypeBound → List String
  | .lifetime i => ["'" ++ i.text]
  | .trait _ _ _ p => (k.canonical p.namePath).toList ++ (p.parts k).flatMap (·.parts)
  | .other _ => []

end

end Source

/-- The parts of a type written in `scope`, in at most a given number of steps, with the parts of
what stands for parameters. -/
def SymbolTable.parts (t : SymbolTable) :
    Nat → Scope → List (String × List String) → SourceType → List String
  | 0, _, _, _ => []
  | steps + 1, scope, params, ty =>
    ty.parts
      { canonical := t.canonical (steps + 1) scope false
        alias? := t.alias?
        expand := fun a args => t.parts steps a.scope (a.params.zip args) a.target
        params := params }

/-! ## Words of a text and of its parts -/

/-- The words of a text are those of the parts, in order. -/
def MadeOf (text : String) (parts : List String) : Prop := words text = parts.flatMap words

/-- The parts are those of the argument. -/
structure ArgumentParts.Of (b : GenericArg) (e : ArgumentParts) : Prop where
  isType : b.type?.isSome = e.isType
  parts : MadeOf b.text e.parts

/-- The contexts know the same paths and aliases, and what aliases and parameters stand for in the
one has the parts that they have in the other. -/
structure TypeContext.MadeOf (c : TypeContext) (k : PartsContext) : Prop where
  canonical : ∀ p, c.canonical p = k.canonical p
  alias? : ∀ path, c.alias? path = k.alias? path
  expand : ∀ a args parts, List.Forall₂ ArgumentParts.Of args parts →
    ∀ r, c.expand a args = some r →
      Memberwise.MadeOf r.text (k.expand a ((parts.filter (·.isType)).map (·.parts)))
  params : ∀ name, (lookupLast name c.params = none ∧ lookupLast name k.params = none) ∨
    ∃ parts u, lookupLast name k.params = some parts ∧ Memberwise.MadeOf u.text parts ∧
      lookupLast name c.params = some u

/-- A list in brackets after a text. -/
theorem words_enclosed {opening closing : String} (hopening : Separates opening)
    (hclosing : Separates closing) (a : String) (texts : List String) :
    words (a ++ (opening ++ ", ".intercalate texts ++ closing)) =
      words a ++ texts.flatMap words := by
  rw [← String.append_assoc, ← String.append_assoc, words_before hclosing, words_append hopening,
    words_intercalate separates_comma]

/-- Brackets and commas add no words. -/
theorem words_brackets {opening closing : String} (hopening : Separates opening)
    (hclosing : Separates closing) (texts : List String) :
    words (opening ++ ", ".intercalate texts ++ closing) = texts.flatMap words := by
  have h := words_enclosed hopening hclosing "" texts
  rwa [String.empty_append, words_empty, List.nil_append] at h

/-- The words of a named type are those of its path and of its arguments. -/
theorem words_argsSuffix (path : String) (args : List GenericArg) :
    words (path ++ argsSuffix args) = words path ++ (argTexts args).flatMap words := by
  unfold argsSuffix
  split
  · next hnone =>
    rw [List.isEmpty_iff.mp hnone, String.append_empty]
    simp [argTexts]
  · exact words_enclosed (by decide +kernel) (by decide +kernel) path (argTexts args)

/-- The words of a reference are its lifetime, its `mut` and those of its target. -/
theorem words_reference (lifetime : Option String) (mutable : Bool) (inner : ResolvedType) :
    words (ResolvedType.reference lifetime mutable inner).text =
      (lifetime.toList ++ if mutable then ["mut"] else []).flatMap words ++ words inner.text := by
  have hand : Separates "&" := by decide +kernel
  rw [ResolvedType.text]
  -- The sign is glued to what follows it; the lifetime and `mut` are words of their own.
  cases lifetime with
  | none =>
    cases mutable with
    | true =>
      show words ("&" ++ "" ++ ("mut" ++ " ") ++ inner.text) = _
      rw [String.append_empty, ← String.append_assoc, words_append separates_space,
        words_after hand]
      simp
    | false =>
      show words ("&" ++ "" ++ "" ++ inner.text) = _
      rw [String.append_empty, String.append_empty, words_after hand]
      simp
  | some l =>
    cases mutable with
    | true =>
      show words ("&" ++ (l ++ " ") ++ ("mut" ++ " ") ++ inner.text) = _
      rw [← String.append_assoc, ← String.append_assoc, words_append separates_space,
        words_append separates_space, words_after hand]
      simp
    | false =>
      show words ("&" ++ (l ++ " ") ++ "" ++ inner.text) = _
      rw [String.append_empty, ← String.append_assoc, words_append separates_space,
        words_after hand]
      simp

/-- The words of a pointer are how it may be used and those of its target. -/
theorem words_pointer (mutable : Bool) (inner : ResolvedType) :
    words (ResolvedType.pointer mutable inner).text =
      words (if mutable then "mut" else "const") ++ words inner.text := by
  rw [ResolvedType.text, words_append separates_space, words_after (by decide +kernel)]

/-- The words of an array are those of its elements and of its length. -/
theorem words_array (elem : ResolvedType) (length : String) :
    words (ResolvedType.array elem length).text = words elem.text ++ words length := by
  rw [ResolvedType.text, words_before (by decide +kernel), words_append (by decide +kernel),
    words_after (by decide +kernel)]

/-- The words of a slice are those of its elements. -/
theorem words_slice (elem : ResolvedType) :
    words (ResolvedType.slice elem).text = words elem.text := by
  rw [ResolvedType.text, words_before (by decide +kernel), words_after (by decide +kernel)]

/-- The words of a trait object are `dyn` and those of its bounds. -/
theorem words_traitObject (bounds : List String) :
    words (ResolvedType.traitObject bounds).text = words "dyn" ++ bounds.flatMap words := by
  rw [ResolvedType.text, show "dyn " = "dyn" ++ " " from rfl, words_append separates_space,
    words_intercalate (by decide +kernel)]

/-- The words of a tuple are those of its elements. -/
theorem words_tuple (elems : List ResolvedType) :
    words (ResolvedType.tuple elems).text = (typeTexts elems).flatMap words := by
  rw [ResolvedType.text]
  split
  · exact words_brackets (by decide +kernel) (by decide +kernel) _
  · exact words_brackets (by decide +kernel) (by decide +kernel) _

/-- The words of arguments are those of the parts that they are made of. -/
theorem flatMap_words_argTexts {args : List GenericArg} {parts : List ArgumentParts}
    (h : List.Forall₂ ArgumentParts.Of args parts) :
    (argTexts args).flatMap words = (parts.flatMap (·.parts)).flatMap words := by
  induction h with
  | nil => rfl
  | cons hb _ ih =>
    rw [argTexts, List.flatMap_cons, List.flatMap_cons, List.flatMap_append, ih, hb.parts]

section

variable {c : TypeContext} {k : PartsContext}

/-- The types among the arguments have the parts of those that are types. -/
theorem madeOf_types {args : List GenericArg} {parts : List ArgumentParts}
    (h : List.Forall₂ ArgumentParts.Of args parts) :
    List.Forall₂ (fun parts u => MadeOf (ResolvedType.text u) parts)
      ((parts.filter (·.isType)).map (·.parts)) (args.filterMap GenericArg.type?) := by
  induction h with
  | nil => exact .nil
  -- Lifetimes and constants among the arguments bind no parameter and are filtered out.
  | @cons b e args parts hb _ ih =>
    cases hu : b.type? with
    | none =>
      have hno : e.isType = false := by rw [← hb.isType, hu]; rfl
      rw [List.filterMap_cons_none hu, List.filter_cons_of_neg (by simp [hno])]
      exact ih
    | some u =>
      have hyes : e.isType = true := by rw [← hb.isType, hu]; rfl
      have htext : b.text = u.text := by
        cases b <;> cases hu
        rfl
      rw [List.filterMap_cons_some hu, List.filter_cons_of_pos hyes, List.map_cons]
      exact .cons (htext ▸ hb.parts) ih

/-- Types that are made of their parts one by one are so together. -/
theorem flatMap_words_typeTexts {tys : List SourceType} {ts : List ResolvedType}
    (h : List.Forall₂ (fun ty t => MadeOf (ResolvedType.text t) (ty.parts k)) tys ts) :
    (typeTexts ts).flatMap words = (partsOfTypes k tys).flatMap words := by
  induction h with
  | nil => rw [typeTexts, partsOfTypes]
  | cons ht _ ih =>
    rw [typeTexts, partsOfTypes, List.flatMap_cons, List.flatMap_append, ih, ht]

/-- Arguments are made of the parts that are gathered from them. -/
theorem of_partsOfArgs {as : List GenericArgument} {args : List GenericArg}
    (h : List.Forall₂ (fun a b => ArgumentParts.Of b (a.parts k)) as args) :
    List.Forall₂ ArgumentParts.Of args (partsOfArgs k as) := by
  induction h with
  | nil =>
    rw [partsOfArgs]
    exact .nil
  | cons ha _ ih =>
    rw [partsOfArgs]
    exact .cons ha ih

/-- The words of bounds are those of the parts that they are made of. -/
theorem flatMap_words_bounds {bounds : List TypeBound} {bs : List String}
    (h : List.Forall₂ (fun bound b => MadeOf b (bound.parts k)) bounds bs) :
    bs.flatMap words = (partsOfBounds k bounds).flatMap words := by
  induction h with
  | nil => rw [partsOfBounds]
  | cons hb _ ih => rw [partsOfBounds, List.flatMap_cons, List.flatMap_append, ih, hb]

/-- The parts of the arguments of a path are those of its last segment. -/
theorem partsOfLast_of_getLast? {segments : List PathSegment} {s : PathSegment}
    (hs : segments.getLast? = some s) : partsOfLast k segments = s.arguments.parts k := by
  induction segments with
  | nil => cases hs
  | cons first rest ih =>
    cases rest with
    | nil =>
      cases hs
      cases first with
      | mk i arguments =>
        rw [partsOfLast]
        rfl
    | cons next rest =>
      rw [partsOfLast, ih (by rwa [List.getLast?_cons_cons] at hs)]
      simp

/-- A bare name stands for a parameter in both contexts or in none. -/
theorem TypeContext.MadeOf.param? (h : c.MadeOf k) (p : SourcePath) :
    (c.param? p = none ∧ ((bareName? p).bind fun name => lookupLast name k.params) = none) ∨
      ∃ u parts, c.param? p = some u ∧
        ((bareName? p).bind fun name => lookupLast name k.params) = some parts ∧
        Memberwise.MadeOf u.text parts := by
  rw [TypeContext.param?]
  cases bareName? p with
  | none => exact .inl ⟨rfl, rfl⟩
  | some name =>
    rcases h.params name with ⟨hnone, hno⟩ | ⟨parts, u, hparts, hmade, hu⟩
    · exact .inl ⟨hnone, hno⟩
    · exact .inr ⟨u, parts, hu, hparts, hmade⟩

/-- The text of each form of type is made of the parts of the written type. -/
theorem TypeContext.MadeOf.resolvedCases (h : c.MadeOf k) :
    ResolvedCases c (fun ty r => Memberwise.MadeOf r.text (ty.parts k))
      (fun a args => List.Forall₂ ArgumentParts.Of args (a.parts k))
      (fun a suffix => ∀ text, words (text ++ suffix) =
        words text ++ ((a.parts k).flatMap (·.parts)).flatMap words)
      (fun a b => ArgumentParts.Of b (a.parts k))
      (fun b text => Memberwise.MadeOf text (b.parts k)) where
  paren ih := by
    rw [SourceType.parts]
    exact ih
  param {p u} hparam := by
    rcases h.param? p with ⟨hnone, -⟩ | ⟨v, parts, hv, hparts, hmade⟩
    · rw [hnone] at hparam
      cases hparam
    · obtain rfl : v = u := Option.some.inj (hv.symm.trans hparam)
      rw [SourceType.parts, hparts]
      exact hmade
  path {absolute segments s path args r} hparam hpath hs ih hnamed := by
    have hbare : ((bareName? (.mk absolute segments)).bind fun name => lookupLast name k.params) =
        none := by
      rcases h.param? (.mk absolute segments) with ⟨-, hno⟩ | ⟨v, parts, hv, -⟩
      · exact hno
      · rw [hparam] at hv
        cases hv
    -- a path that is no parameter is named by its canonical path
    rw [SourceType.parts, hbare]
    simp only [← h.canonical, hpath]
    rw [SourcePath.parts, partsOfLast_of_getLast? hs, PartsContext.named]
    rw [TypeContext.named, h.alias?] at hnamed
    cases ha : k.alias? path with
    | some a =>
      rw [ha] at hnamed
      exact h.expand a args _ ih r hnamed
    | none =>
      rw [ha] at hnamed
      cases hnamed
      rw [Memberwise.MadeOf, text_path, words_argsSuffix, flatMap_words_argTexts ih,
        List.flatMap_cons]
  reference ih := by
    rw [SourceType.parts, Memberwise.MadeOf, words_reference, ih, ← List.flatMap_append]
  pointer ih := by rw [SourceType.parts, Memberwise.MadeOf, words_pointer, ih, List.flatMap_cons]
  traitObject ih := by
    rw [SourceType.parts, Memberwise.MadeOf, words_traitObject, flatMap_words_bounds ih,
      List.flatMap_cons]
  tuple ih := by
    rw [SourceType.parts, Memberwise.MadeOf, words_tuple, flatMap_words_typeTexts ih]
  array ih := by
    rw [SourceType.parts, Memberwise.MadeOf, words_array, ih, List.flatMap_append,
      List.flatMap_singleton]
  slice ih := by rw [SourceType.parts, Memberwise.MadeOf, words_slice, ih]
  function {_} := by
    rw [SourceType.parts, Memberwise.MadeOf, List.flatMap_singleton, ResolvedType.text]
  never := by
    have hnone : words "!" = [] := by decide +kernel
    rw [SourceType.parts, Memberwise.MadeOf, ResolvedType.text, hnone, List.flatMap_nil]
  noArguments := by
    rw [PathArguments.parts]
    exact .nil
  angle ih := by
    rw [PathArguments.parts]
    exact of_partsOfArgs ih
  noSuffix text := by
    rw [PathArguments.parts]
    simp
  angleSuffix ih text := by
    rw [PathArguments.parts, words_enclosed (by decide +kernel) (by decide +kernel),
      flatMap_words_argTexts (of_partsOfArgs ih)]
  callSuffix ih text := by
    rw [PathArguments.parts, words_enclosed (by decide +kernel) (by decide +kernel),
      flatMap_words_typeTexts ih]
    simp
  outputSuffix {_ _ _ ts u} ihinputs ihoutput text := by
    have hopening : Separates "(" := by decide +kernel
    have harrow : Separates ") -> " := by decide +kernel
    have hpieces : text ++ ("(" ++ ", ".intercalate (typeTexts ts) ++ ") -> " ++ u.text) =
        text ++ "(" ++ ", ".intercalate (typeTexts ts) ++ ") -> " ++ u.text := by
      simp only [String.append_assoc]
    rw [PathArguments.parts, hpieces, words_append harrow, words_append hopening,
      words_intercalate separates_comma, flatMap_words_typeTexts ihinputs, ihoutput]
    simp
  typeArgument ih := by
    rw [GenericArgument.parts]
    exact ⟨rfl, ih⟩
  lifetimeArgument {_} := by
    rw [GenericArgument.parts]
    exact ⟨rfl, (List.flatMap_singleton ..).symm⟩
  constArgument {_} := by
    rw [GenericArgument.parts]
    exact ⟨rfl, (List.flatMap_singleton ..).symm⟩
  binding ih := by
    rw [GenericArgument.parts]
    refine ⟨rfl, ?_⟩
    rw [Memberwise.MadeOf, GenericArg.text, words_append (by decide +kernel), ih, List.flatMap_cons]
  lifetimeBound {_} := by
    rw [TypeBound.parts]
    exact (List.flatMap_singleton ..).symm
  trait {_ maybe _ _ _ _ path _} hpath hs ih := by
    have hmaybe : words ((if maybe then "?" else "") ++ path) = words path := by
      cases maybe with
      | true => exact words_after (by decide +kernel) path
      | false => simp
    rw [TypeBound.parts, Memberwise.MadeOf, ih, hmaybe, ← h.canonical, hpath, SourcePath.parts,
      partsOfLast_of_getLast? hs, List.flatMap_append]
    simp

end

/-- Whatever is resolved is made of its parts, if what stands for parameters is. Each step of
resolution follows an alias into its target, whose parameters stand for the arguments. -/
theorem madeOf_resolveIn (t : SymbolTable) {steps : Nat} {scope : Scope}
    {params : List (String × ResolvedType)} {parts : List (String × List String)}
    (hparams : ∀ name, (lookupLast name params = none ∧ lookupLast name parts = none) ∨
      ∃ p u, lookupLast name parts = some p ∧ MadeOf u.text p ∧
        lookupLast name params = some u)
    {ty : SourceType} {r : ResolvedType} (h : t.resolveIn steps scope params ty = some r) :
    MadeOf r.text (t.parts steps scope parts ty) := by
  -- Induction on the steps: an alias spends one and binds its parameters to the arguments' parts.
  induction steps generalizing scope params parts ty r with
  | zero => cases h
  | succ steps ih =>
    rw [SymbolTable.resolveIn_succ] at h
    rw [SymbolTable.parts]
    refine (TypeContext.MadeOf.resolvedCases ⟨fun _ => rfl, fun _ => rfl, ?_, hparams⟩).type h
    intro a args of hargs u hu
    obtain ⟨bound, hbound, hu⟩ := Option.bind_eq_some_iff.mp hu
    obtain rfl := Alias.eq_zip_of_bind? hbound
    exact ih (lookupLast_zip (madeOf_types hargs) a.params) hu

/-! ## Parameters -/

/-- The word by which a parameter is named. -/
def Source.GenericParam.word : GenericParam → String
  | .lifetime i => "'" ++ i.text
  | .type i => i.name
  | .const i => i.name

/-- The arguments of the last segment of a path in angle brackets. -/
def Source.SourcePath.given? (p : SourcePath) : Option (List GenericArgument) :=
  p.segments.getLast?.bind fun s => s.arguments.given?

/-- Of a path, the arguments that it is given are resolved. -/
theorem resolveLast_of_given? (c : TypeContext) {p : SourcePath} {args : List GenericArgument}
    (h : p.given? = some args) : resolveLast c p = resolveArgs c args := by
  rcases p with ⟨absolute, segments⟩
  obtain ⟨s, hlast, hgiven⟩ : ∃ s, segments.getLast? = some s ∧ s.arguments.given? = some args :=
    Option.bind_eq_some_iff.mp h
  rw [resolveLast, resolveLastOf_of_getLast? c hlast, resolveArguments_of_given? c hgiven]

/-- The type that is the argument, if it is one. -/
def Source.GenericArgument.type? : GenericArgument → Option SourceType
  | .type ty => some ty
  | _ => none

/-- The types among arguments that are written in `scope`, resolved. -/
def SymbolTable.typeArguments (t : SymbolTable) (scope : Scope) (args : List GenericArgument) :
    List ResolvedType :=
  args.filterMap fun a => a.type?.bind (t.resolve scope)

/-- An argument is resolved to a type exactly if it is one. -/
theorem type?_of_resolveArg {c : TypeContext} {a : GenericArgument} {b : GenericArg}
    (h : resolveArg c a = some b) : a.type?.bind (resolveType c) = b.type? := by
  cases a with
  | type ty =>
    obtain ⟨u, hu, rfl⟩ := Option.map_eq_some_iff.mp h
    exact hu
  | binding i own ty =>
    obtain ⟨u, -, rfl⟩ := Option.map_eq_some_iff.mp h
    rfl
  | other tokens => cases h
  | _ =>
    cases h
    rfl

/-- The types that a generic alias is given are those among its resolved arguments. -/
theorem SymbolTable.typeArguments_eq (t : SymbolTable) {scope : Scope}
    {args : List GenericArgument} {bs : List GenericArg}
    (h : resolveArgs (t.typeContext (maxSteps - 1) scope []) args = some bs) :
    t.typeArguments scope args = bs.filterMap GenericArg.type? := by
  have hresolve : t.resolve scope = resolveType (t.typeContext (maxSteps - 1) scope []) :=
    funext fun ty => t.resolveIn_succ (maxSteps - 1) scope [] ty
  rw [typeArguments, hresolve]
  -- Induction on the arguments, which are all resolved in the scope of the use.
  replace h := resolveArgs_iff.mp h
  induction h with
  | nil => rfl
  | cons hb _ ih => rw [List.filterMap_cons, List.filterMap_cons, type?_of_resolveArg hb, ih]

/-- The words in the text of an alias with arguments are those of the parts of its target, where a
type parameter has the text of its argument as its only part. -/
theorem madeOf_alias (t : SymbolTable) {path : String} {a : Alias} (halias : t.alias? path = some a)
    {scope : Scope} {p : SourcePath}
    (huse : t.canonical maxSteps scope false p.namePath = some path)
    {args : List GenericArgument} (hgiven : p.given? = some args) {r : ResolvedType}
    (hr : t.resolve scope (.path p) = some r) :
    MadeOf r.text (t.parts (maxSteps - 1) a.scope
      (a.params.zip ((t.typeArguments scope args).map fun u => [u.text])) a.target) := by
  have hpath : t.canonical (maxSteps - 1 + 1) scope false p.namePath = some path := huse
  -- The alias takes one step, hence its target is resolved with one step less.
  have hexpand := SymbolTable.resolveIn_alias hpath halias
  obtain ⟨bs, hbs, hr⟩ := Option.bind_eq_some_iff.mp (hexpand.symm.trans hr)
  obtain ⟨params, hparams, hr⟩ := Option.bind_eq_some_iff.mp hr
  rw [resolveLast_of_given? _ hgiven] at hbs
  rw [t.typeArguments_eq hbs]
  obtain rfl := Alias.eq_zip_of_bind? hparams
  refine madeOf_resolveIn t (lookupLast_zip ?_ a.params) hr
  rw [List.forall₂_map_left_iff, List.forall₂_same]
  intro u _
  exact (List.flatMap_singleton ..).symm

/-- A use of an alias shows none of its parameters, lifetimes, types and constants alike, if and
only if no part of the target names one. The parts are what the target says of lifetimes, lengths,
constants, function pointers and associated types, the canonical paths in it, and the parts of what
aliases in it stand for. Only a bare name that is a type parameter has the text of the argument for
its part; nothing is put in place of lifetimes and constants, and those that the target names
show. -/
theorem parameters_hidden_iff (t : SymbolTable) {path : String} {params : List GenericParam}
    {target : SourceType} {home : Scope}
    (halias : t.alias? path = some ⟨typeParams params, target, home⟩) {scope : Scope}
    {p : SourcePath} (huse : t.canonical maxSteps scope false p.namePath = some path)
    {args : List GenericArgument} (hgiven : p.given? = some args) {r : ResolvedType}
    (hr : t.resolve scope (.path p) = some r) :
    (∀ q ∈ params, q.word ∉ words r.text) ↔
      ∀ part ∈ t.parts (maxSteps - 1) home
          ((typeParams params).zip ((t.typeArguments scope args).map fun u => [u.text])) target,
        ∀ q ∈ params, q.word ∉ words part := by
  have hmade : words r.text = _ := madeOf_alias t halias huse hgiven hr
  -- The text has exactly the words of its parts.
  rw [hmade]
  constructor
  · intro h part hpart q hq hword
    exact h q hq (List.mem_flatMap.mpr ⟨part, hpart, hword⟩)
  · intro h q hq hword
    obtain ⟨part, hpart, hword⟩ := List.mem_flatMap.mp hword
    exact h part hpart q hq hword

/-- The item `type Alias<'a, T, const N: usize> = target;`. -/
def aliasOf (target : SourceType) : Item :=
  .typeAlias (.plain "Alias") [.lifetime (.plain "a"), .type (.plain "T"), .const (.plain "N")]
    target

/-- The path `Alias<'static, u8, 4>`. -/
def aliasPath : SourcePath :=
  .mk false [.mk (.plain "Alias") (.angle false
    [.lifetime (.plain "static"), .type (namedType false ["u8"] []), .const [.literal "4"]] false)]

/-- The type `(Vec<T>, T)`. -/
def rowsTarget : SourceType :=
  .tuple [namedType false ["Vec"] [namedType false ["T"] []], namedType false ["T"] []] false

/-- The type `&'a [T; N]`. -/
def viewTarget : SourceType :=
  .reference (some (.plain "a")) false (.array (namedType false ["T"] []) [.ident (.plain "N")])

theorem parameters_hidden_rows :
    let t := SymbolTable.ofItems .root [aliasOf rowsTarget]
    ∃ r, t.alias? "crate::Alias" = some ⟨["T"], rowsTarget, .root⟩ ∧
      t.canonical maxSteps .root false aliasPath.namePath = some "crate::Alias" ∧
      t.resolve .root (.path aliasPath) = some r ∧ r.text = "(::std::vec::Vec<u8>, u8)" ∧
      ∀ q ∈ [GenericParam.lifetime (.plain "a"), .type (.plain "T"), .const (.plain "N")],
        q.word ∉ words r.text := by
  intro t
  have halias : t.alias? "crate::Alias" = some ⟨["T"], rowsTarget, .root⟩ := rfl
  have hsole : SoleAlias .root [aliasOf rowsTarget] .root (.plain "Alias")
      [.lifetime (.plain "a"), .type (.plain "T"), .const (.plain "N")] rowsTarget :=
    ⟨_, rfl, rfl⟩
  have huse : t.canonical maxSteps .root false aliasPath.namePath = some "crate::Alias" :=
    hsole.canonical (by decide) (maxSteps - 1)
  have hr : t.resolve .root (.path aliasPath) =
      some (.tuple [.path "::std::vec::Vec" [.type (.path "u8" [] .value)] .reference,
        .path "u8" [] .value]) := rfl
  have hiff : (∀ q ∈ [GenericParam.lifetime (.plain "a"), .type (.plain "T"), .const (.plain "N")],
      q.word ∉ words (ResolvedType.text _)) ↔ _ := parameters_hidden_iff t halias huse rfl hr
  exact ⟨_, halias, huse, hr, by decide +kernel, hiff.mpr (by decide +kernel)⟩

/-- An alias with a lifetime, a type and a constant for its parameters shows two of them, though
each has an argument. -/
theorem parameters_shown_view :
    let t := SymbolTable.ofItems .root [aliasOf viewTarget]
    (t.resolve .root (.path aliasPath)).map ResolvedType.text = some "&'a [u8; N]" ∧
      ∃ r, t.resolve .root (.path aliasPath) = some r ∧
        GenericParam.word (.lifetime (.plain "a")) ∈ words r.text ∧
        GenericParam.word (.const (.plain "N")) ∈ words r.text := by
  intro t
  have hr : t.resolve .root (.path aliasPath) =
      some (.reference (some "'a") false (.array (.path "u8" [] .value) "N")) := rfl
  have htext : (ResolvedType.reference (some "'a") false (.array (.path "u8" [] .value) "N")).text =
      "&'a [u8; N]" := by decide
  rw [hr, Option.map_some, htext]
  exact ⟨rfl, _, rfl, by rw [htext]; decide +kernel, by rw [htext]; decide +kernel⟩

end Memberwise
