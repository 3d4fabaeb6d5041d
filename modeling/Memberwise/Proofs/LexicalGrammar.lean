import Memberwise.Proofs.LexicalReading

/-!
# Memberwise.Proofs.LexicalGrammar — types are read with tokens that are read from their own texts

The rules of the grammar take tokens that are read from their own texts (`TakesLexical`), and the
types that they give keep such tokens (`ReadsLexical`). The two go together: a type keeps tokens
that were taken, and arguments of a path are taken in the printed form of what was read. So both are
proved rule by rule, and for all nonterminals at once by induction on the depth (`rules_lexical`).

It follows that every type of a text (`lexicalAll_of_parseType`) and every type of a field of a file
(`StructAt.fieldTypesLexical`) has tokens that are read from their own texts.
-/

namespace Memberwise

namespace Source

open Token TokenTree

-- The instance for a rule is as large as the rule, with one part for each way through it.
set_option synthInstance.maxSize 16384

variable {α β : Type}

/-! ## The nonterminals -/

/-- Of tokens that are read from their own texts, the readers of the nonterminals take such tokens,
and give types and bounds of such tokens. -/
class Rules.Lexical (r : Rules) : Prop where
  type : ∀ plus, TakesLexical (r.type plus)
  bound : ∀ capture const, TakesLexical (r.bound capture const)
  unary : ∀ structs, TakesLexical (r.unary structs)
  operators : ∀ operand structs base, TakesLexical (r.operators operand structs base)
  bounded : TakesLexical r.bounded
  pattern : TakesLexical r.pattern
  statements : TakesLexical r.statements
  items : TakesLexical r.items
  useTree : ∀ root, TakesLexical (r.useTree root)
  readsType : ∀ plus, ReadsLexical (r.type plus) SourceType.Lexical
  readsBound : ∀ capture const, ReadsLexical (r.bound capture const) TypeBound.Lexical

attribute [instance] Rules.Lexical.type Rules.Lexical.bound Rules.Lexical.unary
  Rules.Lexical.operators Rules.Lexical.bounded Rules.Lexical.pattern Rules.Lexical.statements
  Rules.Lexical.items Rules.Lexical.useTree

namespace TakesLexical

variable (r : Rules) [r.Lexical]

instance (structs : Bool) : TakesLexical (expr r structs) := by unfold expr; infer_instance

instance (fuel : Nat) : TakesLexical (plainPath.segmentsLoop fuel) := by
  induction fuel with
  | zero => exact inferInstanceAs (TakesLexical failure)
  | succ fuel ih => unfold plainPath.segmentsLoop; infer_instance

instance : TakesLexical plainPath := by unfold plainPath; infer_instance

instance (p : SourcePath) : TakesLexical (metaAfter r p) := by
  unfold metaAfter
  refine @bind _ _ _ _ _ fun ts => ?_
  split
  · infer_instance
  · infer_instance

instance : TakesLexical (metaItem r) := by unfold metaItem; infer_instance
instance : TakesLexical (attributes r) := by unfold attributes; infer_instance
instance : TakesLexical (innerAttributes r) := by unfold innerAttributes; infer_instance
instance : TakesLexical (body r) := by unfold body; infer_instance
instance : TakesLexical (plainBlock r) := by unfold plainBlock; infer_instance
instance : TakesLexical macroCall := by unfold macroCall; infer_instance

/-! ## Paths, bounds and types -/

instance : TakesLexical (constArgument r) := by unfold constArgument; infer_instance

instance (t : SourceType) (i : Ident) (own : PathArguments) :
    TakesLexical (associatedForm r t i own) := by unfold associatedForm; infer_instance

instance : TakesLexical (argumentForm r) := by
  have hafter : ∀ t : SourceType, TakesLexical (match t with
      | .path (.mk false [.mk name own]) =>
        associatedForm r (.path (.mk false [.mk name own])) name own
      | t => pure fun _ => .type t) := by
    intro t
    split
    · infer_instance
    · infer_instance
  unfold argumentForm
  infer_instance

instance : TakesLexical (genericArgument r) := by unfold genericArgument; infer_instance

end TakesLexical

section

variable (r : Rules) [r.Lexical]

/-- Types of the next depth keep such tokens. -/
theorem lexical_type (plus : Bool) : ReadsLexical (r.type plus) SourceType.Lexical :=
  Rules.Lexical.readsType plus

/-- Bounds of the next depth keep such tokens. -/
theorem lexical_bound (capture const : Bool) :
    ReadsLexical (r.bound capture const) TypeBound.Lexical :=
  Rules.Lexical.readsBound capture const

variable [r.Forward]

/-- What follows the name of an associated item keeps such tokens. -/
theorem lexical_associatedForm {t : SourceType} {i : Ident} {own : PathArguments} (ht : t.Lexical)
    (hi : i.Lexical) (hown : own.Lexical) :
    ReadsLexical (associatedForm r t i own) (FormOf GenericArgument.Lexical) := by
  have hother : FormOf GenericArgument.Lexical .other := fun _ hts => .other hts
  refine .after fun equals => .ite ?_ (.after fun bounded => .ite ?_ ?_)
  · refine .after fun const => .ite (.after fun _ => .pure hother) ?_
    exact (lexical_type r true).bind fun target htarget =>
      .pure fun _ _ => .binding hi hown htarget
  · exact .after fun _ => .pure hother
  · exact .pure fun _ _ => .type ht

/-- An argument in angle brackets keeps such tokens, in whatever form it is kept. -/
theorem lexical_argumentForm :
    ReadsLexical (argumentForm r) (FormOf GenericArgument.Lexical) := by
  refine .after fun lifetime => .ite ?_ (.after fun const => .ite ?_ ?_)
  · exact ReadsLexical.lifetime.bind fun i hi => .pure fun _ _ => .lifetime hi
  · exact .after fun _ => .pure fun _ hts => .const hts
  · refine (lexical_type r true).bind fun t ht => ?_
    split
    · next name own =>
      have hpath := ht
      obtain ⟨⟨hsegments⟩⟩ := hpath
      obtain ⟨hname, hown⟩ := List.forall_mem_singleton.mp hsegments
      exact lexical_associatedForm r ht hname hown
    · exact .pure fun _ _ => .type ht

/-- An argument in angle brackets is made of such tokens. -/
theorem lexical_genericArgument : ReadsLexical (genericArgument r) GenericArgument.Lexical :=
  .ofForm (lexical_argumentForm r)

/-- Arguments in angle brackets are printed again with such tokens. -/
theorem lexical_angleArguments :
    TakesLexical (angleArguments r) ∧ ReadsLexical (angleArguments r) PathArguments.Lexical := by
  refine ReadsLexical.printedAs ?_ lexicalAll_arguments
  refine .after fun turbofish => .after fun _ => ?_
  exact ((lexical_genericArgument r).terminated _ _).bind fun e hargs =>
    .after fun _ => .pure (.angle hargs)

instance : TakesLexical (angleArguments r) := (lexical_angleArguments r).1
instance (inExpr : Bool) : TakesLexical (pathSegment r inExpr) := by
  unfold pathSegment
  infer_instance

/-- A segment has a name that is a word, and such arguments. -/
theorem lexical_pathSegment (inExpr : Bool) :
    ReadsLexical (pathSegment r inExpr) PathSegment.Lexical := by
  have hplain : ∀ i : Ident, i.Lexical → ReadsLexical (do
      if ← peek (atAngle inExpr) then return PathSegment.mk i (← angleArguments r)
      else return PathSegment.mk i .none) PathSegment.Lexical := by
    intro i hi
    refine .after fun angle => .ite ?_ (.pure ⟨hi, .none⟩)
    exact (lexical_angleArguments r).2.bind fun own hown => .pure ⟨hi, hown⟩
  refine .after fun keyword => .ite ?_ (.after fun self => ?_)
  · exact ReadsLexical.ident.bind fun i hi => .pure ⟨hi, .none⟩
  · refine .ite ?_ ?_
    · exact ReadsLexical.ident.bind hplain
    · exact ReadsLexical.name.bind hplain

instance (inExpr : Bool) : TakesLexical (sourcePath r inExpr) := by
  unfold sourcePath
  infer_instance

/-- A path is made of such segments. -/
theorem lexical_sourcePath (inExpr : Bool) :
    ReadsLexical (sourcePath r inExpr) SourcePath.Lexical := by
  refine .after fun absolute => (lexical_pathSegment r inExpr).bind fun first hfirst => ?_
  have hrest : ReadsLexical (do op "::"; pathSegment r inExpr) PathSegment.Lexical :=
    .after fun _ => lexical_pathSegment r inExpr
  exact (hrest.many _).bind fun rest hrest => .pure ⟨List.forall_mem_cons.mpr ⟨hfirst, hrest⟩⟩

instance (inExpr : Bool) : TakesLexical (qualifiedRest r inExpr) := by
  unfold qualifiedRest
  infer_instance

instance (inExpr : Bool) : TakesLexical (anyPath r inExpr) := by unfold anyPath; infer_instance

/-- A path that is kept is made of such segments, whether or not one is. -/
theorem lexical_anyPath (inExpr : Bool) :
    ReadsLexical (anyPath r inExpr) fun p? => ∀ p ∈ p?, p.Lexical := by
  refine .after fun qualified => .ite (.after fun _ => .pure nofun) ?_
  exact (lexical_sourcePath r inExpr).bind fun p hp => .pure (by simpa using hp)

instance (stop : List TokenTree → Bool) : TakesLexical (lifetimeBounds stop) := by
  unfold lifetimeBounds
  infer_instance

instance : TakesLexical (paramAfter r) := by unfold paramAfter; infer_instance
instance : TakesLexical (genericParam r) := by unfold genericParam; infer_instance
instance : TakesLexical (binder r) := by unfold binder; infer_instance

/-- A binder is kept as such tokens. -/
theorem lexical_binder : ReadsLexical (binder r) LexicalAll := by
  refine .after fun bound => .ite ?_ (.pure lexicalAll_nil)
  exact (ReadsLexical.captured (P := fun _ => True) fun _ _ => Yields.trivial _).bind fun e he =>
    .pure he.2

/-- Inputs and output of a call are printed again with such tokens. -/
theorem lexical_callArguments :
    TakesLexical (callArguments r) ∧ ReadsLexical (callArguments r) PathArguments.Lexical := by
  refine ReadsLexical.printedAs ?_ lexicalAll_arguments
  have hinputs := (lexical_type r true).commaList.group .parenthesis
  refine .after fun _ => hinputs.bind fun e hinputs => .after fun output => ?_
  refine .ite ?_ (.pure (.call hinputs (by simp)))
  have hsome : ReadsLexical (some <$> r.type false) fun output => ∀ t ∈ output, t.Lexical :=
    .map fun all hall c t c' hc h => by simpa using lexical_type r false all hall c t c' hc h
  exact hsome.bind fun output houtput => .pure (.call hinputs houtput)

instance : TakesLexical (callArguments r) := (lexical_callArguments r).1

/-- Arguments that are put on the last segment. -/
theorem lexical_withCall {call : PathArguments} (hcall : call.Lexical) :
    ∀ {segments : List PathSegment}, (∀ s ∈ segments, s.Lexical) →
      ∀ s ∈ withCall call segments, s.Lexical
  | [], _ => List.forall_mem_nil _
  | [.mk i own], h => by
    obtain ⟨hi, -⟩ := List.forall_mem_singleton.mp h
    exact List.forall_mem_singleton.mpr ⟨hi, hcall⟩
  | .mk _ _ :: next :: rest, h => by
    obtain ⟨hsegment, hrest⟩ := List.forall_mem_cons.mp h
    exact List.forall_mem_cons.mpr ⟨hsegment, lexical_withCall hcall hrest⟩

instance : TakesLexical (traitPath r) := by unfold traitPath; infer_instance

/-- The path of a trait is made of such segments. -/
theorem lexical_traitPath : ReadsLexical (traitPath r) SourcePath.Lexical := by
  refine (lexical_sourcePath r false).bind fun p hp => .after fun ts => .ite ?_ (.pure hp)
  refine (lexical_callArguments r).2.bind fun call hcall => .pure ⟨?_⟩
  obtain ⟨hsegments⟩ := hp
  exact lexical_withCall hcall hsegments

instance : TakesLexical constMark := by unfold constMark; infer_instance

instance (const parenthesized : Bool) : TakesLexical (traitBound r const parenthesized) := by
  unfold traitBound
  infer_instance

/-- A trait among bounds keeps such tokens. -/
theorem lexical_traitBound (const parenthesized : Bool) :
    ReadsLexical (traitBound r const parenthesized) (FormOf TypeBound.Lexical) := by
  refine (lexical_binder r).bind fun before hbefore => .after fun marked => .ite .failure ?_
  refine .after fun maybe => (lexical_binder r).bind fun after hafter => .ite .failure ?_
  refine (lexical_traitPath r).bind fun p hp => .pure fun ts hts => ?_
  split
  · exact .other hts
  · exact .trait (hbefore.append hafter) hp

instance : TakesLexical captureList := by unfold captureList; infer_instance

instance (capture const : Bool) : TakesLexical (boundRule r capture const) := by
  unfold boundRule
  infer_instance

/-- The rule for bounds keeps such tokens. -/
theorem lexical_boundRule (capture const : Bool) :
    ReadsLexical (boundRule r capture const) TypeBound.Lexical := by
  refine .ofForm (.after fun lifetime => .ite ?_ (.after fun captures => .ite ?_ ?_))
  · exact ReadsLexical.lifetime.bind fun i hi => .pure fun _ _ => .lifetime hi
  · exact .after fun _ => .ite (.pure fun _ hts => .other hts) .failure
  · refine .after fun parenthesized => .ite ?_ (lexical_traitBound r const false)
    exact (lexical_traitBound r const true).group .parenthesis

instance (first : TypeBound) (plus capture const : Bool) :
    TakesLexical (furtherBounds r first plus capture const) := by
  unfold furtherBounds
  infer_instance

/-- Bounds that go on from a first one keep such tokens. -/
theorem lexical_furtherBounds {first : TypeBound} (hfirst : first.Lexical)
    (plus capture const : Bool) :
    ReadsLexical (furtherBounds r first plus capture const) fun e => ∀ b ∈ e.1, b.Lexical := by
  refine .after fun goesOn => .ite (.after fun _ => ?_) ?_
  · exact ((lexical_bound r capture const).chained _ _).bind fun e hrest =>
      .pure (List.forall_mem_cons.mpr ⟨hfirst, hrest⟩)
  · exact .pure (List.forall_mem_singleton.mpr hfirst)

instance (plus capture const : Bool) : TakesLexical (bounds r plus capture const) := by
  unfold bounds
  infer_instance

/-- Bounds with plus signs between them keep such tokens. -/
theorem lexical_bounds (plus capture const : Bool) :
    ReadsLexical (bounds r plus capture const) fun e => ∀ b ∈ e.1, b.Lexical :=
  (lexical_bound r capture const).bind fun _ hfirst =>
    lexical_furtherBounds r hfirst plus capture const

instance (marked plus : Bool) : TakesLexical (objectBounds r marked plus) := by
  unfold objectBounds
  infer_instance

/-- A trait object keeps such tokens in its bounds. -/
theorem lexical_objectBounds (marked plus : Bool) :
    ReadsLexical (objectBounds r marked plus) SourceType.Lexical :=
  (lexical_bounds r plus false false).bind fun _ hbounds =>
    .ite (.pure (.traitObject hbounds)) .failure

/-! ## Types -/

instance (first : Bool) : TakesLexical (functionParam r first) := by
  unfold functionParam
  infer_instance

instance : TakesLexical variadic := by unfold variadic; infer_instance

instance (first : Bool) (fuel : Nat) : TakesLexical (functionParams r first fuel) := by
  induction fuel generalizing first with
  | zero => exact inferInstanceAs (TakesLexical failure)
  | succ fuel ih => unfold functionParams; infer_instance

instance : TakesLexical convention := by unfold convention; infer_instance
instance : TakesLexical (functionPointer r) := by unfold functionPointer; infer_instance
instance : TakesLexical (parenContent r) := by unfold parenContent; infer_instance
instance (first : TypeBound) : TakesLexical (objectFrom r first) := by
  unfold objectFrom
  infer_instance

/-- What stands in parentheses is read from its own text. -/
def ParenContent.Lexical : ParenContent → Prop
  | .object t => t.Lexical
  | .maybe b => b.Lexical
  | .tuple elems _ => ∀ t ∈ elems, t.Lexical
  | .one t => t.Lexical

/-- What stands in parentheses keeps such tokens, a type as well as bounds. -/
theorem lexical_parenContent : ReadsLexical (parenContent r) ParenContent.Lexical := by
  have hempty : ParenContent.Lexical (.tuple [] false) := List.forall_mem_nil _
  refine .after fun ended => .ite (.pure hempty) (.after fun object => .ite ?_ ?_)
  · exact (lexical_objectBounds r false true).bind fun t ht => .pure ht
  refine .after fun maybe => .ite ?_ ?_
  · exact (lexical_traitBound r false true).bind fun form hform => .pure (hform [] lexicalAll_nil)
  refine (lexical_type r true).bind fun first hfirst => .after fun comma => .ite ?_ (.pure hfirst)
  exact (lexical_type r true).commaList.bind fun e hrest =>
    .pure (List.forall_mem_cons.mpr ⟨hfirst, hrest⟩)

/-- A bound that was read as a type in parentheses keeps such tokens. -/
theorem lexical_parenBound? {t : SourceType} {b : TypeBound} (ht : t.Lexical)
    (h : parenBound? t = some b) : b.Lexical := by
  unfold parenBound? at h
  -- Of the types in parentheses only a path and a sole bound can be read as a bound.
  split at h
  · cases h
    obtain ⟨hp⟩ := ht
    exact .trait lexicalAll_nil hp
  · cases h
    cases ht with
    | traitObject hbounds =>
      cases List.forall_mem_singleton.mp hbounds with
      | trait hbinder hp => exact .trait hbinder hp
  · cases h
    cases ht with
    | traitObject hbounds => exact List.forall_mem_singleton.mp hbounds
  · cases h

/-- A trait object without `dyn` keeps such tokens in its bounds. -/
theorem lexical_objectFrom {first : TypeBound} (hfirst : first.Lexical) :
    ReadsLexical (objectFrom r first) SourceType.Lexical := by
  have hrest : ReadsLexical (do op "+"; r.bound false false) TypeBound.Lexical :=
    .after fun _ => lexical_bound r false false
  exact (hrest.many _).bind fun rest hrest =>
    .pure (.traitObject (List.forall_mem_cons.mpr ⟨hfirst, hrest⟩))

instance (plus : Bool) : TakesLexical (parenType r plus) := by
  unfold parenType
  refine @TakesLexical.bind _ _ _ _ _ fun content => ?_
  cases content with
  | object t => infer_instance
  | maybe b => infer_instance
  | tuple elems trailing => infer_instance
  | one t =>
    have hbound : TakesLexical (match parenBound? t with
        | some b => objectFrom r b
        | none => pure (.paren t)) := by
      split
      · infer_instance
      · infer_instance
    infer_instance

/-- A type that starts with parentheses keeps such tokens. -/
theorem lexical_parenType (plus : Bool) : ReadsLexical (parenType r plus) SourceType.Lexical := by
  refine ((lexical_parenContent r).group .parenthesis).bind fun content hcontent => ?_
  cases content with
  | object t => exact .pure (.paren hcontent)
  | maybe b => exact lexical_objectFrom r hcontent
  | tuple elems trailing => exact .pure (.tuple hcontent)
  | one t =>
    have hparen : ReadsLexical (pure (.paren t)) SourceType.Lexical := .pure (.paren hcontent)
    refine .after fun more => .ite ?_ hparen
    split
    · next b hb => exact lexical_objectFrom r (lexical_parenBound? hcontent hb)
    · exact hparen

instance (plus : Bool) (bound : List TokenTree) : TakesLexical (pathType r plus bound) := by
  unfold pathType
  refine @TakesLexical.bind _ _ _ _ _ fun p? => ?_
  cases p? with
  | none => infer_instance
  | some p => infer_instance

/-- A type that starts with a path keeps such tokens. -/
theorem lexical_pathType (plus : Bool) {bound : List TokenTree} (hbound : LexicalAll bound) :
    ReadsLexical (pathType r plus bound) (FormOf SourceType.Lexical) := by
  have hother : FormOf SourceType.Lexical .other := fun _ hts => .other hts
  refine (lexical_anyPath r false).bind fun p? hp => .after fun call => .ite ?_ ?_
  · exact .after fun _ => .pure hother
  · cases p? with
    | none => exact .pure hother
    | some p =>
      refine .after fun more => .ite ?_ (.pure fun _ _ => .path (hp p rfl))
      exact (lexical_furtherBounds r (.trait hbound (hp p rfl)) plus false false).bind
        fun e hbounds => .pure fun _ _ => .traitObject hbounds

instance : TakesLexical (bracketType r) := by unfold bracketType; infer_instance

/-- A slice or an array keeps such tokens. -/
theorem lexical_bracketType : ReadsLexical (bracketType r) SourceType.Lexical := by
  refine .group ((lexical_type r true).bind fun elem helem => .after fun array => .ite ?_ ?_) _
  · exact (ReadsLexical.captured (P := fun _ => True) fun _ _ => Yields.trivial _).bind fun e he =>
      .pure (.array helem he.2)
  · exact .pure (.slice helem)

instance : TakesLexical (pointerType r) := by unfold pointerType; infer_instance
instance : TakesLexical (referenceType r) := by unfold referenceType; infer_instance
instance (plus : Bool) : TakesLexical (typeForm r plus) := by unfold typeForm; infer_instance
instance (plus : Bool) : TakesLexical (typeRule r plus) := by unfold typeRule; infer_instance

/-- A pointer keeps such tokens in its target. -/
theorem lexical_pointerType : ReadsLexical (pointerType r) SourceType.Lexical := by
  have htarget : ∀ mutable, ReadsLexical (do return SourceType.pointer mutable (← r.type false))
      SourceType.Lexical :=
    fun mutable => (lexical_type r false).bind fun target htarget => .pure (.pointer htarget)
  exact .after fun _ => .after fun mutable =>
    .ite (htarget mutable) (.after fun _ => htarget mutable)

/-- A reference keeps such tokens in its target. -/
theorem lexical_referenceType : ReadsLexical (referenceType r) SourceType.Lexical := by
  refine .after fun _ => ReadsLexical.lifetime?.bind fun i? hi => .after fun mutable => ?_
  exact (lexical_type r false).bind fun target htarget => .pure (.reference hi htarget)

/-- Every form of type keeps such tokens. -/
theorem lexical_typeForm (plus : Bool) :
    ReadsLexical (typeForm r plus) (FormOf SourceType.Lexical) := by
  -- A type that is kept as it is read, or as the tokens that were taken for it.
  have hread : ∀ {p : Reader SourceType} [Forward p], ReadsLexical p SourceType.Lexical →
      ReadsLexical (do let t ← p; return fun _ : List TokenTree => t) (FormOf SourceType.Lexical) :=
    fun hp => hp.bind fun t ht => .pure fun _ _ => ht
  have hother : FormOf SourceType.Lexical .other := fun _ hts => .other hts
  refine (lexical_binder r).bind fun bound hbound => .after fun ts => .ite .failure (.ite ?_ ?_)
  · exact hread (lexical_parenType r plus)
  refine .ite ?_ (.ite ?_ (.ite ?_ (.ite ?_ (.ite ?_ (.ite ?_ (.ite ?_ ?_))))))
  · exact .after fun _ => .pure fun _ hts => .function hts
  · exact lexical_pathType r plus hbound
  · refine .after fun _ => .after fun starred => ?_
    refine (lexical_objectBounds r true plus).bind fun t ht => .pure fun ts hts => ?_
    split
    · exact .other hts
    · exact ht
  · exact hread (lexical_bracketType r)
  · exact hread (lexical_pointerType r)
  · exact hread (lexical_referenceType r)
  · exact .after fun _ => .pure fun _ _ => .never
  refine .ite ?_ (.ite ?_ (.ite ?_ .failure))
  · exact .after fun _ => .after fun e => .ite (.pure hother) .failure
  · exact .after fun _ => .pure hother
  · exact hread (lexical_objectBounds r false true)

/-- The rule for types keeps such tokens. -/
theorem lexical_typeRule (plus : Bool) : ReadsLexical (typeRule r plus) SourceType.Lexical :=
  .ofForm (lexical_typeForm r plus)

end

namespace TakesLexical

/-! ## Patterns -/

variable (r : Rules) [r.Forward] [r.Lexical]

instance : TakesLexical (alternatives r) := by unfold alternatives; infer_instance
instance : TakesLexical (constBlock r) := by unfold constBlock; infer_instance
instance (dots : Bool) : TakesLexical (rangeLimits dots) := by unfold rangeLimits; infer_instance
instance : TakesLexical (rangeEnd r) := by unfold rangeEnd; infer_instance
instance : TakesLexical (rangeAfter r) := by unfold rangeAfter; infer_instance
instance : TakesLexical (rangeWithoutStart r) := by unfold rangeWithoutStart; infer_instance
instance : TakesLexical (fieldPattern r) := by unfold fieldPattern; infer_instance

instance (fuel : Nat) : TakesLexical (fieldPatterns r fuel) := by
  induction fuel with
  | zero => exact inferInstanceAs (TakesLexical failure)
  | succ fuel ih => unfold fieldPatterns; infer_instance

instance : TakesLexical (pathPattern r) := by unfold pathPattern; infer_instance
instance : TakesLexical (namePattern r) := by unfold namePattern; infer_instance
instance : TakesLexical (slicePattern r) := by unfold slicePattern; infer_instance
instance : TakesLexical (patternRule r) := by unfold patternRule; infer_instance

/-! ## Expressions -/

instance (structs : Bool) (precedence : Nat) (operand : ExprKind) (fuel : Nat) :
    TakesLexical (rightLoop r structs precedence operand fuel) := by
  induction fuel generalizing operand with
  | zero => exact inferInstanceAs (TakesLexical failure)
  | succ fuel ih => unfold rightLoop; infer_instance

instance (structs : Bool) (precedence : Nat) :
    TakesLexical (rightOperand r structs precedence) := by
  unfold rightOperand
  infer_instance

instance (structs closed : Bool) : TakesLexical (rangeEndExpr r structs closed) := by
  unfold rangeEndExpr
  infer_instance

instance (structs : Bool) (base : Nat) (operand : ExprKind) (fuel : Nat) :
    TakesLexical (operatorLoop r structs base operand fuel) := by
  induction fuel generalizing operand with
  | zero => exact inferInstanceAs (TakesLexical failure)
  | succ fuel ih =>
    unfold operatorLoop
    refine @bind _ _ _ _ _ fun ts => ?_
    cases h : binaryOperator? ts with
    | none => infer_instance
    | some entry =>
      have := IsOperator.of_binaryOperator? h
      infer_instance

instance (operand : ExprKind) (structs : Bool) (base : Nat) :
    TakesLexical (operatorsRule r operand structs base) := by
  unfold operatorsRule
  infer_instance

instance : TakesLexical (callValues r) := by unfold callValues; infer_instance
instance : TakesLexical (namedMember r) := by unfold namedMember; infer_instance

/-- A number with a point is taken as two indexes. -/
theorem of_indexFields {text : String} {rest : List TokenTree} (htext : LiteralText text.toList)
    (hrest : ∀ t ∈ rest, t.Lexical) : TakesLexical (indexFields text rest) := by
  unfold indexFields
  cases indexPair? text with
  | none =>
    dsimp only
    split
    · have := of_advance (lexicalAll_literal htext) hrest
      -- A pair such as `0.1` is taken as two indices with a point between them.
      infer_instance
    · infer_instance
  | some pair =>
    dsimp only
    split
    · next hall =>
      have hparts : ∀ part ∈ pair.1.map fun part => [TokenTree.literal part], LexicalAll part := by
        rw [List.forall_mem_map]
        intro part hpart
        exact lexicalAll_literal (literalText_of_isIndexText (List.all_eq_true.mp hall part hpart))
      have hpoint := lexicalAll_operator "." (by decide)
      have := of_advance (lexicalAll_separate hpoint pair.2 hparts) hrest
      infer_instance
    · infer_instance

/-- A number after a point, or the name of a member if there is none. -/
theorem of_index {f : Bool → Reader β} {p : Reader β} [∀ open_, TakesLexical (f open_)]
    [TakesLexical p] : TakesLexical (do
      match ← ahead with
      | .literal text :: rest => indexFields text rest >>= f
      | _ => p) := by
  refine of_ahead fun ts hts => ?_
  split
  · obtain ⟨htext, hrest⟩ := List.forall_mem_cons.mp hts
    have := of_indexFields htext hrest
    infer_instance
  · infer_instance

instance : TakesLexical (member r) := by
  -- A number that ends in a point is followed by another number or a name.
  have hsecond :=
    @of_index Unit (fun open_ => if open_ then failure else pure ()) (namedMember r) _ _
  exact @of_index Unit (fun open_ => if open_ then _ else pure ()) (namedMember r) _ _

instance (operand : ExprKind) (fuel : Nat) : TakesLexical (trailerLoop r operand fuel) := by
  induction fuel generalizing operand with
  | zero => exact inferInstanceAs (TakesLexical failure)
  | succ fuel ih => unfold trailerLoop; infer_instance

instance (operand : ExprKind) : TakesLexical (trailers r operand) := by
  unfold trailers
  infer_instance

instance (fuel : Nat) : TakesLexical (ifLoop r fuel) := by
  induction fuel with
  | zero => exact inferInstanceAs (TakesLexical failure)
  | succ fuel ih => unfold ifLoop; infer_instance

instance : TakesLexical (ifExpr r) := by unfold ifExpr; infer_instance
instance : TakesLexical (whileExpr r) := by unfold whileExpr; infer_instance
instance : TakesLexical (forExpr r) := by unfold forExpr; infer_instance
instance (text : String) : TakesLexical (wordBlock r text) := by unfold wordBlock; infer_instance
instance : TakesLexical (labeled r) := by unfold labeled; infer_instance

instance (fuel : Nat) : TakesLexical (armLoop r fuel) := by
  induction fuel with
  | zero => exact inferInstanceAs (TakesLexical failure)
  | succ fuel ih => unfold armLoop; infer_instance

instance : TakesLexical (matchExpr r) := by unfold matchExpr; infer_instance

/-- A reader that is chosen among several. -/
theorem of_ite_some {c : Prop} [Decidable c] {p q : Reader α} {rest : Option (Reader α)}
    [TakesLexical p] (hrest : ∀ q, rest = some q → TakesLexical q)
    (h : (if c then some p else rest) = some q) : TakesLexical q := by
  split at h
  · cases h
    infer_instance
  · exact hrest q h

omit [r.Forward] in
/-- Blocks, branches and loops take such tokens, whichever comes next. -/
theorem of_blockExpr? {ts : List TokenTree} {p : Reader Unit} (h : blockExpr? r ts = some p) :
    TakesLexical p := by
  unfold blockExpr? at h
  repeat refine of_ite_some (fun p h => ?_) h
  cases h

instance : TakesLexical (boundedRule r) := by
  have hblock : ∀ ts : List TokenTree, TakesLexical (match blockExpr? r ts with
      | some block => (do
          block
          if ← peek fun ts => atMember ts || atOp "?" ts then
            let kind ← trailers r .block
            r.operators kind true 0
          else return .block : Reader ExprKind)
      | none => do
        let kind ← r.unary true
        if kind = .block then return kind else r.operators kind true 0) := by
    intro ts
    split
    · next hblock =>
      have := of_blockExpr? r hblock
      infer_instance
    · infer_instance
  unfold boundedRule
  infer_instance

instance (structs : Bool) : TakesLexical (closure r structs) := by unfold closure; infer_instance
instance : TakesLexical (fieldValue r) := by unfold fieldValue; infer_instance

instance (fuel : Nat) : TakesLexical (fieldValues r fuel) := by
  induction fuel with
  | zero => exact inferInstanceAs (TakesLexical failure)
  | succ fuel ih => unfold fieldValues; infer_instance

instance (structs : Bool) : TakesLexical (pathExpr r structs) := by unfold pathExpr; infer_instance
instance : TakesLexical (optionalValue r) := by unfold optionalValue; infer_instance

instance (structs : Bool) : TakesLexical (breakExpr r structs) := by
  unfold breakExpr
  infer_instance

instance (structs : Bool) : TakesLexical (letExpr r structs) := by unfold letExpr; infer_instance
instance : TakesLexical (parenExpr r) := by unfold parenExpr; infer_instance
instance : TakesLexical (bracketExpr r) := by unfold bracketExpr; infer_instance

omit [r.Forward] in
/-- Operands that start with a word of their own take such tokens. -/
theorem of_wordExpr? {structs : Bool} {ts : List TokenTree} {p : Reader Unit}
    (h : wordExpr? r structs ts = some p) : TakesLexical p := by
  unfold wordExpr? at h
  repeat refine of_ite_some (fun p h => ?_) h
  cases h

instance (structs : Bool) : TakesLexical (operand r structs) := by
  have hlast : ∀ ts, TakesLexical (match wordExpr? r structs ts, blockExpr? r ts with
      | some p, _ => (do p; return .plain : Reader ExprKind)
      | none, some p => do
        p
        return .block
      | none, none => failure) := by
    intro ts
    split
    · next hword =>
      have := of_wordExpr? r hword
      infer_instance
    · next hblock =>
      have := of_blockExpr? r hblock
      infer_instance
    · infer_instance
  unfold operand
  infer_instance

instance (structs : Bool) : TakesLexical (unaryRule r structs) := by
  unfold unaryRule
  infer_instance

/-! ## Items -/

omit [r.Lexical] [r.Forward] in
/-- The restriction of a visibility takes such tokens, if there is one. -/
theorem of_restriction? (ts : List TokenTree) :
    TakesLexical ((restriction? ts).getD (pure ())) := by
  unfold restriction?
  split
  · split
    · exact inferInstanceAs (TakesLexical (discard anyGroup))
    · exact inferInstanceAs (TakesLexical (pure ()))
  · split
    · exact inferInstanceAs (TakesLexical (group .parenthesis (word "in" *> discard plainPath)))
    · exact inferInstanceAs (TakesLexical (pure ()))
  · exact inferInstanceAs (TakesLexical (pure ()))

instance : TakesLexical visibility := by
  have := of_restriction?
  unfold visibility
  infer_instance

instance : TakesLexical (generics r) := by unfold generics; infer_instance
instance : TakesLexical (wherePredicate r) := by unfold wherePredicate; infer_instance
instance : TakesLexical (whereClause r) := by unfold whereClause; infer_instance

instance (fields : Reader Unit) [TakesLexical fields] (attrs : List Meta) :
    TakesLexical (namedFieldAfter r fields attrs) := by
  unfold namedFieldAfter
  infer_instance

instance (fuel : Nat) : TakesLexical (namedFieldsLoop r fuel) := by
  induction fuel with
  | zero => exact inferInstanceAs (TakesLexical failure)
  | succ fuel ih => unfold namedFieldsLoop; infer_instance

instance : TakesLexical (namedFields r) := by unfold namedFields; infer_instance
instance : TakesLexical (unnamedFields r) := by unfold unnamedFields; infer_instance

instance (attrs : List Meta) : TakesLexical (structAfter r attrs) := by
  unfold structAfter
  infer_instance

instance : TakesLexical (variant r) := by unfold variant; infer_instance
instance : TakesLexical (enumAfter r) := by unfold enumAfter; infer_instance
instance : TakesLexical (unionAfter r) := by unfold unionAfter; infer_instance
instance : TakesLexical (receiver r) := by unfold receiver; infer_instance
instance : TakesLexical (typedParam r) := by unfold typedParam; infer_instance
instance : TakesLexical variadicEnd := by unfold variadicEnd; infer_instance

instance (first : Bool) (fuel : Nat) : TakesLexical (paramLoop r first fuel) := by
  induction fuel generalizing first with
  | zero => exact inferInstanceAs (TakesLexical failure)
  | succ fuel ih => unfold paramLoop; infer_instance

instance (safe : Bool) : TakesLexical (signature r safe) := by
  have hafter : TakesLexical (do
      convention
      word "fn"
      discard name
      discard <| generics r
      group .parenthesis do paramLoop r true ((← ahead).length + 1)
      if ← op? "->" then discard <| r.type true
      discard <| whereClause r) := inferInstance
  unfold signature
  infer_instance

instance (safe : Bool) : TakesLexical (function r safe) := by unfold function; infer_instance
instance : TakesLexical (constant r) := by unfold constant; infer_instance

instance (place : WherePlace) : TakesLexical (typeDeclaration r place) := by
  unfold typeDeclaration
  infer_instance

instance (named : Bool) : TakesLexical (itemMacro named) := by unfold itemMacro; infer_instance
instance : TakesLexical (traitMember r) := by unfold traitMember; infer_instance
instance : TakesLexical (implMember r) := by unfold implMember; infer_instance
instance : TakesLexical (foreignMember r) := by unfold foreignMember; infer_instance

instance (p : Reader Unit) [TakesLexical p] : TakesLexical (members r p) := by
  unfold members
  infer_instance

instance (withAlias : Bool) : TakesLexical (traitAfter r withAlias) := by
  unfold traitAfter
  infer_instance

instance : TakesLexical (implementation r) := by
  have htype : TakesLexical (do
      discard <| r.type true
      if ← word? "for" then discard <| r.type true
      discard <| whereClause r
      members r (implMember r)) := inferInstance
  unfold implementation
  infer_instance

instance : TakesLexical (externalBlock r) := by unfold externalBlock; infer_instance
instance : TakesLexical externCrateAfter := by unfold externCrateAfter; infer_instance
instance : TakesLexical (moduleAfter r) := by unfold moduleAfter; infer_instance

instance (p : Reader Unit) [TakesLexical p] : TakesLexical (dropped p) := by
  unfold dropped
  infer_instance

instance : TakesLexical (staticAfter r) := by unfold staticAfter; infer_instance
instance : TakesLexical macroDeclaration := by unfold macroDeclaration; infer_instance

instance (visible : Bool) (second : List TokenTree) :
    TakesLexical (unsafeItem r visible second) := by
  unfold unsafeItem
  infer_instance

instance (root : Bool) (fuel : Nat) : TakesLexical (useGroupLoop r root fuel) := by
  induction fuel with
  | zero => exact inferInstanceAs (TakesLexical failure)
  | succ fuel ih => unfold useGroupLoop; infer_instance

instance (root : Bool) : TakesLexical (useTreeRule r root) := by unfold useTreeRule; infer_instance

instance : TakesLexical (useAfter r) := by
  have hlast : ∀ (absolute : Bool) (tree : Option UseTree), TakesLexical (match tree with
      | some tree => (pure (.use absolute tree) : Reader Item)
      | none => pure .other) := by
    intro absolute tree
    cases tree with
    | none => infer_instance
    | some tree => infer_instance
  unfold useAfter
  infer_instance

instance (attrs : List Meta) : TakesLexical (itemAfter r attrs) := by
  have hlast : ∀ e : Ident × List GenericParam × Option SourceType, TakesLexical (match e with
      | (i, params, target) => match target with
        | some target => (pure (.typeAlias i params target) : Reader Item)
        | none => pure .other) := by
    rintro ⟨i, params, target⟩
    cases target with
    | none => infer_instance
    | some target => infer_instance
  unfold itemAfter
  infer_instance

instance : TakesLexical (itemsRule r) := by unfold itemsRule; infer_instance

/-! ## Statements -/

instance : TakesLexical endsInBrace where
  lexical hc h := by
    cases h
    exact hc

instance : TakesLexical (letStatement r) := by unfold letStatement; infer_instance

instance : TakesLexical (statement r) := by
  unfold statement
  refine @bind _ _ _ _ _ fun attrs => @bind _ _ _ _ _ fun ts => ?_
  cases leadingMacro ts with
  | item => infer_instance
  | statement => infer_instance
  | other => infer_instance

instance (fuel : Nat) : TakesLexical (statementLoop r fuel) := by
  induction fuel with
  | zero => exact inferInstanceAs (TakesLexical failure)
  | succ fuel ih => unfold statementLoop; infer_instance

instance : TakesLexical (statementsRule r) := by unfold statementsRule; infer_instance

end TakesLexical

/-- Each level of the grammar takes tokens that are read from their own texts if the level below it
does. -/
instance rules_lexical (depth : Nat) : (rules depth).Lexical := by
  induction depth with
  | zero =>
    have hnone : ∀ {α : Type}, TakesLexical (failure : Reader α) := inferInstance
    exact ⟨fun _ => hnone, fun _ _ => hnone, fun _ => hnone, fun _ _ _ => hnone, hnone, hnone,
      hnone, hnone, fun _ => hnone, fun _ => .failure, fun _ _ => .failure⟩
  | succ depth ih =>
    constructor
    · intro plus
      exact inferInstanceAs (TakesLexical (typeRule (rules depth) plus))
    · intro capture const
      exact inferInstanceAs (TakesLexical (boundRule (rules depth) capture const))
    · intro structs
      exact inferInstanceAs (TakesLexical (unaryRule (rules depth) structs))
    · intro operand structs base
      exact inferInstanceAs (TakesLexical (operatorsRule (rules depth) operand structs base))
    · exact inferInstanceAs (TakesLexical (boundedRule (rules depth)))
    · exact inferInstanceAs (TakesLexical (patternRule (rules depth)))
    · exact inferInstanceAs (TakesLexical (statementsRule (rules depth)))
    · exact inferInstanceAs (TakesLexical (itemsRule (rules depth)))
    · intro root
      exact inferInstanceAs (TakesLexical (useTreeRule (rules depth) root))
    · exact lexical_typeRule (rules depth)
    · exact lexical_boundRule (rules depth)

instance (tokens : List TokenTree) : (rulesFor tokens).Lexical := rules_lexical _

/-! ## Types of texts and of fields -/

/-- The names in a type that is read are words, and its tokens are read from their own texts. -/
theorem lexical_of_parseType {text : String} {t : SourceType} (h : parseType text = some t) :
    t.Lexical := by
  obtain ⟨tokens, hlex, hread⟩ := Option.bind_eq_some_iff.mp h
  have htokens := (lexicalAll_of_lex hlex).forall_mem
  have htype := lexical_type (rulesFor tokens) true tokens htokens
  exact Yields.readTokens (p := fun r => r.type true) htype hread

/-- The tokens of a type that is read are read from their own texts. -/
theorem lexicalAll_of_parseType {text : String} {t : SourceType} (h : parseType text = some t) :
    LexicalAll t.tokens :=
  lexicalAll_type t (lexical_of_parseType h)

section

variable (r : Rules) [r.Forward] [r.Lexical]

/-- A field with a name has a type with such tokens. -/
theorem lexical_namedFieldAfter (fields : Reader Unit) [Forward fields] [TakesLexical fields]
    (attrs : List Meta) :
    ReadsLexical (namedFieldAfter r fields attrs) fun f => f.type.Lexical := by
  have hfield : ∀ i, ReadsLexical (do return (⟨attrs, some i, ← r.type true⟩ : Field))
      fun f => f.type.Lexical :=
    fun i => (lexical_type r true).bind fun t ht => .pure ht
  refine .after fun _ => .after fun anonymous => ?_
  -- Both ways to read the name go on in the same way.
  cases anonymous with
  | true =>
    refine .after fun i => .after fun _ => .after fun nested => .ite ?_ (hfield i)
    exact (ReadsLexical.captured (P := fun _ => True) fun _ _ => Yields.trivial _).bind
      fun e he => .pure (.other he.2)
  | false => exact .after fun i => .after fun _ => .after fun _ => hfield i

/-- Fields with names have types with such tokens. -/
theorem lexical_namedFields :
    ReadsLexical (namedFields r) fun fields => ∀ f ∈ fields, f.type.Lexical := by
  refine .after fun ts => ?_
  have hbody : ReadsLexical (commaList do
      let attrs ← attributes r
      namedFieldAfter r (discard <| namedFieldsLoop r (TokenTree.sizeAll (ts.take 1))) attrs)
      fun e => ∀ f ∈ e.1, f.type.Lexical :=
    .commaList (.after fun attrs => lexical_namedFieldAfter r _ attrs)
  exact (hbody.group .brace).bind fun e he => .pure he

/-- Fields without names have types with such tokens. -/
theorem lexical_unnamedFields :
    ReadsLexical (unnamedFields r) fun fields => ∀ f ∈ fields, f.type.Lexical := by
  have hbody : ReadsLexical (commaList do
      let attrs ← attributes r
      discard visibility
      return (⟨attrs, none, ← r.type true⟩ : Field)) fun e => ∀ f ∈ e.1, f.type.Lexical :=
    .commaList (.after fun attrs => .after fun _ => (lexical_type r true).bind fun t ht => .pure ht)
  exact (hbody.group .parenthesis).bind fun e he => .pure he

/-- The fields of a struct have types with such tokens, whatever its kind. -/
theorem lexical_structAfter (attrs : List Meta) :
    ReadsLexical (structAfter r attrs) fun s => ∀ f ∈ s.fields.list, f.type.Lexical := by
  refine .after fun _ => .after fun i => .after fun params => .after fun conditions => ?_
  refine .after fun ts => .ite ?_ (.ite ?_ ?_)
  · exact (lexical_unnamedFields r).bind fun fields hfields =>
      .after fun _ => .after fun _ => .pure hfields
  · exact (lexical_namedFields r).bind fun fields hfields => .pure hfields
  · exact .after fun _ => .pure (List.forall_mem_nil _)

end

end Source

open Source

/-- The types of the fields of every struct of a file are of tokens that are read from their own
texts. -/
theorem StructAt.fieldTypesLexical {text : String} {items : List Item}
    (hparse : parseFile text = some items) {root : Scope} {position : List Nat} {d : Candidate}
    (hat : StructAt root items position d) :
    ∀ f ∈ d.item.fields.list, TokenTree.LexicalAll f.type.tokens := by
  obtain ⟨tokens, hlex, hread⟩ := Option.bind_eq_some_iff.mp hparse
  have hyields : Yields tokens (do innerAttributes (rulesFor tokens); (rulesFor tokens).items)
      -- The statement is carried from a module's body outwards with the tokens it stands in.
      fun items => ∀ item ∈ items, item.EachStruct fun s =>
        (∀ t ∈ tokens, t.Lexical) → ∀ f ∈ s.fields.list, f.type.Lexical :=
    Yields.after fun _ => yields_eachStruct
      (fun _ _ _ _ hbody h hall => h (hall _ hbody).forall_mem)
      (fun depth all attrs c s c' hc hread hall =>
        lexical_structAfter (rules depth) attrs all hall c s c' hc hread) _ tokens
  have hitems := Yields.readTokens (p := fun r => do innerAttributes r; r.items) hyields hread
  obtain ⟨k, item, rest, hitem, hmem, -⟩ :=
    mem_structsFrom_iff.mp (mem_structsFrom_zero_iff.mpr hat)
  have htokens := (Token.lexicalAll_of_lex hlex).forall_mem
  intro f hf
  exact lexicalAll_type f.type (hitems item (List.mem_of_getElem? hitem) _ _ hmem htokens f hf)

end Memberwise
