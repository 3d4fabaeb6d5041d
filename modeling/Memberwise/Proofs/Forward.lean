import Memberwise.Source.Parse

/-!
# Memberwise.Proofs.Forward — readers only go forward

Whatever a reader takes, it takes from the front: what is left afterwards is an end of what was left
before. The basic readers go forward, and so does what the grammar makes of readers that do. So
this is a class, whose instances follow the definitions: one for each way to combine readers, and
one for each rule. A group goes forward whatever its content does, hence nothing is asked of the
readers of statements and items, which stand in braces. The recursion of the grammar is closed by
`rules_forward`, and that of `use` trees, of which only items are made, by `rules_useForward`.
-/

namespace Memberwise.Source

-- The instance for a rule is as large as the rule.
set_option synthInstance.maxSize 4096

variable {α β : Type}

/-- What a reader leaves is an end of what it finds. -/
class Forward (p : Reader α) : Prop where
  suffix : ∀ {c : Cursor} {a : α} {c' : Cursor}, p c = some (a, c') → c'.rest <:+ c.rest

namespace Forward

/-! ## Readers in combination -/

section

variable {p q : Reader α} {f : α → Reader β}

instance bind [Forward p] [∀ a, Forward (f a)] : Forward (p >>= f) where
  suffix h := by
    rcases Option.bind_eq_some_iff.mp h with ⟨⟨a, middle⟩, hfirst, hsecond⟩
    exact (suffix hsecond).trans (suffix hfirst)

instance (a : α) : Forward (pure a : Reader α) where
  suffix h := by
    cases h
    exact List.suffix_refl _

instance : Forward (failure : Reader α) where
  suffix h := by cases h

instance {b : Prop} [Decidable b] [Forward p] [Forward q] : Forward (if b then p else q) := by
  split
  · infer_instance
  · infer_instance

instance (g : α → β) [Forward p] : Forward (g <$> p) := by
  rw [map_eq_pure_bind]
  infer_instance

instance [Forward p] : Forward (discard p) := inferInstanceAs (Forward (Function.const α () <$> p))

instance {ι : Type} (xs : List ι) {b : β} {f : ι → β → Reader (ForInStep β)}
    [∀ i b, Forward (f i b)] : Forward (forIn xs b f) := by
  induction xs generalizing b with
  | nil =>
    rw [List.forIn_nil]
    infer_instance
  | cons x xs ih =>
    rw [List.forIn_cons]
    have hstep : ∀ step : ForInStep β, Forward (match step with
        | .done b => (pure b : Reader β)
        | .yield b => forIn xs b f) := by
      intro step
      cases step with
      | done b => infer_instance
      | yield b => exact ih
    infer_instance

instance : Forward ahead where
  suffix h := by
    cases h
    exact List.suffix_refl _

/-- A reader that looks ahead first. -/
theorem of_ahead {f : List TokenTree → Reader β}
    (h : ∀ {ts taken b c'}, f ts ⟨ts, taken⟩ = some (b, c') → c'.rest <:+ ts) :
    Forward (ahead >>= f) where
  suffix hc := h hc

instance (test : List TokenTree → Bool) : Forward (peek test) := by
  unfold peek
  infer_instance

instance : Forward atEnd := by
  unfold atEnd
  infer_instance

/-- The content of a group is read apart from what follows the group. -/
instance (d : Delimiter) : Forward (group d p) where
  suffix {c a c'} h := by
    unfold group at h
    split at h
    · next hrest =>
      split at h
      · split at h
        · cases h
          rw [hrest]
          exact List.suffix_cons _ _
        · cases h
      · cases h
    · cases h

instance [Forward p] : Forward (captured p) where
  suffix {c a c'} h := by
    unfold captured at h
    split at h
    · next b end_ hp =>
      have hend := suffix hp
      cases h
      exact hend
    · cases h

instance [Forward p] (tokens : α → List TokenTree) : Forward (printedAs tokens p) where
  suffix {c a c'} h := by
    unfold printedAs at h
    split at h
    · next b end_ hp =>
      have hend := suffix hp
      cases h
      exact hend
    · cases h

end

/-! ## Tokens -/

instance (text : String) : Forward (op text) := by
  unfold op
  refine of_ahead fun {ts taken b c'} h => ?_
  split at h
  · cases h
    exact List.drop_suffix _ _
  · cases h

instance (text : String) : Forward (op? text) := by
  unfold op?
  infer_instance

instance : Forward ident := by
  unfold ident
  refine of_ahead fun {ts taken b c'} h => ?_
  split at h
  · cases h
    exact List.suffix_cons _ _
  · cases h

instance : Forward lifetime := by
  unfold lifetime
  refine of_ahead fun {ts taken b c'} h => ?_
  split at h
  · cases h
    exact List.suffix_cons _ _
  · cases h

instance : Forward anyGroup := by
  unfold anyGroup
  refine of_ahead fun {ts taken b c'} h => ?_
  split at h
  · cases h
    exact List.suffix_cons _ _
  · cases h

instance : Forward literal := by
  unfold literal
  refine of_ahead fun {ts taken b c'} h => ?_
  split at h
  · cases h
    exact List.suffix_cons _ _
  · split at h
    · cases h
      exact List.suffix_cons _ _
    · cases h
  · split at h
    · cases h
      exact (List.suffix_cons _ _).trans (List.suffix_cons _ _)
    · cases h
  · cases h

instance : Forward name := by unfold name; infer_instance
instance (text : String) : Forward (word text) := by unfold word; infer_instance
instance (text : String) : Forward (word? text) := by unfold word?; infer_instance
instance : Forward lifetime? := by unfold lifetime?; infer_instance
instance : Forward stringLiteral := by unfold stringLiteral; infer_instance

/-! ## Lists -/

section

variable {p : Reader α} [Forward p] (stop : List TokenTree → Bool) (separator : String) (fuel : Nat)

instance : Forward (manyLoop stop p fuel) := by
  induction fuel with
  | zero => exact inferInstanceAs (Forward failure)
  | succ fuel ih => unfold manyLoop; infer_instance

instance : Forward (many stop p) := by unfold many; infer_instance

instance : Forward (terminatedLoop stop separator p fuel) := by
  induction fuel with
  | zero => exact inferInstanceAs (Forward failure)
  | succ fuel ih => unfold terminatedLoop; infer_instance

instance : Forward (terminated stop separator p) := by unfold terminated; infer_instance

instance : Forward (chainedLoop stop separator p fuel) := by
  induction fuel with
  | zero => exact inferInstanceAs (Forward failure)
  | succ fuel ih => unfold chainedLoop; infer_instance

instance : Forward (chained stop separator p) := by unfold chained; infer_instance

instance : Forward (commaList p) := by unfold commaList; infer_instance

end


/-! ## The nonterminals -/

end Forward

/-- The readers of the nonterminals that stand outside of groups go forward. -/
class Rules.Forward (r : Rules) : Prop where
  type : ∀ plus, Source.Forward (r.type plus)
  bound : ∀ capture const, Source.Forward (r.bound capture const)
  unary : ∀ structs, Source.Forward (r.unary structs)
  operators : ∀ operand structs base, Source.Forward (r.operators operand structs base)
  pattern : Source.Forward r.pattern

attribute [instance] Rules.Forward.type Rules.Forward.bound Rules.Forward.unary
  Rules.Forward.operators Rules.Forward.pattern

namespace Forward

variable (r : Rules)

instance : Forward (body r) := by unfold body; infer_instance
instance : Forward (plainBlock r) := by unfold plainBlock; infer_instance
instance : Forward (attributes r) := by unfold attributes; infer_instance
instance : Forward macroCall := by unfold macroCall; infer_instance

variable [r.Forward]

instance (structs : Bool) : Forward (expr r structs) := by unfold expr; infer_instance

instance (fuel : Nat) : Forward (plainPath.segmentsLoop fuel) := by
  induction fuel with
  | zero => exact inferInstanceAs (Forward failure)
  | succ fuel ih => unfold plainPath.segmentsLoop; infer_instance

instance : Forward plainPath := by unfold plainPath; infer_instance

instance (p : SourcePath) : Forward (metaAfter r p) := by
  unfold metaAfter
  refine @bind _ _ _ _ _ fun ts => ?_
  split
  · infer_instance
  · infer_instance

instance : Forward (metaItem r) := by unfold metaItem; infer_instance

/-! ## Paths, bounds and types -/

instance : Forward (constArgument r) := by unfold constArgument; infer_instance

instance (t : SourceType) (i : Ident) (own : PathArguments) :
    Forward (associatedForm r t i own) := by unfold associatedForm; infer_instance

instance : Forward (argumentForm r) := by
  have hafter : ∀ t : SourceType, Forward (match t with
      | .path (.mk false [.mk name own]) =>
        associatedForm r (.path (.mk false [.mk name own])) name own
      | t => pure fun _ => .type t) := by
    intro t
    split
    · infer_instance
    · infer_instance
  unfold argumentForm
  infer_instance

instance : Forward (genericArgument r) := by unfold genericArgument; infer_instance
instance : Forward (angleArguments r) := by unfold angleArguments; infer_instance
instance (inExpr : Bool) : Forward (pathSegment r inExpr) := by unfold pathSegment; infer_instance
instance (inExpr : Bool) : Forward (sourcePath r inExpr) := by unfold sourcePath; infer_instance

instance (inExpr : Bool) : Forward (qualifiedRest r inExpr) := by
  unfold qualifiedRest
  infer_instance

instance (inExpr : Bool) : Forward (anyPath r inExpr) := by unfold anyPath; infer_instance

instance (stop : List TokenTree → Bool) : Forward (lifetimeBounds stop) := by
  unfold lifetimeBounds
  infer_instance

instance : Forward (paramAfter r) := by unfold paramAfter; infer_instance
instance : Forward (genericParam r) := by unfold genericParam; infer_instance
instance : Forward (binder r) := by unfold binder; infer_instance
instance : Forward (callArguments r) := by unfold callArguments; infer_instance
instance : Forward (traitPath r) := by unfold traitPath; infer_instance
instance : Forward constMark := by unfold constMark; infer_instance

instance (const parenthesized : Bool) : Forward (traitBound r const parenthesized) := by
  unfold traitBound
  infer_instance

instance : Forward captureList := by unfold captureList; infer_instance

instance (capture const : Bool) : Forward (boundRule r capture const) := by
  unfold boundRule
  infer_instance

instance (first : TypeBound) (plus capture const : Bool) :
    Forward (furtherBounds r first plus capture const) := by
  unfold furtherBounds
  infer_instance

instance (plus capture const : Bool) : Forward (bounds r plus capture const) := by
  unfold bounds
  infer_instance

instance (marked plus : Bool) : Forward (objectBounds r marked plus) := by
  unfold objectBounds
  infer_instance

instance : Forward convention := by unfold convention; infer_instance
instance : Forward (functionPointer r) := by unfold functionPointer; infer_instance
instance (first : TypeBound) : Forward (objectFrom r first) := by unfold objectFrom; infer_instance

instance (plus : Bool) : Forward (parenType r plus) := by
  unfold parenType
  refine @bind _ _ _ _ _ fun content => ?_
  cases content with
  | object t => infer_instance
  | maybe b => infer_instance
  | tuple elems trailing => infer_instance
  | one t =>
    have hbound : Forward (match parenBound? t with
        | some b => objectFrom r b
        | none => pure (.paren t)) := by
      split
      · infer_instance
      · infer_instance
    infer_instance

instance (plus : Bool) (bound : List TokenTree) : Forward (pathType r plus bound) := by
  unfold pathType
  refine @bind _ _ _ _ _ fun p? => ?_
  cases p? with
  | none => infer_instance
  | some p => infer_instance

instance : Forward (bracketType r) := by unfold bracketType; infer_instance
instance : Forward (pointerType r) := by unfold pointerType; infer_instance
instance : Forward (referenceType r) := by unfold referenceType; infer_instance
instance (plus : Bool) : Forward (typeForm r plus) := by unfold typeForm; infer_instance
instance (plus : Bool) : Forward (typeRule r plus) := by unfold typeRule; infer_instance

/-! ## Patterns -/

instance : Forward (alternatives r) := by unfold alternatives; infer_instance
instance : Forward (constBlock r) := by unfold constBlock; infer_instance
instance (dots : Bool) : Forward (rangeLimits dots) := by unfold rangeLimits; infer_instance
instance : Forward (rangeEnd r) := by unfold rangeEnd; infer_instance
instance : Forward (rangeAfter r) := by unfold rangeAfter; infer_instance
instance : Forward (rangeWithoutStart r) := by unfold rangeWithoutStart; infer_instance
instance : Forward (pathPattern r) := by unfold pathPattern; infer_instance
instance : Forward (namePattern r) := by unfold namePattern; infer_instance
instance : Forward (slicePattern r) := by unfold slicePattern; infer_instance
instance : Forward (patternRule r) := by unfold patternRule; infer_instance

/-! ## Expressions -/

instance (structs : Bool) (precedence : Nat) (operand : ExprKind) (fuel : Nat) :
    Forward (rightLoop r structs precedence operand fuel) := by
  induction fuel generalizing operand with
  | zero => exact inferInstanceAs (Forward failure)
  | succ fuel ih => unfold rightLoop; infer_instance

instance (structs : Bool) (precedence : Nat) : Forward (rightOperand r structs precedence) := by
  unfold rightOperand
  infer_instance

instance (structs closed : Bool) : Forward (rangeEndExpr r structs closed) := by
  unfold rangeEndExpr
  infer_instance

instance (structs : Bool) (base : Nat) (operand : ExprKind) (fuel : Nat) :
    Forward (operatorLoop r structs base operand fuel) := by
  induction fuel generalizing operand with
  | zero => exact inferInstanceAs (Forward failure)
  | succ fuel ih =>
    unfold operatorLoop
    refine @bind _ _ _ _ _ fun ts => ?_
    cases binaryOperator? ts with
    | none => infer_instance
    | some entry => infer_instance

instance (operand : ExprKind) (structs : Bool) (base : Nat) :
    Forward (operatorsRule r operand structs base) := by
  unfold operatorsRule
  infer_instance

instance : Forward (callValues r) := by unfold callValues; infer_instance
instance : Forward (namedMember r) := by unfold namedMember; infer_instance

/-- The number after a point ends before `rest`. -/
theorem rest_indexFields {text : String} {rest : List TokenTree} {c c' : Cursor} {b : Bool}
    (h : indexFields text rest c = some (b, c')) : c'.rest = rest := by
  unfold indexFields at h
  -- Both forms of an index leave the cursor behind the literal.
  cases hpair : indexPair? text with
  | none =>
    simp only [hpair] at h
    split at h
    · cases h
      rfl
    · cases h
  | some pair =>
    simp only [hpair] at h
    split at h
    · cases h
      rfl
    · cases h

/-- A number after a point, or the name of a member if there is none. -/
theorem of_index {f : Bool → Reader β} {p : Reader β} [∀ open_, Forward (f open_)] [Forward p] :
    Forward (do
      match ← ahead with
      | .literal text :: rest => indexFields text rest >>= f
      | _ => p) := by
  refine of_ahead fun {ts taken b c'} h => ?_
  split at h
  · next text rest =>
    rcases Option.bind_eq_some_iff.mp h with ⟨⟨open_, middle⟩, hindex, hafter⟩
    have hmiddle : middle.rest = rest := rest_indexFields hindex
    have hend : c'.rest <:+ middle.rest := suffix hafter
    rw [hmiddle] at hend
    exact hend.trans (List.suffix_cons _ _)
  · exact suffix h

instance : Forward (member r) := by
  -- A number that ends in a point is followed by another number or a name.
  have hsecond :=
    @of_index Unit (fun open_ => if open_ then failure else pure ()) (namedMember r) _ _
  exact @of_index Unit (fun open_ => if open_ then _ else pure ()) (namedMember r) _ _

instance (operand : ExprKind) (fuel : Nat) : Forward (trailerLoop r operand fuel) := by
  induction fuel generalizing operand with
  | zero => exact inferInstanceAs (Forward failure)
  | succ fuel ih => unfold trailerLoop; infer_instance

instance (operand : ExprKind) : Forward (trailers r operand) := by unfold trailers; infer_instance

instance (fuel : Nat) : Forward (ifLoop r fuel) := by
  induction fuel with
  | zero => exact inferInstanceAs (Forward failure)
  | succ fuel ih => unfold ifLoop; infer_instance

instance : Forward (ifExpr r) := by unfold ifExpr; infer_instance
instance : Forward (whileExpr r) := by unfold whileExpr; infer_instance
instance : Forward (forExpr r) := by unfold forExpr; infer_instance
instance (text : String) : Forward (wordBlock r text) := by unfold wordBlock; infer_instance
instance : Forward (labeled r) := by unfold labeled; infer_instance
instance : Forward (matchExpr r) := by unfold matchExpr; infer_instance

instance (structs : Bool) : Forward (closure r structs) := by unfold closure; infer_instance
instance (structs : Bool) : Forward (pathExpr r structs) := by unfold pathExpr; infer_instance
instance : Forward (optionalValue r) := by unfold optionalValue; infer_instance
instance (structs : Bool) : Forward (breakExpr r structs) := by unfold breakExpr; infer_instance
instance (structs : Bool) : Forward (letExpr r structs) := by unfold letExpr; infer_instance
instance : Forward (parenExpr r) := by unfold parenExpr; infer_instance
instance : Forward (bracketExpr r) := by unfold bracketExpr; infer_instance

/-- A reader that is chosen among several. -/
theorem of_ite_some {c : Prop} [Decidable c] {p q : Reader α} {rest : Option (Reader α)}
    [Forward p] (hrest : ∀ q, rest = some q → Forward q)
    (h : (if c then some p else rest) = some q) : Forward q := by
  split at h
  · cases h
    infer_instance
  · exact hrest q h

theorem of_blockExpr? {ts : List TokenTree} {p : Reader Unit} (h : blockExpr? r ts = some p) :
    Forward p := by
  unfold blockExpr? at h
  repeat refine of_ite_some (fun p h => ?_) h
  cases h

theorem of_wordExpr? {structs : Bool} {ts : List TokenTree} {p : Reader Unit}
    (h : wordExpr? r structs ts = some p) : Forward p := by
  unfold wordExpr? at h
  repeat refine of_ite_some (fun p h => ?_) h
  cases h

instance (structs : Bool) : Forward (operand r structs) := by
  have hlast : ∀ ts : List TokenTree, Forward (match wordExpr? r structs ts, blockExpr? r ts with
      | some p, _ => (do p; return .plain : Reader ExprKind)
      | none, some p => do
        p
        return .block
      | none, none => failure) := by
    intro ts
    split
    · next hword =>
      have := of_wordExpr? r hword
      infer_instance
    · next hblock =>
      have := of_blockExpr? r hblock
      infer_instance
    · infer_instance
  unfold operand
  infer_instance

instance (structs : Bool) : Forward (unaryRule r structs) := by unfold unaryRule; infer_instance

end Forward

/-- Each level of the grammar goes forward if the level below it does. -/
instance rules_forward (depth : Nat) : (rules depth).Forward := by
  induction depth with
  | zero =>
    have hnone : ∀ {α : Type}, Forward (failure : Reader α) := inferInstance
    exact ⟨fun _ => hnone, fun _ _ => hnone, fun _ => hnone, fun _ _ _ => hnone, hnone⟩
  | succ depth ih =>
    constructor
    · intro plus
      exact inferInstanceAs (Forward (typeRule (rules depth) plus))
    · intro capture const
      exact inferInstanceAs (Forward (boundRule (rules depth) capture const))
    · intro structs
      exact inferInstanceAs (Forward (unaryRule (rules depth) structs))
    · intro operand structs base
      exact inferInstanceAs (Forward (operatorsRule (rules depth) operand structs base))
    · exact inferInstanceAs (Forward (patternRule (rules depth)))

instance (tokens : List TokenTree) : (rulesFor tokens).Forward := rules_forward _

/-! ## Items -/

-- The instance for a rule is as large as the rule; a rule with optional parts has one for each way
-- to leave them out.
set_option synthInstance.maxSize 16384

namespace Forward

variable (r : Rules) [r.Forward]

instance : Forward (innerAttributes r) := by unfold innerAttributes; infer_instance

instance (ts : List TokenTree) : Forward ((restriction? ts).getD (pure ())) := by
  unfold restriction?
  split
  · split
    · exact inferInstanceAs (Forward (discard anyGroup))
    · exact inferInstanceAs (Forward (pure ()))
  · split
    · exact inferInstanceAs (Forward (group .parenthesis _))
    · exact inferInstanceAs (Forward (pure ()))
  · exact inferInstanceAs (Forward (pure ()))

instance : Forward visibility := by unfold visibility; infer_instance
instance : Forward (generics r) := by unfold generics; infer_instance
instance : Forward (wherePredicate r) := by unfold wherePredicate; infer_instance
instance : Forward (whereClause r) := by unfold whereClause; infer_instance

instance (fields : Reader Unit) [Forward fields] (attrs : List Meta) :
    Forward (namedFieldAfter r fields attrs) := by
  unfold namedFieldAfter
  infer_instance

instance (fuel : Nat) : Forward (namedFieldsLoop r fuel) := by
  cases fuel with
  | zero => exact inferInstanceAs (Forward failure)
  | succ fuel => unfold namedFieldsLoop; infer_instance

instance : Forward (namedFields r) := by unfold namedFields; infer_instance
instance : Forward (unnamedFields r) := by unfold unnamedFields; infer_instance

instance (attrs : List Meta) : Forward (structAfter r attrs) := by
  unfold structAfter
  infer_instance

instance : Forward (enumAfter r) := by unfold enumAfter; infer_instance
instance : Forward (unionAfter r) := by unfold unionAfter; infer_instance
instance (safe : Bool) : Forward (signature r safe) := by unfold signature; infer_instance
instance (safe : Bool) : Forward (function r safe) := by unfold function; infer_instance
instance : Forward (constant r) := by unfold constant; infer_instance

instance (place : WherePlace) : Forward (typeDeclaration r place) := by
  unfold typeDeclaration
  infer_instance

instance (named : Bool) : Forward (itemMacro named) := by unfold itemMacro; infer_instance
instance (p : Reader Unit) : Forward (members r p) := by unfold members; infer_instance

instance (withAlias : Bool) : Forward (traitAfter r withAlias) := by
  unfold traitAfter
  infer_instance

instance : Forward (implementation r) := by
  have htype : Forward (do
      discard <| r.type true
      if ← word? "for" then discard <| r.type true
      discard <| whereClause r
      members r (implMember r)) := inferInstance
  unfold implementation
  infer_instance

instance : Forward (externalBlock r) := by unfold externalBlock; infer_instance
instance : Forward externCrateAfter := by unfold externCrateAfter; infer_instance
instance : Forward (moduleAfter r) := by unfold moduleAfter; infer_instance
instance (p : Reader Unit) [Forward p] : Forward (dropped p) := by unfold dropped; infer_instance
instance : Forward (staticAfter r) := by unfold staticAfter; infer_instance
instance : Forward macroDeclaration := by unfold macroDeclaration; infer_instance

instance (visible : Bool) (second : List TokenTree) : Forward (unsafeItem r visible second) := by
  unfold unsafeItem
  infer_instance

end Forward

/-- The reader of `use` trees goes forward. Trees nest without groups, as in `a::b`. -/
class Rules.UseForward (r : Rules) : Prop where
  useTree : ∀ root, Source.Forward (r.useTree root)

attribute [instance] Rules.UseForward.useTree

namespace Forward

variable (r : Rules) [r.UseForward]

instance (root : Bool) : Forward (useTreeRule r root) := by unfold useTreeRule; infer_instance

instance : Forward (useAfter r) := by
  have hlast : ∀ (absolute : Bool) (tree : Option UseTree), Forward (match tree with
      | some tree => (pure (.use absolute tree) : Reader Item)
      | none => pure .other) := by
    intro absolute tree
    cases tree with
    | none => infer_instance
    | some tree => infer_instance
  unfold useAfter
  infer_instance

instance (attrs : List Meta) [r.Forward] : Forward (itemAfter r attrs) := by
  have hlast : ∀ e : Ident × List GenericParam × Option SourceType, Forward (match e with
      | (i, params, target) => match target with
        | some target => (pure (.typeAlias i params target) : Reader Item)
        | none => pure .other) := by
    rintro ⟨i, params, target⟩
    cases target with
    | none => infer_instance
    | some target => infer_instance
  unfold itemAfter
  infer_instance

end Forward

instance rules_useForward (depth : Nat) : (rules depth).UseForward := by
  induction depth with
  | zero => exact ⟨fun _ => inferInstanceAs (Forward failure)⟩
  | succ depth ih =>
    exact ⟨fun root => inferInstanceAs (Forward (useTreeRule (rules depth) root))⟩

end Memberwise.Source
