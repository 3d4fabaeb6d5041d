import Memberwise.Source.Reader

/-!
# Memberwise.Source.Grammar — the nonterminals of the language

The grammar is recursive: types hold expressions, expressions hold statements, statements hold
items, and items hold types. Each rule is written as a reader that takes the readers of the
nonterminals as an argument; the loop is closed once, in `Memberwise.Source.Parse`, with a bound on
the depth of nesting.
-/

namespace Memberwise.Source

/-- What the rules for the rest of an expression or statement need to know of an expression. -/
inductive ExprKind where
  /-- A range, which takes no operator after it. -/
  | range
  /-- A comparison, which takes no comparison after it. -/
  | comparison
  /-- A block, branch or loop, which ends a statement or match arm by itself. -/
  | block
  /-- A macro call in braces, which ends a statement by itself. -/
  | bracedMacro
  | plain
deriving DecidableEq

/-- What the rules for slices need to know of a pattern. -/
inductive PatternKind where
  /-- A range without one of its ends. -/
  | openRange
  | plain
deriving DecidableEq

/-- The readers of the nonterminals. -/
structure Rules where
  /-- A type; `plus` allows `A + B`. -/
  type (plus : Bool) : Reader SourceType
  /-- A bound; `capture` allows `use<...>`, `const` allows a leading `const` or `[const]`. -/
  bound (capture const : Bool) : Reader TypeBound
  /-- An operand with its leading operators; `structs` allows struct literals. -/
  unary (structs : Bool) : Reader ExprKind
  /-- The operators, of precedence `base` and above, that follow an operand. -/
  operators (operand : ExprKind) (structs : Bool) (base : Nat) : Reader ExprKind
  /-- An expression as a statement or match arm: a block goes on only with a member or a question
  mark. -/
  bounded : Reader ExprKind
  /-- A pattern without alternatives. -/
  pattern : Reader PatternKind
  /-- The content of a block. -/
  statements : Reader Unit
  /-- The content of a module. -/
  items : Reader (List Item)
  /-- The tree of a `use` declaration; `root` allows `::` inside its groups. The declaration of a
  tree with such a `::` is left out. -/
  useTree (root : Bool) : Reader (Option UseTree)

/-- The readers that read nothing. -/
def Rules.none : Rules where
  type _ := failure
  bound _ _ := failure
  unary _ := failure
  operators _ _ _ := failure
  bounded := failure
  pattern := failure
  statements := failure
  items := failure
  useTree _ := failure

/-- An expression; `structs` allows struct literals. -/
def expr (r : Rules) (structs : Bool) : Reader ExprKind := do
  let operand ← r.unary structs
  r.operators operand structs 0

/-! ## Plain paths and attributes -/

/-- A path whose segments have no arguments. -/
def plainPath : Reader SourcePath := do
  let absolute ← op? "::"
  let segments ← segmentsLoop ((← ahead).length + 1)
  return .mk absolute segments
where
  /-- The segments, at most `fuel` of them. -/
  segmentsLoop : Nat → Reader (List PathSegment)
    | 0 => failure
    | fuel + 1 => do
      if ← peek fun ts => atName ts || atSomeWord pathWords ts then
        let segment := PathSegment.mk (← ident) .none
        if ← op? "::" then return segment :: (← segmentsLoop fuel) else return [segment]
      else failure

/-- What follows the path of an attribute. -/
def metaAfter (r : Rules) (p : SourcePath) : Reader Meta := do
  match ← ahead with
  | .group _ body :: _ => discard anyGroup; return .list p body
  | ts =>
    if atOp "=" ts then
      op "="
      -- An attribute cannot stand inside an attribute.
      if ← peek fun ts => atOp "#" ts && atGroup .bracket (ts.drop 1) then failure
      let (_, value) ← captured (expr r true)
      return .nameValue p value
    else return .path p

/-- The content of an attribute. -/
def metaItem (r : Rules) : Reader Meta := do
  if ← peek (atWord "unsafe") then metaAfter r (.mk false [.mk (← ident) .none])
  else metaAfter r (← plainPath)

/-- The attributes before an item. -/
def attributes (r : Rules) : Reader (List Meta) :=
  many (fun ts => !atOp "#" ts) do
    op "#"
    group .bracket (metaItem r)

/-- The attributes at the start of a block or file, which describe what is around them. -/
def innerAttributes (r : Rules) : Reader Unit :=
  discard <| many (fun ts => !(atOp "#" ts && atOp "!" (ts.drop 1))) do
    op "#"
    op "!"
    group .bracket (metaItem r)

/-- A group in braces with the content of a block, after its inner attributes. -/
def body (r : Rules) : Reader Unit := group .brace do
  innerAttributes r
  r.statements

/-- A block without inner attributes. -/
def plainBlock (r : Rules) : Reader Unit := group .brace r.statements

/-- A macro call, from its exclamation mark on; gives the brackets. -/
def macroCall : Reader Delimiter := do
  op "!"
  return (← anyGroup).1

end Memberwise.Source
