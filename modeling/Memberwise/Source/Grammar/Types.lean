import Memberwise.Source.Grammar
import Memberwise.Source.Written

/-!
# Memberwise.Source.Grammar.Types — paths, bounds, types and generic parameters

A form that is never resolved is kept as the tokens that it took. So the rules give a function
from those tokens to the value, and the caller applies it.
-/

namespace Memberwise.Source

/-! ## Paths and their arguments -/

/-- A constant as a generic argument: a literal, a name or a block. -/
def constArgument (r : Rules) : Reader Unit := do
  if ← peek atLiteral then literal
  else if ← peek atName then discard name
  else body r

/-- Whether a constant that cannot be a type comes next. -/
def atConst (ts : List TokenTree) : Bool := atLiteral ts || atGroup .brace ts

/-- What follows the name of an associated item: a value, bounds or nothing. -/
def associatedForm (r : Rules) (t : SourceType) (name : Ident) (own : PathArguments) :
    Reader (List TokenTree → GenericArgument) := do
  if ← op? "=" then
    if ← peek atConst then
      constArgument r
      return .other
    else
      let target ← r.type true
      return fun _ => .binding name own target
  else if ← op? ":" then
    discard <| chained (fun ts => atOp "," ts || atOp ">" ts) "+" (r.bound false true)
    return .other
  else return fun _ => .type t

/-- An argument in angle brackets, as a function of the tokens that it takes. -/
def argumentForm (r : Rules) : Reader (List TokenTree → GenericArgument) := do
  if ← peek fun ts => atLifetime ts && !atOp "+" (ts.drop 1) then
    let i ← lifetime
    return fun _ => .lifetime i
  else if ← peek atConst then
    constArgument r
    return .const
  else
    match ← r.type true with
    | .path (.mk false [.mk name own]) =>
      associatedForm r (.path (.mk false [.mk name own])) name own
    | t => return fun _ => .type t

/-- An argument in angle brackets. -/
def genericArgument (r : Rules) : Reader GenericArgument := do
  let (form, tokens) ← captured (argumentForm r)
  return form tokens

/-- Arguments in angle brackets, with `::` before them or not. -/
def angleArguments (r : Rules) : Reader PathArguments :=
  printedAs PathArguments.tokens do
    let turbofish ← op? "::"
    op "<"
    let (args, trailing) ← terminated (atOp ">") "," (genericArgument r)
    op ">"
    return .angle turbofish args trailing

/-- Whether arguments in angle brackets come next. Inside an expression they need a `::`. -/
def atAngle (inExpr : Bool) (ts : List TokenTree) : Bool :=
  !inExpr && atOp "<" ts && !atOp "<=" ts && !atOp "<<=" ts || atOp "::" ts && atOp "<" (ts.drop 2)

/-- A segment of a path. -/
def pathSegment (r : Rules) (inExpr : Bool) : Reader PathSegment := do
  if ← peek (atSomeWord ["super", "self", "crate", "try"]) then return .mk (← ident) .none
  let i ← if ← peek (atWord "Self") then ident else name
  if ← peek (atAngle inExpr) then return .mk i (← angleArguments r) else return .mk i .none

/-- Whether another segment follows. A `::` before parentheses belongs to the last segment. -/
def atNextSegment (ts : List TokenTree) : Bool :=
  atOp "::" ts && !atGroup .parenthesis (ts.drop 2)

/-- A path. -/
def sourcePath (r : Rules) (inExpr : Bool) : Reader SourcePath := do
  let absolute ← op? "::"
  let first ← pathSegment r inExpr
  let rest ← many (fun ts => !atNextSegment ts) do
    op "::"
    pathSegment r inExpr
  return .mk absolute (first :: rest)

/-- What follows `<` in a qualified path, such as `T as A>::B`. -/
def qualifiedRest (r : Rules) (inExpr : Bool) : Reader Unit := do
  discard <| r.type true
  if ← word? "as" then discard <| sourcePath r false
  op ">"
  op "::"
  discard <| pathSegment r inExpr
  discard <| many (fun ts => !atOp "::" ts) do
    op "::"
    pathSegment r inExpr

/-- A path or a qualified path, of which only the former is kept. -/
def anyPath (r : Rules) (inExpr : Bool) : Reader (Option SourcePath) := do
  if ← op? "<" then
    qualifiedRest r inExpr
    return none
  else return some (← sourcePath r inExpr)

/-- Whether the exclamation mark of a macro call follows the path. -/
def atMacro (p : Option SourcePath) (ts : List TokenTree) : Bool :=
  p.any SourcePath.isPlain && atOp "!" ts && !atOp "!=" ts

/-! ## Generic parameters -/

/-- A list of lifetimes with plus signs between them, up to `stop`. -/
def lifetimeBounds (stop : List TokenTree → Bool) : Reader Unit :=
  discard <| chained stop "+" lifetime

/-- What follows the attributes of a generic parameter. -/
def paramAfter (r : Rules) : Reader GenericParam := do
  if ← peek atName then
    let i ← name
    if ← op? ":" then
      discard <| chained (fun ts => atOp "," ts || atOp ">" ts || atOp "=" ts) "+"
        (r.bound false true)
    if ← op? "=" then discard <| r.type true
    return .type i
  else if ← peek atLifetime then
    let i ← lifetime
    if ← op? ":" then lifetimeBounds fun ts => atOp "," ts || atOp ">" ts
    return .lifetime i
  else
    word "const"
    let i ← name
    op ":"
    discard <| r.type true
    if ← op? "=" then constArgument r
    return .const i

/-- A generic parameter. -/
def genericParam (r : Rules) : Reader GenericParam := do
  discard <| attributes r
  paramAfter r

/-- Generic parameters in angle brackets, if there are any. A type parameter may be `_`. -/
def generics (r : Rules) : Reader (List GenericParam) := do
  if ← op? "<" then
    let (params, _) ← terminated (atOp ">") "," do
      discard <| attributes r
      if ← peek (atWord "_") then return .type (← ident) else paramAfter r
    op ">"
    return params
  else return []

/-- The tokens of a `for<...>` binder, if there is one. -/
def binder (r : Rules) : Reader (List TokenTree) := do
  if ← peek (atWord "for") then
    let (_, tokens) ← captured do
      word "for"
      op "<"
      discard <| terminated (atOp ">") "," (genericParam r)
      op ">"
    return tokens
  else return []

/-- Whether `<` starts generic parameters and not a qualified path. -/
def choosesGenerics (ts : List TokenTree) : Bool :=
  let second := ts.drop 1
  let third := ts.drop 2
  atOp "<" ts &&
    (atOp ">" second || atOp "#" second || atWord "const" second ||
      (atLifetime second || atName second) &&
        (atOp ">" third || atOp "," third || atOp ":" third && !atOp "::" third ||
          atOp "=" third))

/-- Whether a list of conditions or of their bounds ends. -/
def atWhereEnd (ts : List TokenTree) : Bool :=
  ts.isEmpty || atGroup .brace ts || atOp "," ts || atOp ";" ts ||
    atOp ":" ts && !atOp "::" ts || atOp "=" ts

/-- A condition of a `where` clause. -/
def wherePredicate (r : Rules) : Reader Unit := do
  if ← peek fun ts => atLifetime ts && atOp ":" (ts.drop 1) then
    discard lifetime
    op ":"
    lifetimeBounds fun ts => atWhereEnd ts || atOp ":" ts
  else
    discard <| binder r
    discard <| r.type true
    op ":"
    discard <| chained atWhereEnd "+" (r.bound false true)

/-- A `where` clause, if there is one. Gives whether there is. -/
def whereClause (r : Rules) : Reader Bool := do
  if ← word? "where" then
    if ← peek choosesGenerics then failure
    discard <| chained atWhereEnd "," (wherePredicate r)
    return true
  else return false

/-! ## Bounds -/

/-- Arguments in parentheses with a result: `(A, B) -> C`. -/
def callArguments (r : Rules) : Reader PathArguments :=
  printedAs PathArguments.tokens do
    discard <| op? "::"
    let (inputs, trailing) ← group .parenthesis (commaList (r.type true))
    let output ← if ← op? "->" then some <$> r.type false else pure none
    return .call inputs trailing output

/-- Puts arguments on the last segment if it has none. -/
def withCall (call : PathArguments) : List PathSegment → List PathSegment
  | [] => []
  | [.mk i _] => [.mk i call]
  | segment :: rest => segment :: withCall call rest

/-- The path of a trait, of which the last segment may have arguments in parentheses. -/
def traitPath (r : Rules) : Reader SourcePath := do
  let p ← sourcePath r false
  let bare := p.segments.getLast?.any fun s => s.arguments.isNone
  let ts ← ahead
  if bare && (atGroup .parenthesis ts || atOp "::" ts && atGroup .parenthesis (ts.drop 2)) then
    let call ← callArguments r
    return .mk p.absolute (withCall call p.segments)
  else return p

/-- The mark `const` or `[const]` before a trait, if there is one. Gives whether there is. -/
def constMark : Reader Bool := do
  if ← peek (atGroup .bracket) then
    group .bracket (word "const")
    return true
  else word? "const"

/-- A trait as a bound. -/
def traitBound (r : Rules) (const parenthesized : Bool) :
    Reader (List TokenTree → TypeBound) := do
  let before ← binder r
  let marked ← constMark
  if marked && !const then failure
  let maybe ← op? "?"
  let after ← binder r
  -- There is one binder at most, and none beside a question mark.
  if !after.isEmpty && (maybe || !before.isEmpty) || maybe && !before.isEmpty then failure
  let p ← traitPath r
  return if marked then .other else fun _ => .trait parenthesized maybe (before ++ after) p

/-- The lifetimes and parameters that an `impl` type captures. -/
def captureList : Reader Unit := do
  word "use"
  op "<"
  discard <| terminated (atOp ">") "," do
    if ← peek atLifetime then discard lifetime
    else if ← peek (atWord "Self") then discard ident
    else discard name
  op ">"

/-- The rule for a bound. -/
def boundRule (r : Rules) (capture const : Bool) : Reader TypeBound := do
  let (form, tokens) ← captured do
    if ← peek atLifetime then
      let i ← lifetime
      return fun _ => .lifetime i
    else if ← peek (atWord "use") then
      captureList
      if capture then return .other else failure
    else if ← peek (atGroup .parenthesis) then group .parenthesis (traitBound r const true)
    else traitBound r const false
  return form tokens

/-- Whether a bound can start here. -/
def startsBound (const : Bool) (ts : List TokenTree) : Bool :=
  atIdent ts || atOp "::" ts || atOp "?" ts || atLifetime ts || atGroup .parenthesis ts ||
    const && atGroup .bracket ts

/-- The bounds after a first one, if `plus` allows them. A plus sign may end the list. -/
def furtherBounds (r : Rules) (first : TypeBound) (plus capture const : Bool) :
    Reader (List TypeBound × Bool) := do
  if plus && (← peek (atOp "+")) then
    op "+"
    let (rest, trailing) ←
      chained (fun ts => !startsBound const ts) "+" (r.bound capture const)
    return (first :: rest, rest.isEmpty || trailing)
  else return ([first], false)

/-- Bounds with plus signs between them, if `plus` allows them. -/
def bounds (r : Rules) (plus capture const : Bool) : Reader (List TypeBound × Bool) := do
  furtherBounds r (← r.bound capture const) plus capture const

/-! ## Types -/

/-- Whether a bound counts as a trait. -/
def TypeBound.isTrait : TypeBound → Bool
  | .lifetime _ => false
  | .trait .. => true
  | .other tokens => !atWord "use" tokens

/-- The bounds of a trait object, among which has to be a trait. -/
def objectBounds (r : Rules) (marked plus : Bool) : Reader SourceType := do
  let (bs, trailing) ← bounds r plus false false
  if bs.any TypeBound.isTrait then return .traitObject marked bs trailing else failure

/-- A parameter of a function pointer. The first one may be `self`. -/
def functionParam (r : Rules) (first : Bool) : Reader Unit := do
  discard <| attributes r
  let named (ts : List TokenTree) : Bool :=
    (atName ts || atWord "_" ts || first && atWord "self" ts) && atOp ":" (ts.drop 1) &&
      !atOp "::" (ts.drop 1)
  let mutableSelf (ts : List TokenTree) : Bool := atWord "mut" ts && atWord "self" (ts.drop 1)
  let hasMut := first && (← peek mutableSelf)
  if hasMut then word "mut"
  let isSelf ← peek (atWord "self")
  if ← peek named then
    discard ident
    op ":"
    if first && !isSelf && (← peek mutableSelf) then
      word "mut"
      word "self"
    else discard <| r.type true
  else if hasMut then word "self"
  else discard <| r.type true

/-- Whether `...`, perhaps after a name, ends the parameters. -/
def atVariadic (ts : List TokenTree) : Bool :=
  atOp "..." ts || (atName ts || atWord "_" ts) && atOp ":" (ts.drop 1) && atOp "..." (ts.drop 2)

/-- The end `name: ...,` of the parameters. -/
def variadic : Reader Unit := do
  if ← peek atIdent then
    discard ident
    op ":"
  op "..."
  discard <| op? ","

/-- The parameters of a function pointer, at most `fuel` of them. -/
def functionParams (r : Rules) (first : Bool) : Nat → Reader Unit
  | 0 => failure
  | fuel + 1 => do
    if ← atEnd then return
    discard <| attributes r
    if ← peek atVariadic then variadic
    else
      functionParam r first
      if ← atEnd then return
      op ","
      functionParams r false fuel

/-- The convention of a function: `extern`, perhaps with a string. -/
def convention : Reader Unit := do
  if ← word? "extern" then
    if ← peek atString then stringLiteral

/-- A function pointer. -/
def functionPointer (r : Rules) : Reader Unit := do
  discard <| word? "unsafe"
  convention
  word "fn"
  group .parenthesis do functionParams r true ((← ahead).length + 1)
  if ← op? "->" then discard <| r.type false

/-- What stands in parentheses where a type is expected. -/
inductive ParenContent where
  /-- A trait object that starts with a lifetime. -/
  | object (t : SourceType)
  /-- A bound with a question mark. -/
  | maybe (b : TypeBound)
  | tuple (elems : List SourceType) (trailing : Bool)
  | one (t : SourceType)

/-- Reads what stands in parentheses where a type is expected. -/
def parenContent (r : Rules) : Reader ParenContent := do
  if ← atEnd then return .tuple [] false
  else if ← peek atLifetime then return .object (← objectBounds r false true)
  else if ← peek (atOp "?") then return .maybe ((← traitBound r false true) [])
  else
    let first ← r.type true
    if ← op? "," then
      let (rest, trailing) ← commaList (r.type true)
      return .tuple (first :: rest) (rest.isEmpty || trailing)
    else return .one first

/-- The bound that a type in parentheses stands for. -/
def parenBound? : SourceType → Option TypeBound
  | .path p => some (.trait true false [] p)
  | .traitObject false [.trait _ maybe tokens p] false => some (.trait true maybe tokens p)
  | .traitObject false [b] false => some b
  | _ => none

/-- A trait object whose first bound is read; each plus sign has a bound after it. -/
def objectFrom (r : Rules) (first : TypeBound) : Reader SourceType := do
  let rest ← many (fun ts => !atOp "+" ts) do
    op "+"
    r.bound false false
  return .traitObject false (first :: rest) false

/-- A type that starts with a parenthesis. -/
def parenType (r : Rules) (plus : Bool) : Reader SourceType := do
  match ← group .parenthesis (parenContent r) with
  | .object t => return .paren t
  | .maybe b => objectFrom r b
  | .tuple elems trailing => return .tuple elems trailing
  | .one t =>
    if plus && (← peek (atOp "+")) then
      match parenBound? t with
      | some b => objectFrom r b
      | none => return .paren t
    else return .paren t

/-- A type that starts with a path, after the tokens of its binder. -/
def pathType (r : Rules) (plus : Bool) (bound : List TokenTree) :
    Reader (List TokenTree → SourceType) := do
  let p? ← anyPath r false
  if ← peek (atMacro p?) then
    discard macroCall
    return .other
  else
    match p? with
    | none => return .other
    | some p =>
      if !bound.isEmpty || plus && (← peek (atOp "+")) then
        let (bs, trailing) ← furtherBounds r (.trait false false bound p) plus false false
        return fun _ => .traitObject false bs trailing
      else return fun _ => .path p

/-- A type that starts with a square bracket. -/
def bracketType (r : Rules) : Reader SourceType := group .bracket do
  let elem ← r.type true
  if ← op? ";" then
    let (_, length) ← captured (expr r true)
    return .array elem length
  else return .slice elem

/-- A type that starts with `*`. -/
def pointerType (r : Rules) : Reader SourceType := do
  op "*"
  let mutable ← word? "mut"
  unless mutable do word "const"
  return .pointer mutable (← r.type false)

/-- A type that starts with `&`. -/
def referenceType (r : Rules) : Reader SourceType := do
  op "&"
  let i ← lifetime?
  let mutable ← word? "mut"
  return .reference i mutable (← r.type false)

/-- The words that start a function pointer. -/
def functionWords : List String := ["fn", "unsafe", "extern"]

/-- The rule for a type, as a function of the tokens that it takes. -/
def typeForm (r : Rules) (plus : Bool) : Reader (List TokenTree → SourceType) := do
  let bound ← binder r
  let ts ← ahead
  let named := atName ts || atSomeWord pathWords ts
  if !bound.isEmpty && !named && !atSomeWord functionWords ts then failure
  else if atGroup .parenthesis ts then
    let t ← parenType r plus
    return fun _ => t
  else if atSomeWord functionWords ts then
    functionPointer r
    return .function
  else if named || atOp "::" ts || atOp "<" ts then pathType r plus bound
  else if atWord "dyn" ts then
    word "dyn"
    let starred ← op? "*"
    let t ← objectBounds r true plus
    return if starred then .other else fun _ => t
  else if atGroup .bracket ts then
    let t ← bracketType r
    return fun _ => t
  else if atOp "*" ts then
    let t ← pointerType r
    return fun _ => t
  else if atOp "&" ts then
    let t ← referenceType r
    return fun _ => t
  else if atOp "!" ts then
    op "!"
    return fun _ => .never
  else if atWord "impl" ts then
    word "impl"
    let (bs, _) ← bounds r plus true true
    if bs.any TypeBound.isTrait then return .other else failure
  else if atWord "_" ts then
    word "_"
    return .other
  else if atLifetime ts then
    let t ← objectBounds r false true
    return fun _ => t
  else failure

/-- The rule for a type. -/
def typeRule (r : Rules) (plus : Bool) : Reader SourceType := do
  let (form, tokens) ← captured (typeForm r plus)
  return form tokens

end Memberwise.Source
