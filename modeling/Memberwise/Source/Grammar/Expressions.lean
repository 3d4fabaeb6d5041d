import Memberwise.Source.Grammar.Patterns

/-!
# Memberwise.Source.Grammar.Expressions — expressions

An expression is an operand followed by operators of falling precedence. Expressions are read for
their extent only: what is kept of one is its kind, which decides what may follow it.
-/

namespace Memberwise.Source

/-! ## Operators -/

/-- How tightly operators bind, from assignment to `as`. -/
def assignPrecedence : Nat := 1

@[inherit_doc assignPrecedence]
def rangePrecedence : Nat := 2

@[inherit_doc assignPrecedence]
def comparePrecedence : Nat := 6

@[inherit_doc assignPrecedence]
def castPrecedence : Nat := 13

/-- The binary operators with their precedence; an operator stands before its own beginnings. -/
def binaryOperators : List (String × Nat) :=
  [("+=", 1), ("-=", 1), ("*=", 1), ("/=", 1), ("%=", 1), ("^=", 1), ("&=", 1), ("|=", 1),
   ("<<=", 1), (">>=", 1), ("&&", 4), ("||", 3), ("<<", 10), (">>", 10), ("==", 6), ("<=", 6),
   ("!=", 6), (">=", 6), ("+", 11), ("-", 11), ("*", 12), ("/", 12), ("%", 12), ("^", 8),
   ("&", 9), ("|", 7), ("<", 6), (">", 6)]

/-- The binary operator that comes next. -/
def binaryOperator? (ts : List TokenTree) : Option (String × Nat) :=
  binaryOperators.find? fun (text, _) => atOp text ts

/-- Whether an assignment comes next. -/
def atAssign (ts : List TokenTree) : Bool := atOp "=" ts && !atOp "=>" ts

/-- The precedence of what comes next; zero if no operator does. -/
def precedenceAhead (ts : List TokenTree) : Nat :=
  match binaryOperator? ts with
  | some (_, precedence) => precedence
  | none =>
    if atAssign ts then assignPrecedence
    else if atOp ".." ts then rangePrecedence
    else if atWord "as" ts then castPrecedence
    else 0

/-- The operators that bind tighter than `precedence` after a right operand, at most `fuel` runs
of them. -/
def rightLoop (r : Rules) (structs : Bool) (precedence : Nat) (operand : ExprKind) :
    Nat → Reader ExprKind
  | 0 => failure
  | fuel + 1 => do
    let ts ← ahead
    let next := precedenceAhead ts
    if precedence < next || next = precedence && precedence = assignPrecedence then
      let kind ← r.operators operand structs next
      -- A range takes no operator, and then nothing is read.
      if (← ahead).length = ts.length then return kind
      else rightLoop r structs precedence kind fuel
    else return operand

/-- The right operand of an operator. -/
def rightOperand (r : Rules) (structs : Bool) (precedence : Nat) : Reader ExprKind := do
  let operand ← r.unary structs
  rightLoop r structs precedence operand ((← ahead).length + 1)

/-- The operators before which a range ends. -/
def rangeStops : List String :=
  [",", ";", "?", "=>", "=", "+", "/", "%", "^", ">", "<=", "!=", "-=", "*=", "&=", "|=", "<<="]

/-- The end of a range, if there is one. -/
def rangeEndExpr (r : Rules) (structs closed : Bool) : Reader Unit := do
  let ts ← ahead
  let stops := ts.isEmpty || rangeStops.any (atOp · ts) || atOp "." ts && !atOp ".." ts ||
    !structs && atGroup .brace ts || atWord "as" ts
  if closed || !stops then discard <| rightOperand r structs rangePrecedence

/-- Whether a cast is followed by something that cannot follow a cast. -/
def atCastFault (ts : List TokenTree) : Bool :=
  atOp "." ts && !atOp ".." ts || atOp "?" ts || atGroup .bracket ts || atGroup .parenthesis ts

/-- The operators of precedence `base` and above after an operand, at most `fuel` of them. -/
def operatorLoop (r : Rules) (structs : Bool) (base : Nat) (operand : ExprKind) :
    Nat → Reader ExprKind
  | 0 => failure
  | fuel + 1 => do
    let ts ← ahead
    if operand = .range then return operand
    match binaryOperator? ts with
    | some (text, precedence) =>
      if precedence < base then return operand
      if precedence = comparePrecedence && operand = .comparison then failure
      op text
      discard <| rightOperand r structs precedence
      let kind := if precedence = comparePrecedence then ExprKind.comparison else .plain
      operatorLoop r structs base kind fuel
    | none =>
      if base ≤ assignPrecedence && atAssign ts then
        op "="
        discard <| rightOperand r structs assignPrecedence
        operatorLoop r structs base .plain fuel
      else if base ≤ rangePrecedence && atOp ".." ts then
        let closed ← rangeLimits false
        rangeEndExpr r structs closed
        operatorLoop r structs base .range fuel
      else if base ≤ castPrecedence && atWord "as" ts then
        word "as"
        discard <| r.type false
        if ← peek atCastFault then failure
        operatorLoop r structs base .plain fuel
      else return operand

/-- The rule for the operators after an operand. -/
def operatorsRule (r : Rules) (operand : ExprKind) (structs : Bool) (base : Nat) :
    Reader ExprKind := do
  operatorLoop r structs base operand ((← ahead).length + 1)

/-! ## Calls, fields and indexes -/

/-- Arguments of a call. -/
def callValues (r : Rules) : Reader Unit :=
  discard <| group .parenthesis (commaList (expr r true))

/-- The indexes in a number such as `0.1`, which stands for two fields, and whether it ends in a
point. -/
def indexPair? (text : String) : Option (List String × Bool) :=
  let parts := (Text.splitAt (· == '.') text.toList).map String.ofList
  if parts.length < 2 || !isNumberText text then none
  else if parts.getLast? = some "" then some (parts.dropLast, true)
  else some (parts, false)

/-- A number after a point: it stands for one field or several. Gives whether the name of another
field has to follow. -/
def indexFields (text : String) (rest : List TokenTree) : Reader Bool :=
  match indexPair? text with
  | some (parts, open_) =>
    if parts.all isIndexText then do
      advance (separate (TokenTree.operator ".") open_ (parts.map fun part => [.literal part])) rest
      return open_
    else failure
  | none =>
    if isIndexText text then do
      advance [.literal text] rest
      return false
    else failure

/-- A field or method by name, after the point. -/
def namedMember (r : Rules) : Reader Unit := do
  if ← word? "await" then return
  discard name
  if ← peek (atOp "::") then
    discard <| angleArguments r
    callValues r
  else if ← peek (atGroup .parenthesis) then callValues r

/-- A member after the point. -/
def member (r : Rules) : Reader Unit := do
  match ← ahead with
  | .literal text :: rest =>
    if ← indexFields text rest then
      match ← ahead with
      | .literal text :: rest => if ← indexFields text rest then failure
      | _ => namedMember r
  | _ => namedMember r

/-- Whether a field or method follows. -/
def atMember (ts : List TokenTree) : Bool := atOp "." ts && !atOp ".." ts

/-- The calls, members, indexes and question marks after an operand, at most `fuel` of them. -/
def trailerLoop (r : Rules) (operand : ExprKind) : Nat → Reader ExprKind
  | 0 => failure
  | fuel + 1 => do
    let ts ← ahead
    if atGroup .parenthesis ts then
      callValues r
      trailerLoop r .plain fuel
    else if atMember ts && operand != .range then
      op "."
      member r
      trailerLoop r .plain fuel
    else if atGroup .bracket ts then
      discard <| group .bracket (expr r true)
      trailerLoop r .plain fuel
    else if atOp "?" ts && operand != .range then
      op "?"
      trailerLoop r .plain fuel
    else return operand

/-- What follows an operand. -/
def trailers (r : Rules) (operand : ExprKind) : Reader ExprKind := do
  trailerLoop r operand ((← ahead).length + 1)

/-! ## Branches and loops -/

/-- The branches of an `if`, at most `fuel` of them. -/
def ifLoop (r : Rules) : Nat → Reader Unit
  | 0 => failure
  | fuel + 1 => do
    word "if"
    discard <| expr r false
    plainBlock r
    if ← word? "else" then
      if ← peek (atWord "if") then ifLoop r fuel else plainBlock r

/-- An `if` with its branches. -/
def ifExpr (r : Rules) : Reader Unit := do ifLoop r ((← ahead).length + 1)

/-- A `while` loop. -/
def whileExpr (r : Rules) : Reader Unit := do
  word "while"
  discard <| expr r false
  body r

/-- A `for` loop. -/
def forExpr (r : Rules) : Reader Unit := do
  word "for"
  discard <| alternatives r
  word "in"
  discard <| expr r false
  body r

/-- A block after a word, such as `loop` or `unsafe`. -/
def wordBlock (r : Rules) (text : String) : Reader Unit := do
  word text
  body r

/-- Whether `for` starts a binder and not a loop. -/
def atClosureBinder (ts : List TokenTree) : Bool := atWord "for" ts && choosesGenerics (ts.drop 1)

/-- A loop or block after its label. -/
def labeled (r : Rules) : Reader Unit := do
  discard lifetime
  op ":"
  let ts ← ahead
  if atWord "while" ts then whileExpr r
  else if atWord "for" ts then forExpr r
  else if atWord "loop" ts then wordBlock r "loop"
  else body r

/-- The arms of a `match`, at most `fuel` of them. Only a block needs no comma after it. -/
def armLoop (r : Rules) : Nat → Reader Unit
  | 0 => failure
  | fuel + 1 => do
    if ← atEnd then return
    discard <| attributes r
    discard <| alternatives r
    if ← word? "if" then discard <| expr r true
    op "=>"
    let kind ← r.bounded
    if kind != .block && !(← atEnd) then op "," else discard <| op? ","
    armLoop r fuel

/-- A `match` with its arms. -/
def matchExpr (r : Rules) : Reader Unit := do
  word "match"
  discard <| expr r false
  group .brace do
    innerAttributes r
    armLoop r ((← ahead).length + 1)

/-- Whether `try` starts a block. -/
def atTryBlock (ts : List TokenTree) : Bool := atWord "try" ts && atGroup .brace (ts.drop 1)

/-- The block, branch or loop that comes next, if one does. -/
def blockExpr? (r : Rules) (ts : List TokenTree) : Option (Reader Unit) :=
  if atWord "if" ts then some (ifExpr r)
  else if atWord "while" ts then some (whileExpr r)
  else if atWord "for" ts && !atClosureBinder ts then some (forExpr r)
  else if atWord "loop" ts then some (wordBlock r "loop")
  else if atWord "match" ts then some (matchExpr r)
  else if atTryBlock ts then some do
    word "try"
    plainBlock r
  else if atWord "unsafe" ts then some (wordBlock r "unsafe")
  else if atWord "const" ts && atGroup .brace (ts.drop 1) then some (constBlock r)
  else if atGroup .brace ts then some (body r)
  else if atLifetime ts then some (labeled r)
  else none

/-- The rule for an expression as a statement or match arm. -/
def boundedRule (r : Rules) : Reader ExprKind := do
  discard <| attributes r
  match blockExpr? r (← ahead) with
  | some block =>
    block
    if ← peek fun ts => atMember ts || atOp "?" ts then
      let kind ← trailers r .block
      r.operators kind true 0
    else return .block
  | none =>
    let kind ← r.unary true
    if kind = .block then return kind else r.operators kind true 0

/-! ## Closures and struct literals -/

/-- The parameters and body of a closure. -/
def closure (r : Rules) (structs : Bool) : Reader Unit := do
  discard <| binder r
  for text in ["const", "static", "async", "move"] do discard <| word? text
  op "|"
  discard <| terminated (atOp "|") "," do
    discard <| attributes r
    discard r.pattern
    if ← op? ":" then discard <| r.type true
  op "|"
  if ← op? "->" then
    discard <| r.type true
    plainBlock r
  else discard <| expr r structs

/-- A field of a struct literal. -/
def fieldValue (r : Rules) : Reader Unit := do
  discard <| attributes r
  if ← peek atIndex then
    literal
    op ":"
    discard <| expr r true
  else
    discard name
    if ← op? ":" then discard <| expr r true

/-- The fields of a struct literal, at most `fuel` of them. -/
def fieldValues (r : Rules) : Nat → Reader Unit
  | 0 => failure
  | fuel + 1 => do
    if ← atEnd then return
    if ← op? ".." then
      unless ← atEnd do discard <| expr r true
    else
      fieldValue r
      if ← atEnd then return
      op ","
      fieldValues r fuel

/-- An expression that starts with a path: a macro call, a struct literal or the path alone. -/
def pathExpr (r : Rules) (structs : Bool) : Reader ExprKind := do
  let p ← anyPath r true
  let ts ← ahead
  if atMacro p ts then
    return if (← macroCall) = .brace then .bracedMacro else .plain
  else if structs && atGroup .brace ts then
    group .brace do fieldValues r ((← ahead).length + 1)
    return .plain
  else return .plain

/-! ## Operands -/

/-- Whether an expression can start here. -/
def startsExpr (ts : List TokenTree) : Bool :=
  atIdent ts || atGroup .parenthesis ts || atGroup .bracket ts || atGroup .brace ts ||
    atLiteral ts || atOp "!" ts && !atOp "!=" ts || atOp "-" ts && !atOp "-=" ts && !atOp "->" ts ||
    atOp "*" ts && !atOp "*=" ts || atOp "|" ts && !atOp "|=" ts || atOp "&" ts && !atOp "&=" ts ||
    atOp ".." ts || atOp "<" ts && !atOp "<=" ts && !atOp "<<=" ts || atOp "::" ts ||
    atLifetime ts || atOp "#" ts

/-- The value after `return`, `yield` or `break`, if there is one. -/
def optionalValue (r : Rules) : Reader Unit := do
  if ← peek startsExpr then discard <| expr r true

/-- A `break` with its label and value. -/
def breakExpr (r : Rules) (structs : Bool) : Reader Unit := do
  word "break"
  if (← lifetime?).isSome && (← peek (atOp ":")) then failure
  if structs || !(← peek (atGroup .brace)) then optionalValue r

/-- A condition `let pattern = value`. -/
def letExpr (r : Rules) (structs : Bool) : Reader Unit := do
  word "let"
  discard <| alternatives r
  op "="
  let operand ← r.unary structs
  discard <| r.operators operand structs comparePrecedence

/-- Elements in parentheses: an expression, a tuple or nothing. -/
def parenExpr (r : Rules) : Reader Unit :=
  discard <| group .parenthesis (commaList (expr r true))

/-- Elements in square brackets, or one element and how often it is repeated. -/
def bracketExpr (r : Rules) : Reader Unit := group .bracket do
  if ← atEnd then return
  discard <| expr r true
  if ← op? ";" then discard <| expr r true
  else if ← op? "," then discard <| commaList (expr r true)

/-- Whether a closure comes next. -/
def atClosure (ts : List TokenTree) : Bool :=
  let second := ts.drop 1
  atOp "|" ts || atWord "move" ts || atClosureBinder ts ||
    atWord "const" ts && !atGroup .brace second || atWord "static" ts ||
    atWord "async" ts && (atOp "|" second || atWord "move" second)

/-- Whether an `async` block comes next. -/
def atAsyncBlock (ts : List TokenTree) : Bool :=
  atWord "async" ts && (atGroup .brace (ts.drop 1) ||
    atWord "move" (ts.drop 1) && atGroup .brace (ts.drop 2))

/-- Whether a path comes next. The word `try` can be a macro or a module. -/
def atPath (ts : List TokenTree) : Bool :=
  atName ts || atOp "::" ts || atOp "<" ts || atSomeWord pathWords ts ||
    atWord "try" ts && (atOp "!" (ts.drop 1) || atOp "::" (ts.drop 1))

/-- An operand that starts with a word of its own, if one comes next. -/
def wordExpr? (r : Rules) (structs : Bool) (ts : List TokenTree) : Option (Reader Unit) :=
  if atWord "break" ts then some (breakExpr r structs)
  else if atWord "continue" ts then some do
    word "continue"
    discard lifetime?
  else if atWord "return" ts then some do
    word "return"
    optionalValue r
  else if atWord "yield" ts then some do
    word "yield"
    optionalValue r
  else if atWord "become" ts then some do
    word "become"
    discard <| expr r true
  else if atWord "let" ts then some (letExpr r structs)
  else if atWord "_" ts then some (word "_")
  else none

/-- An operand without its leading operators and what follows it. -/
def operand (r : Rules) (structs : Bool) : Reader ExprKind := do
  let ts ← ahead
  let plain (p : Reader Unit) : Reader ExprKind := do
    p
    return .plain
  if atLiteral ts then plain literal
  else if atAsyncBlock ts then plain do
    word "async"
    discard <| word? "move"
    plainBlock r
  else if atClosure ts then plain (closure r structs)
  else if atWord "builtin" ts && atOp "#" (ts.drop 1) then plain do
    word "builtin"
    op "#"
    discard name
    if (← anyGroup).1 != .parenthesis then failure
  else if atPath ts then pathExpr r structs
  else if atGroup .parenthesis ts then plain (parenExpr r)
  else if atGroup .bracket ts then plain (bracketExpr r)
  else if atOp ".." ts then
    rangeEndExpr r structs (← rangeLimits false)
    return .range
  else
    match wordExpr? r structs ts, blockExpr? r ts with
    | some p, _ => plain p
    | none, some p =>
      p
      return .block
    | none, none => failure

/-- The rule for an operand with its leading operators. -/
def unaryRule (r : Rules) (structs : Bool) : Reader ExprKind := do
  let marks ← attributes r
  let ts ← ahead
  if atOp "&" ts then
    op "&"
    if ← peek fun ts => atWord "raw" ts && atSomeWord ["mut", "const"] (ts.drop 1) then
      word "raw"
      unless ← word? "mut" do word "const"
    else discard <| word? "mut"
    discard <| r.unary structs
    return .plain
  else if atOp "*" ts || atOp "!" ts || atOp "-" ts then
    op (if atOp "*" ts then "*" else if atOp "!" ts then "!" else "-")
    discard <| r.unary structs
    return .plain
  else
    let kind ← trailers r (← operand r structs)
    -- A range without a start has no attributes.
    if kind = .range && !marks.isEmpty then failure
    return kind

end Memberwise.Source
