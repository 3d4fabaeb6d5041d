import Memberwise.Source.Grammar.Types

/-!
# Memberwise.Source.Grammar.Patterns — patterns

Patterns are read and dropped; only whether a pattern is a range with an open end is kept, because
such a range cannot be an element of a slice pattern.
-/

namespace Memberwise.Source

/-- Whether another alternative of a pattern follows. -/
def atAlternative (ts : List TokenTree) : Bool :=
  atOp "|" ts && !atOp "||" ts && !atOp "|=" ts

/-- A pattern with its alternatives. A leading bar is allowed. -/
def alternatives (r : Rules) : Reader PatternKind := do
  let led ← op? "|"
  let first ← r.pattern
  let rest ← many (fun ts => !atAlternative ts) do
    op "|"
    r.pattern
  return if led || !rest.isEmpty then .plain else first

/-- A block of a constant: `const` and its body. -/
def constBlock (r : Rules) : Reader Unit := do
  word "const"
  body r

/-! ## Ranges -/

/-- The operator of a range; gives whether it needs an end. The old spelling `...` is allowed if
`dots`. -/
def rangeLimits (dots : Bool) : Reader Bool := do
  if ← op? "..=" then return true
  else if ← peek (atOp "...") then
    if dots then op "..."; return true else failure
  else
    op ".."
    return false

/-- Whether the end of a range is left out. -/
def atOpenEnd (ts : List TokenTree) : Bool :=
  ts.isEmpty || atOp "|" ts || atOp "=" ts || atOp ":" ts && !atOp "::" ts || atOp "," ts ||
    atOp ";" ts || atWord "if" ts

/-- One end of a range. -/
def rangeEnd (r : Rules) : Reader Unit := do
  let ts ← ahead
  if atLiteral ts then literal
  else if atName ts || atOp "::" ts || atOp "<" ts || atSomeWord pathWords ts then
    discard <| anyPath r true
  else constBlock r

/-- The rest of a range whose start is read. -/
def rangeAfter (r : Rules) : Reader PatternKind := do
  let closed ← rangeLimits true
  if ← peek atOpenEnd then
    if closed then failure else return .openRange
  else
    rangeEnd r
    return .plain

/-- A range without a start, or the rest `..` of a tuple or slice. -/
def rangeWithoutStart (r : Rules) : Reader PatternKind := do
  let closed ← rangeLimits false
  if ← peek atOpenEnd then
    if closed then failure else return .plain
  else
    rangeEnd r
    return .openRange

/-! ## Structs, tuples and slices -/

/-- Whether a literal is an index: a whole number without suffix that fits in 32 bits. -/
def isIndexText (text : String) : Bool :=
  match text.toNat? with
  | some n => decide (n < 4294967296)
  | none => false

/-- Whether the index of a tuple field comes next. -/
def atIndex : List TokenTree → Bool
  | .literal text :: _ => isIndexText text
  | _ => false

/-- A field of a struct pattern. -/
def fieldPattern (r : Rules) : Reader Unit := do
  let boxed ← word? "box"
  let byRef ← word? "ref"
  let mutable ← word? "mut"
  if boxed || byRef || mutable then discard name
  else if ← peek atIndex then
    literal
    op ":"
    discard <| alternatives r
  else
    discard name
    if ← op? ":" then discard <| alternatives r

/-- The fields of a struct pattern, at most `fuel` of them. -/
def fieldPatterns (r : Rules) : Nat → Reader Unit
  | 0 => failure
  | fuel + 1 => do
    if ← atEnd then return
    discard <| attributes r
    if ← op? ".." then return
    fieldPattern r
    if ← atEnd then return
    op ","
    fieldPatterns r fuel

/-- A pattern that starts with a path. -/
def pathPattern (r : Rules) : Reader PatternKind := do
  let p ← anyPath r true
  let ts ← ahead
  if atMacro p ts then
    discard macroCall
    return .plain
  else if atGroup .brace ts then
    group .brace do fieldPatterns r ((← ahead).length + 1)
    return .plain
  else if atGroup .parenthesis ts then
    discard <| group .parenthesis (commaList (alternatives r))
    return .plain
  else if atOp ".." ts then rangeAfter r
  else return .plain

/-- A pattern that names what it matches. -/
def namePattern (r : Rules) : Reader PatternKind := do
  discard <| word? "ref"
  discard <| word? "mut"
  if ← peek (atWord "self") then discard ident else discard name
  if ← op? "@" then discard r.pattern
  return .plain

/-- A slice pattern, whose elements are no ranges with an open end. -/
def slicePattern (r : Rules) : Reader PatternKind := do
  discard <| group .bracket <| commaList do
    if (← alternatives r) = .openRange then failure
  return .plain

/-- Whether the path of a pattern comes next and not a name alone. -/
def atPathPattern (ts : List TokenTree) : Bool :=
  let second := ts.drop 1
  atName ts && (atOp "::" second || atOp "!" second || atGroup .brace second ||
      atGroup .parenthesis second || atOp ".." second) ||
    atWord "self" ts && atOp "::" second || atOp "::" ts || atOp "<" ts ||
    atSomeWord ["Self", "super", "crate"] ts

/-- The rule for a pattern without alternatives. -/
def patternRule (r : Rules) : Reader PatternKind := do
  let ts ← ahead
  if atPathPattern ts then pathPattern r
  else if atWord "_" ts then
    word "_"
    return .plain
  else if atWord "box" ts then
    word "box"
    discard r.pattern
    return .plain
  else if atOp "-" ts || atLiteral ts || atWord "const" ts then
    rangeEnd r
    if ← peek (atOp "..") then rangeAfter r else return .plain
  else if atSomeWord ["ref", "mut", "self"] ts || atName ts then namePattern r
  else if atOp "&" ts then
    op "&"
    discard <| word? "mut"
    discard r.pattern
    return .plain
  else if atGroup .parenthesis ts then
    discard <| group .parenthesis (commaList (alternatives r))
    return .plain
  else if atGroup .bracket ts then slicePattern r
  else if atOp ".." ts && !atOp "..." ts then rangeWithoutStart r
  else failure

end Memberwise.Source
