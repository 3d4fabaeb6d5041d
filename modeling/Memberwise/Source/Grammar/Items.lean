import Memberwise.Source.Grammar.Expressions

/-!
# Memberwise.Source.Grammar.Items — items and statements

Of items, only what declares or imports a type is kept: structs, enums, unions, traits, type
aliases, modules, `use` declarations and external crates. Functions, implementations, constants
and macros are read for their extent.
-/

namespace Memberwise.Source

/-! ## Visibility and fields -/

/-- Whether the group after `pub` restricts the visibility. A tuple field may start with the same
words. -/
def restriction? : List TokenTree → Option (Reader Unit)
  | .group .parenthesis [.ident i] :: _ =>
    if ["crate", "self", "super"].any i.isWord then some (discard anyGroup) else none
  | .group .parenthesis (.ident i :: _) :: _ =>
    if i.isWord "in" then some (group .parenthesis (word "in" *> discard plainPath)) else none
  | _ => none

/-- A visibility, perhaps empty. Gives whether it is not empty. -/
def visibility : Reader Bool := do
  if ← word? "pub" then
    (restriction? (← ahead)).getD (pure ())
    return true
  else return false

/-- A field with a name. The name `_` may have a struct or union without name as its type; what
follows is then no type, and the field is not kept. -/
def namedFieldAfter (r : Rules) (fields : Reader Unit) (attrs : List Meta) : Reader Field := do
  discard visibility
  let anonymous ← peek (atWord "_")
  let i ← if anonymous then ident else name
  op ":"
  if anonymous && (← peek fun ts => atWord "struct" ts ||
      atWord "union" ts && atGroup .brace (ts.drop 1)) then
    let (_, tokens) ← captured do
      discard ident
      fields
    return ⟨attrs, some i, .other tokens⟩
  else return ⟨attrs, some i, ← r.type true⟩

/-- Fields in braces, nested at most `fuel` deep. -/
def namedFieldsLoop (r : Rules) : Nat → Reader (List Field)
  | 0 => failure
  | fuel + 1 => do
    let (fields, _) ← group .brace <| commaList do
      let attrs ← attributes r
      namedFieldAfter r (discard <| namedFieldsLoop r fuel) attrs
    return fields

/-- Fields in braces. -/
def namedFields (r : Rules) : Reader (List Field) := do
  namedFieldsLoop r (TokenTree.sizeAll ((← ahead).take 1) + 1)

/-- Fields in parentheses. -/
def unnamedFields (r : Rules) : Reader (List Field) := do
  let (fields, _) ← group .parenthesis <| commaList do
    let attrs ← attributes r
    discard visibility
    return ⟨attrs, none, ← r.type true⟩
  return fields

/-! ## Structs, enums and unions -/

/-- A struct after its attributes and visibility. -/
def structAfter (r : Rules) (attrs : List Meta) : Reader StructItem := do
  word "struct"
  let i ← name
  let params ← generics r
  let conditions ← whereClause r
  let ts ← ahead
  if !conditions && atGroup .parenthesis ts then
    let fields ← unnamedFields r
    discard <| whereClause r
    op ";"
    return ⟨attrs, i, params, .unnamed fields⟩
  else if atGroup .brace ts then return ⟨attrs, i, params, .named (← namedFields r)⟩
  else
    op ";"
    return ⟨attrs, i, params, .unit⟩

/-- A variant of an enum. -/
def variant (r : Rules) : Reader Unit := do
  discard <| attributes r
  discard visibility
  discard name
  let ts ← ahead
  if atGroup .brace ts then discard <| namedFields r
  else if atGroup .parenthesis ts then discard <| unnamedFields r
  if ← op? "=" then discard <| expr r true

/-- An enum after its attributes and visibility; gives its name. -/
def enumAfter (r : Rules) : Reader Ident := do
  word "enum"
  let i ← name
  discard <| generics r
  discard <| whereClause r
  discard <| group .brace (commaList (variant r))
  return i

/-- A union after its attributes and visibility; gives its name. -/
def unionAfter (r : Rules) : Reader Ident := do
  word "union"
  let i ← name
  discard <| generics r
  discard <| whereClause r
  discard <| namedFields r
  return i

/-! ## Functions -/

/-- What is left after the word, if it comes next. -/
def skipWord (text : String) (ts : List TokenTree) : List TokenTree :=
  if atWord text ts then ts.drop 1 else ts

/-- Whether the head of a function comes next; `safe` allows the word `safe`. -/
def atSignature (safe : Bool) (ts : List TokenTree) : Bool :=
  let ts := skipWord "async" (skipWord "const" ts)
  let ts := if safe && atWord "safe" ts then ts.drop 1 else skipWord "unsafe" ts
  let ts := if atWord "extern" ts then
      let after := ts.drop 1
      if atString after then after.drop 1 else after
    else ts
  atWord "fn" ts

/-- The parameter `self` of a method. -/
def receiver (r : Rules) : Reader Unit := do
  let byRef ← op? "&"
  if byRef then discard lifetime?
  discard <| word? "mut"
  word "self"
  if !byRef && (← peek (atOp ":")) then
    op ":"
    discard <| r.type true

/-- A parameter of a function: its pattern and type, or a type alone. Gives whether `...` stands
in place of the type. -/
def typedParam (r : Rules) : Reader Bool := do
  if ← peek fun ts => atName ts && atOp "<" (ts.drop 1) then
    discard <| r.type true
    return false
  else
    discard r.pattern
    op ":"
    if ← op? "..." then return true
    else
      discard <| r.type true
      return false

/-- The comma after `...`, which ends the parameters. -/
def variadicEnd : Reader Unit := do
  unless ← atEnd do op ","

/-- The parameters of a function, at most `fuel` of them. Only the first can be `self`. -/
def paramLoop (r : Rules) (first : Bool) : Nat → Reader Unit
  | 0 => failure
  | fuel + 1 => do
    if ← atEnd then return
    discard <| attributes r
    if ← op? "..." then variadicEnd
    else
      let method ← (receiver r *> pure true) <|> pure false
      if method && !first then failure
      let ended ← if method then pure false else typedParam r
      if ended then variadicEnd
      else
        if ← atEnd then return
        op ","
        paramLoop r false fuel

/-- The head of a function, up to its body. -/
def signature (r : Rules) (safe : Bool) : Reader Unit := do
  discard <| word? "const"
  discard <| word? "async"
  if safe && (← peek (atWord "safe")) then word "safe" else discard <| word? "unsafe"
  convention
  word "fn"
  discard name
  discard <| generics r
  group .parenthesis do paramLoop r true ((← ahead).length + 1)
  if ← op? "->" then discard <| r.type true
  discard <| whereClause r

/-- A function, whose body may be left out. -/
def function (r : Rules) (safe : Bool) : Reader Unit := do
  signature r safe
  unless ← op? ";" do body r

/-! ## Constants and associated types -/

/-- A constant after its attributes and visibility. -/
def constant (r : Rules) : Reader Unit := do
  word "const"
  if ← peek (atWord "_") then discard ident else discard name
  discard <| generics r
  op ":"
  discard <| r.type true
  if ← op? "=" then discard <| expr r true
  discard <| whereClause r
  op ";"

/-- Where a type declaration can have its conditions. -/
structure WherePlace where
  beforeEq : Bool
  afterEq : Bool

/-- A type declaration after its visibility: name, parameters and target. Bounds make the target
none. -/
def typeDeclaration (r : Rules) (place : WherePlace) :
    Reader (Ident × List GenericParam × Option SourceType) := do
  word "type"
  let i ← name
  let params ← generics r
  let bounded ← op? ":"
  if bounded then
    discard <| terminated (fun ts => atWord "where" ts || atOp "=" ts || atOp ";" ts) "+"
      (r.bound false true)
  let early ← if place.beforeEq then whereClause r else pure false
  let target ← if ← op? "=" then some <$> r.type true else pure none
  if place.afterEq && !early then discard <| whereClause r
  op ";"
  return (i, params, if bounded then none else target)

/-- A macro call as an item, after its path: it ends with a semicolon unless it is in braces. -/
def itemMacro (named : Bool) : Reader Unit := do
  discard plainPath
  op "!"
  if named && (← peek fun ts => atName ts || atWord "try" ts) then discard ident
  if (← anyGroup).1 != .brace then op ";"

/-- Whether a macro call can come next where an item is expected. -/
def atItemMacro (ts : List TokenTree) : Bool :=
  atName ts || atSomeWord ["self", "super", "crate"] ts || atOp "::" ts

/-! ## Traits, implementations and external blocks -/

/-- An item of a trait. -/
def traitMember (r : Rules) : Reader Unit := do
  discard <| attributes r
  let visible ← visibility
  let default ← word? "default"
  let ts ← ahead
  if atSignature false ts then function r false
  else if atWord "const" ts then constant r
  else if atWord "type" ts then discard <| typeDeclaration r ⟨false, true⟩
  else if !visible && !default && atItemMacro ts then itemMacro false
  else failure

/-- An item of an implementation. -/
def implMember (r : Rules) : Reader Unit := do
  discard <| attributes r
  let visible ← visibility
  let default ← peek fun ts => atWord "default" ts && !atOp "!" (ts.drop 1)
  if default then word "default"
  let ts ← ahead
  if atSignature false ts then function r false
  else if atWord "const" ts then constant r
  else if atWord "type" ts then discard <| typeDeclaration r ⟨false, true⟩
  else if !visible && !default && atItemMacro ts then itemMacro false
  else failure

/-- An item of an external block. -/
def foreignMember (r : Rules) : Reader Unit := do
  discard <| attributes r
  let visible ← visibility
  let ts ← ahead
  if atSignature true ts then function r true
  else if atWord "static" ts || atSomeWord ["unsafe", "safe"] ts && atWord "static" (ts.drop 1) then
    unless ← word? "unsafe" do discard <| word? "safe"
    word "static"
    discard <| word? "mut"
    discard name
    op ":"
    discard <| r.type true
    if ← op? "=" then discard <| expr r true
    op ";"
  else if atWord "type" ts then discard <| typeDeclaration r ⟨true, true⟩
  else if !visible && atItemMacro ts then itemMacro false
  else failure

/-- Members in braces after inner attributes. -/
def members (r : Rules) (p : Reader Unit) : Reader Unit := group .brace do
  innerAttributes r
  discard <| many List.isEmpty p

/-- A trait from its name on; `withAlias` allows `trait A = B;`. Gives the name. -/
def traitAfter (r : Rules) (withAlias : Bool) : Reader Ident := do
  word "trait"
  let i ← name
  discard <| generics r
  if withAlias && (← peek (atOp "=")) then
    op "="
    discard <| terminated (fun ts => atWord "where" ts || atOp ";" ts) "+" (r.bound false true)
    discard <| whereClause r
    op ";"
  else
    if ← op? ":" then
      discard <| terminated (fun ts => atWord "where" ts || atGroup .brace ts) "+"
        (r.bound false true)
    discard <| whereClause r
    members r (traitMember r)
  return i

/-- An implementation after its visibility. -/
def implementation (r : Rules) : Reader Unit := do
  discard <| word? "default"
  discard <| word? "unsafe"
  word "impl"
  if ← peek choosesGenerics then discard <| generics r
  if ← peek fun ts => atWord "const" ts || atOp "?" ts && atWord "const" (ts.drop 1) then
    discard <| op? "?"
    word "const"
  if ← peek fun ts => atOp "!" ts && !atGroup .brace (ts.drop 1) then op "!"
  discard <| r.type true
  if ← word? "for" then discard <| r.type true
  discard <| whereClause r
  members r (implMember r)

/-- An external block after its visibility. -/
def externalBlock (r : Rules) : Reader Unit := do
  discard <| word? "unsafe"
  convention
  members r (foreignMember r)

/-! ## Imports and modules -/

/-- The trees of a group, at most `fuel` of them. The group is left out if one of its trees starts
with `::`. -/
def useGroupLoop (r : Rules) (root : Bool) : Nat → Reader (Option (List UseTree))
  | 0 => failure
  | fuel + 1 => do
    if ← atEnd then return some []
    let led ← if root then op? "::" else pure false
    let tree ← r.useTree (root && !led)
    let rest ← if ← atEnd then pure (some []) else do
      op ","
      useGroupLoop r root fuel
    return if led then none else do return (← tree) :: (← rest)

/-- The rule for the tree of a `use` declaration. -/
def useTreeRule (r : Rules) (root : Bool) : Reader (Option UseTree) := do
  let ts ← ahead
  if atName ts || atSomeWord ["self", "super", "crate", "try"] ts then
    let i ← ident
    if ← op? "::" then return (← r.useTree false).map (.path i)
    else if ← word? "as" then
      let new ← if ← peek (atWord "_") then ident else name
      return some (.rename i new)
    else return some (.name i)
  else if atOp "*" ts then
    op "*"
    return some .glob
  else
    let trees ← group .brace do useGroupLoop r root ((← ahead).length + 1)
    return trees.map .group

/-- A `use` declaration after its visibility. -/
def useAfter (r : Rules) : Reader Item := do
  word "use"
  let absolute ← op? "::"
  let tree ← r.useTree (!absolute)
  op ";"
  match tree with
  | some tree => return .use absolute tree
  | none => return .other

/-- An external crate after its visibility. -/
def externCrateAfter : Reader Item := do
  word "extern"
  word "crate"
  let i ← if ← peek (atWord "self") then ident else name
  let new ← if ← word? "as" then
      some <$> if ← peek (atWord "_") then ident else name
    else pure none
  op ";"
  return .externCrate i new

/-- A module after its visibility. -/
def moduleAfter (r : Rules) : Reader Item := do
  discard <| word? "unsafe"
  word "mod"
  let i ← if ← peek (atWord "try") then ident else name
  if ← op? ";" then return .module i none
  else
    let items ← group .brace do
      innerAttributes r
      r.items
    return .module i (some items)

/-! ## Items -/

/-- Reads an item of which nothing is kept. -/
def dropped (p : Reader Unit) : Reader Item := do
  p
  return .other

/-- A static variable after its visibility. -/
def staticAfter (r : Rules) : Reader Unit := do
  word "static"
  discard <| word? "mut"
  discard name
  if ← op? ":" then
    discard <| r.type true
    if ← op? "=" then discard <| expr r true
  else
    op "="
    discard <| expr r true
  op ";"

/-- A declaration `macro m(..) { .. }`. -/
def macroDeclaration : Reader Unit := do
  word "macro"
  discard name
  if ← peek (atGroup .parenthesis) then discard anyGroup
  if (← anyGroup).1 != .brace then failure

/-- An item that starts with `unsafe` and is no function. -/
def unsafeItem (r : Rules) (visible : Bool) (second : List TokenTree) : Reader Item := do
  if atWord "trait" second || atWord "auto" second && atWord "trait" (second.drop 1) then
    word "unsafe"
    discard <| word? "auto"
    return .declared (← traitAfter r false)
  else if atWord "impl" second then dropped (implementation r)
  else if atWord "extern" second && !visible then dropped (externalBlock r)
  else if atWord "mod" second then moduleAfter r
  else failure

/-- An item after its attributes. -/
def itemAfter (r : Rules) (attrs : List Meta) : Reader Item := do
  let visible ← visibility
  let ts ← ahead
  let second := ts.drop 1
  if atSignature false ts then dropped (function r false)
  else if atWord "extern" ts then
    if atWord "crate" second then externCrateAfter
    else if visible then failure
    else dropped (externalBlock r)
  else if atWord "use" ts then useAfter r
  else if atWord "static" ts then dropped (staticAfter r)
  else if atWord "const" ts then dropped (constant r)
  else if atWord "unsafe" ts then unsafeItem r visible second
  else if atWord "mod" ts then moduleAfter r
  else if atWord "type" ts then
    let (i, params, target) ← typeDeclaration r ⟨true, false⟩
    match target with
    | some target => return .typeAlias i params target
    | none => return .other
  else if atWord "struct" ts then return .struct (← structAfter r attrs)
  else if atWord "enum" ts then return .declared (← enumAfter r)
  else if atWord "union" ts && atName second then return .declared (← unionAfter r)
  else if atWord "trait" ts then return .declared (← traitAfter r true)
  else if atWord "auto" ts && atWord "trait" second then
    word "auto"
    return .declared (← traitAfter r false)
  else if atWord "impl" ts || atWord "default" ts && !atOp "!" second then
    dropped (implementation r)
  else if atWord "macro" ts then dropped macroDeclaration
  else if !visible && atItemMacro ts then dropped (itemMacro true)
  else failure

/-- The rule for the content of a module. -/
def itemsRule (r : Rules) : Reader (List Item) :=
  many List.isEmpty do
    let attrs ← attributes r
    itemAfter r attrs

/-! ## Statements -/

/-- Whether an item comes next where a statement is expected. -/
def atItem (ts : List TokenTree) : Bool :=
  let second := ts.drop 1
  let third := ts.drop 2
  atSomeWord ["pub", "extern", "use", "fn", "mod", "type", "struct", "enum", "trait", "impl",
    "macro"] ts ||
  atWord "crate" ts && !atOp "::" second ||
  atWord "static" ts && (atWord "mut" second || atName second) ||
  atWord "const" ts && !(atGroup .brace second || atWord "static" second ||
    atWord "async" second && !atSomeWord functionWords third || atWord "move" second ||
    atOp "|" second) ||
  atWord "unsafe" ts && !atGroup .brace second ||
  atWord "async" ts && atSomeWord functionWords second ||
  atWord "union" ts && atName second ||
  atWord "auto" ts && atWord "trait" second ||
  atWord "default" ts && atSomeWord ["unsafe", "impl"] second

/-- What a macro call at the start of a statement is. -/
inductive LeadingMacro where
  /-- A call with a name after its exclamation mark, which is an item. -/
  | item
  /-- A call in braces, which is a statement by itself. -/
  | statement
  /-- No macro call, or one that starts an expression. -/
  | other

/-- The macro call at the start of a statement. -/
def leadingMacro (ts : List TokenTree) : LeadingMacro :=
  match plainPath ⟨ts, []⟩ with
  | some (_, ⟨rest, _⟩) =>
    let second := rest.drop 1
    let third := rest.drop 2
    if !atOp "!" rest then .other
    else if atName second || atWord "try" second then .item
    else if atGroup .brace second && !(atMember third || atOp "?" third) then .statement
    else .other
  | none => .other

/-- Whether the last token taken is a group in braces. -/
def endsInBrace : Reader Bool := do return atGroup .brace (← get).taken

/-- A `let` statement. -/
def letStatement (r : Rules) : Reader Unit := do
  word "let"
  discard r.pattern
  if ← op? ":" then discard <| r.type true
  if ← op? "=" then
    discard <| expr r true
    if !(← endsInBrace) && (← peek (atWord "else")) then
      word "else"
      plainBlock r
  op ";"

/-- A statement; gives whether a semicolon is missing, so that no other statement can follow. -/
def statement (r : Rules) : Reader Bool := do
  let attrs ← attributes r
  let ts ← ahead
  match leadingMacro ts with
  | .statement =>
    discard plainPath
    discard macroCall
    discard <| op? ";"
    return false
  | .item =>
    discard <| itemAfter r attrs
    return false
  | .other =>
    if atWord "let" ts then
      letStatement r
      return false
    else if atItem ts then
      discard <| itemAfter r attrs
      return false
    else
      let kind ← r.bounded
      let ended ← op? ";"
      return !ended && kind != .block && kind != .bracedMacro

/-- The statements of a block, at most `fuel` of them. -/
def statementLoop (r : Rules) : Nat → Reader Unit
  | 0 => failure
  | fuel + 1 => do
    if ← op? ";" then statementLoop r fuel
    else if ← atEnd then return
    else
      let missing ← statement r
      if ← atEnd then return
      else if missing then failure
      else statementLoop r fuel

/-- The rule for the content of a block. -/
def statementsRule (r : Rules) : Reader Unit := do
  statementLoop r ((← ahead).length + 1)

end Memberwise.Source
