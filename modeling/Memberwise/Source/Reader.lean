import Memberwise.Source.Tree

/-!
# Memberwise.Source.Reader — readers of tokens

A reader takes tokens from the front of a list and fails or gives a value. Beside what is left it
keeps what it has taken, in the spacing of the printed form: an operator that was read as one is
taken as one, so that `>` `>` at the end of two argument lists stays two operators.

Looking ahead is a question about the tokens that are left, and so a plain function on them.
-/

namespace Memberwise.Source

/-- A place in a list of tokens: what is left, and what was taken, newest first. -/
structure Cursor where
  rest : List TokenTree
  taken : List TokenTree

/-- A reader of tokens. -/
abbrev Reader := StateT Cursor Option

variable {α : Type}

/-! ## Looking ahead -/

/-- Whether the operator with the characters `op` comes next, joined as far as it goes. -/
def atOpChars : List Char → List TokenTree → Bool
  | [], _ => true
  | [c], .punct d _ :: _ => c == d
  | c :: cs, .punct d joint :: ts => c == d && joint && atOpChars cs ts
  | _, _ => false

/-- Whether the operator `op` comes next. A longer operator that starts with it counts too. -/
def atOp (op : String) (ts : List TokenTree) : Bool := atOpChars op.toList ts

/-- Whether the bare word `word` comes next. -/
def atWord (word : String) : List TokenTree → Bool
  | .ident i :: _ => i.isWord word
  | _ => false

/-- Whether one of the bare words comes next. -/
def atSomeWord (words : List String) (ts : List TokenTree) : Bool := words.any (atWord · ts)

/-- Whether an identifier that can name something comes next. -/
def atName : List TokenTree → Bool
  | .ident i :: _ => i.isName
  | _ => false

/-- Whether an identifier or keyword comes next. -/
def atIdent : List TokenTree → Bool
  | .ident _ :: _ => true
  | _ => false

/-- Whether a lifetime comes next. -/
def atLifetime : List TokenTree → Bool
  | .lifetime _ :: _ => true
  | _ => false

/-- Whether a group in the given brackets comes next. -/
def atGroup (d : Delimiter) : List TokenTree → Bool
  | .group e _ :: _ => d = e
  | _ => false

/-- Whether a literal is a number. -/
def isNumberText (text : String) : Bool := text.toList.head?.any Char.isDigit

/-- Whether a literal is a string: text, not bytes. -/
def isStringText (text : String) : Bool :=
  text.toList.head?.any fun c => c == '"' || c == 'r'

/-- Whether a literal comes next: a literal token, `true`, `false` or a negative number. -/
def atLiteral : List TokenTree → Bool
  | .literal _ :: _ => true
  | .ident i :: _ => i.isWord "true" || i.isWord "false"
  | .punct '-' _ :: .literal text :: _ => isNumberText text
  | _ => false

/-- Whether a string literal comes next. -/
def atString : List TokenTree → Bool
  | .literal text :: _ => isStringText text
  | _ => false

/-- The words that can stand in a path beside names. -/
def pathWords : List String := ["self", "Self", "super", "crate"]

/-! ## Taking tokens -/

/-- The tokens that are left. -/
def ahead : Reader (List TokenTree) := do return (← get).rest

/-- Whether the tokens that are left satisfy `p`. -/
def peek (p : List TokenTree → Bool) : Reader Bool := do return p (← ahead)

/-- Whether nothing is left. -/
def atEnd : Reader Bool := peek List.isEmpty

/-- Goes on to `rest`, having taken `tokens`. -/
def advance (tokens rest : List TokenTree) : Reader Unit :=
  modify fun c => ⟨rest, tokens.reverse ++ c.taken⟩

/-- Takes the operator `op`. -/
def op (op : String) : Reader Unit := do
  let ts ← ahead
  if atOp op ts then advance (TokenTree.operator op) (ts.drop op.length) else failure

/-- Takes the operator `op` if it comes next. -/
def op? (text : String) : Reader Bool := do
  if ← peek (atOp text) then op text; return true else return false

/-- Takes an identifier or keyword. -/
def ident : Reader Ident := do
  match ← ahead with
  | .ident i :: rest => advance [.ident i] rest; return i
  | _ => failure

/-- Takes an identifier that can name something. -/
def name : Reader Ident := do
  if ← peek atName then ident else failure

/-- Takes the bare word `word`. -/
def word (word : String) : Reader Unit := do
  if ← peek (atWord word) then discard ident else failure

/-- Takes the bare word `text` if it comes next. -/
def word? (text : String) : Reader Bool := do
  if ← peek (atWord text) then word text; return true else return false

/-- Takes a lifetime. -/
def lifetime : Reader Ident := do
  match ← ahead with
  | .lifetime i :: rest => advance [.lifetime i] rest; return i
  | _ => failure

/-- Takes a lifetime if one comes next. -/
def lifetime? : Reader (Option Ident) := do
  if ← peek atLifetime then return some (← lifetime) else return none

/-- Takes a literal. The sign of a negative number is taken as an operator. -/
def literal : Reader Unit := do
  match ← ahead with
  | .literal text :: rest => advance [.literal text] rest
  | .ident i :: rest =>
    if i.isWord "true" || i.isWord "false" then advance [.ident i] rest else failure
  | .punct '-' _ :: .literal text :: rest =>
    if isNumberText text then advance [.punct '-' false, .literal text] rest else failure
  | _ => failure

/-- Takes a string literal. -/
def stringLiteral : Reader Unit := do
  if ← peek atString then literal else failure

/-- Takes a group whose content `inner` reads to the end. -/
def group (d : Delimiter) (inner : Reader α) : Reader α := fun c =>
  match c.rest with
  | .group e body :: rest =>
    if d = e then
      match inner ⟨body, []⟩ with
      | some (a, ⟨[], taken⟩) => some (a, ⟨rest, .group d taken.reverse :: c.taken⟩)
      | _ => none
    else none
  | _ => none

/-- Takes a group with any content and any brackets, and gives the brackets and the content. -/
def anyGroup : Reader (Delimiter × List TokenTree) := do
  match ← ahead with
  | .group d body :: rest => advance [.group d body] rest; return (d, body)
  | _ => failure

/-- Runs a reader and gives the tokens that it takes beside its value. -/
def captured (p : Reader α) : Reader (α × List TokenTree) := fun c =>
  match p ⟨c.rest, []⟩ with
  | some (a, c') => some ((a, c'.taken.reverse), ⟨c'.rest, c'.taken ++ c.taken⟩)
  | none => none

/-- Runs a reader and keeps the printed form of its value in place of the tokens that it takes. -/
def printedAs (tokens : α → List TokenTree) (p : Reader α) : Reader α := fun c =>
  match p ⟨c.rest, []⟩ with
  | some (a, c') => some (a, ⟨c'.rest, (tokens a).reverse ++ c.taken⟩)
  | none => none

/-! ## Lists -/

/-- Runs `p` until `stop` holds, at most `fuel` times. -/
def manyLoop (stop : List TokenTree → Bool) (p : Reader α) : Nat → Reader (List α)
  | 0 => failure
  | fuel + 1 => do
    if ← peek stop then return []
    let a ← p
    let as ← manyLoop stop p fuel
    return a :: as

/-- Runs `p` until `stop` holds. -/
def many (stop : List TokenTree → Bool) (p : Reader α) : Reader (List α) := do
  manyLoop stop p ((← ahead).length + 1)

/-- The loop of `terminated`, at most `fuel` elements long. -/
def terminatedLoop (stop : List TokenTree → Bool) (separator : String) (p : Reader α) :
    Nat → Reader (List α × Bool)
  | 0 => failure
  | fuel + 1 => do
    if ← peek stop then return ([], false)
    let a ← p
    if ← peek stop then return ([a], false)
    op separator
    let (as, trailing) ← terminatedLoop stop separator p fuel
    return (a :: as, as.isEmpty || trailing)

/-- Elements with a separator between them until `stop` holds; the separator may also end the
list, and then the second part is true. -/
def terminated (stop : List TokenTree → Bool) (separator : String) (p : Reader α) :
    Reader (List α × Bool) := do
  terminatedLoop stop separator p ((← ahead).length + 1)

/-- The loop of `chained`, at most `fuel` elements long. -/
def chainedLoop (stop : List TokenTree → Bool) (separator : String) (p : Reader α) :
    Nat → Reader (List α × Bool)
  | 0 => failure
  | fuel + 1 => do
    if ← peek stop then return ([], false)
    let a ← p
    if ← op? separator then
      let (as, trailing) ← chainedLoop stop separator p fuel
      return (a :: as, as.isEmpty || trailing)
    else return ([a], false)

/-- Elements that go on as long as a separator follows; after the separator the list may end
where `stop` holds, and then the second part is true. -/
def chained (stop : List TokenTree → Bool) (separator : String) (p : Reader α) :
    Reader (List α × Bool) := do
  chainedLoop stop separator p ((← ahead).length + 1)

/-- Elements of a group, with commas between them and perhaps after the last. -/
def commaList (p : Reader α) : Reader (List α × Bool) := terminated List.isEmpty "," p

/-! ## Running -/

/-- Runs a reader that has to take every token. -/
def Reader.run? (p : Reader α) (tokens : List TokenTree) : Option α :=
  match p ⟨tokens, []⟩ with
  | some (a, ⟨[], _⟩) => some a
  | _ => none

end Memberwise.Source
