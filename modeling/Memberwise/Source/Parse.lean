import Memberwise.Source.Grammar.Items
import Memberwise.Token.Lexer

/-!
# Memberwise.Source.Parse — reading files, types, paths and attributes

Closes the recursion of the grammar and gives the readers of whole texts. Every step down the
grammar that does not take a token leads to one that does after a few more, so a depth of eight
levels a token is enough for any text.
-/

namespace Memberwise.Source

/-- The readers of the nonterminals, down to a given depth. -/
def rules : Nat → Rules
  | 0 => Rules.none
  | depth + 1 => {
      type := fun plus c => typeRule (rules depth) plus c
      bound := fun capture const c => boundRule (rules depth) capture const c
      unary := fun structs c => unaryRule (rules depth) structs c
      operators := fun kind structs base c => operatorsRule (rules depth) kind structs base c
      bounded := fun c => boundedRule (rules depth) c
      pattern := fun c => patternRule (rules depth) c
      statements := fun c => statementsRule (rules depth) c
      items := fun c => itemsRule (rules depth) c
      useTree := fun root c => useTreeRule (rules depth) root c }

/-- The readers of the nonterminals, deep enough for the tokens. -/
def rulesFor (tokens : List TokenTree) : Rules := rules (8 * (TokenTree.sizeAll tokens + 1))

variable {α : Type}

/-- Runs a reader on tokens, all of which it has to take. -/
def readTokens (p : Rules → Reader α) (tokens : List TokenTree) : Option α :=
  Reader.run? (p (rulesFor tokens)) tokens

/-- Runs a reader on a text, all of which it has to take. -/
def readText (p : Rules → Reader α) (text : String) : Option α := do
  readTokens p (← Token.lex text)

/-! ## Files -/

/-- Drops a first line that names an interpreter. It starts with `#!`, and no bracket follows that
would make it an attribute. -/
def dropInterpreter (cs : List Char) : List Char :=
  match cs with
  | '#' :: '!' :: rest =>
    if (Token.skipSpace (rest.length + 1) rest).head? = some '[' then cs
    else cs.dropWhile (· != '\n')
  | _ => cs

/-- The items of a source file. -/
def parseFile (text : String) : Option (List Item) :=
  let cs := dropInterpreter (Token.dropMark text.toList)
  readText (fun r => do innerAttributes r; r.items) (String.ofList cs)

/-! ## Parts of files -/

/-- Reads a type. -/
def parseType (text : String) : Option SourceType := readText (fun r => r.type true) text

/-- Reads a path. -/
def parsePath (text : String) : Option SourcePath := readText (fun r => sourcePath r false) text

/-- Reads an identifier that can name something. -/
def parseIdent (text : String) : Option Ident := readText (fun _ => name) text

/-- Reads the fields of a struct from what stands between its braces. -/
def parseFields (text : String) : Option (List Field) := do
  let item ← readText
    (fun r => do
      let attrs ← attributes r
      discard visibility
      structAfter r attrs)
    ("struct S \x7b " ++ text ++ " \x7d")
  match item.fields with
  | .named fields => some fields
  | .unnamed fields => some fields
  | .unit => some []

/-- Reads what a derive is applied to. -/
def parseDerivable (text : String) : Option Derivable :=
  readText
    (fun r => do
      let attrs ← attributes r
      discard visibility
      let ts ← ahead
      if atWord "struct" ts then return .struct (← structAfter r attrs)
      else if atWord "enum" ts then
        discard <| enumAfter r
        return .other
      else
        discard <| unionAfter r
        return .other)
    text

/-! ## Contents of attributes -/

/-- Reads a list of paths with commas between them. -/
def pathList? (tokens : List TokenTree) : Option (List SourcePath) :=
  readTokens (fun r => Prod.fst <$> commaList (sourcePath r false)) tokens

/-- Reads a list of attribute contents with commas between them. -/
def metaList? (tokens : List TokenTree) : Option (List Meta) :=
  readTokens (fun r => Prod.fst <$> commaList (metaItem r)) tokens

end Memberwise.Source
