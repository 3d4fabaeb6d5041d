import Memberwise.Toml.Value
import Memberwise.Token.Lexer

/-!
# Memberwise.Toml.Lexeme — blanks, comments, strings and keys

Each reader takes characters from the front of a list and gives what it read with what is left.
-/

namespace Memberwise.Toml

/-- A reader of characters. -/
abbrev Reads (α : Type) := List Char → Option (α × List Char)

/-! ## Blanks -/

/-- Whether a character is a blank inside a line. -/
def isBlankChar (c : Char) : Bool := c == ' ' || c == '\t'

/-- What follows the blanks. -/
def skipBlanks (cs : List Char) : List Char := cs.dropWhile isBlankChar

/-- Whether a character can stand in a comment, and in a string if it is not special there. -/
def isText (c : Char) : Bool := c == '\t' || (32 ≤ c.toNat && c.toNat != 127)

/-- What follows a line break, if one comes first. -/
def lineBreak? : List Char → Option (List Char)
  | '\n' :: cs => some cs
  | '\r' :: '\n' :: cs => some cs
  | _ => none

/-- What follows a comment, up to its line break. -/
def skipComment : List Char → List Char
  | '#' :: cs => cs.dropWhile isText
  | cs => cs

/-- What follows blanks, comments and line breaks, at most `fuel` of them. -/
def skipGap : Nat → List Char → List Char
  | 0, cs => cs
  | fuel + 1, cs =>
    let rest := skipComment (skipBlanks cs)
    match lineBreak? rest with
    | some next => skipGap fuel next
    | none => rest

/-- What follows blanks, comments and line breaks. -/
def skipGaps (cs : List Char) : List Char := skipGap (cs.length + 1) cs

/-! ## Strings -/

/-- The character with a given number of hexadecimal digits, and what follows them. -/
def hexChar? (digits : Nat) : Reads Char := fun cs =>
  let body := cs.take digits
  let value := body.foldl (fun n c => n * 16 + Token.hexValue c) 0
  if body.length = digits && body.all Token.isHexDigit && Token.isScalar value then
    some (Char.ofNat value, cs.drop digits)
  else none

/-- The character that an escape stands for, after its backslash. -/
def escapeChar? : Reads Char
  | 'b' :: cs => some (Char.ofNat 8, cs)
  | 't' :: cs => some ('\t', cs)
  | 'n' :: cs => some ('\n', cs)
  | 'f' :: cs => some (Char.ofNat 12, cs)
  | 'r' :: cs => some ('\r', cs)
  | 'e' :: cs => some (Char.ofNat 27, cs)
  | '"' :: cs => some ('"', cs)
  | '\\' :: cs => some ('\\', cs)
  | 'x' :: cs => hexChar? 2 cs
  | 'u' :: cs => hexChar? 4 cs
  | 'U' :: cs => hexChar? 8 cs
  | _ => none

/-- Adds a character to what was read. -/
def consTo (c : Char) : Option (List Char × List Char) → Option (List Char × List Char)
  | some (body, rest) => some (c :: body, rest)
  | none => none

/-- A string on one line with escapes, after its opening quote, at most `fuel` characters long. -/
def basicBody? : Nat → Reads (List Char)
  | 0, _ => none
  | fuel + 1, cs =>
    match cs with
    | '"' :: rest => some ([], rest)
    | '\\' :: rest =>
      match escapeChar? rest with
      | some (c, rest) => consTo c (basicBody? fuel rest)
      | none => none
    | c :: rest => if isText c then consTo c (basicBody? fuel rest) else none
    | [] => none

/-- A string on one line without escapes, after its opening quote. -/
def literalBody? : Reads (List Char)
  | '\'' :: rest => some ([], rest)
  | c :: rest => if isText c then consTo c (literalBody? rest) else none
  | [] => none

/-- What follows the three quotes that close a string. Up to two more quotes before them belong
to the string. -/
def closing? (quote : Char) (cs : List Char) : Option (List Char × List Char) :=
  let run := (cs.takeWhile (· == quote)).length
  if run < 3 then none
  else
    let own := min run 5 - 3
    some (List.replicate own quote, cs.drop (own + 3))

/-- What follows a backslash at the end of a line: blanks and line breaks are left out. -/
def lineEnd? (cs : List Char) : Option (List Char) :=
  match lineBreak? (skipBlanks cs) with
  | some rest => some (rest.dropWhile fun c => isBlankChar c || c == '\n' || c == '\r')
  | none => none

/-- A string over several lines with escapes, after its opening quotes, at most `fuel` characters
long. -/
def longBasicBody? : Nat → Reads (List Char)
  | 0, _ => none
  | fuel + 1, cs =>
    match closing? '"' cs with
    | some closed => some closed
    | none =>
      match cs with
      | '\\' :: rest =>
        match lineEnd? rest with
        | some rest => longBasicBody? fuel rest
        | none =>
          match escapeChar? rest with
          | some (c, rest) => consTo c (longBasicBody? fuel rest)
          | none => none
      | '\r' :: '\n' :: rest => consTo '\r' (consTo '\n' (longBasicBody? fuel rest))
      | c :: rest =>
        if isText c || c == '\n' then consTo c (longBasicBody? fuel rest) else none
      | [] => none

/-- A string over several lines without escapes, after its opening quotes, at most `fuel`
characters long. -/
def longLiteralBody? : Nat → Reads (List Char)
  | 0, _ => none
  | fuel + 1, cs =>
    match closing? '\'' cs with
    | some closed => some closed
    | none =>
      match cs with
      | '\r' :: '\n' :: rest => consTo '\r' (consTo '\n' (longLiteralBody? fuel rest))
      | c :: rest =>
        if isText c || c == '\n' then consTo c (longLiteralBody? fuel rest) else none
      | [] => none

/-- A line break right after opening quotes is no part of the string. -/
def dropFirstBreak (cs : List Char) : List Char := (lineBreak? cs).getD cs

/-- What was read as text. -/
def asText : Option (List Char × List Char) → Option (String × List Char)
  | some (body, rest) => some (String.ofList body, rest)
  | none => none

/-- A string on one line, if a quote comes first. -/
def shortString? : Reads String
  | '"' :: cs => asText (basicBody? (cs.length + 1) cs)
  | '\'' :: cs => asText (literalBody? cs)
  | _ => none

/-- A string, if a quote comes first. -/
def string? (cs : List Char) : Option (String × List Char) :=
  match cs with
  | '"' :: '"' :: '"' :: rest => asText (longBasicBody? (rest.length + 1) (dropFirstBreak rest))
  | '\'' :: '\'' :: '\'' :: rest =>
    asText (longLiteralBody? (rest.length + 1) (dropFirstBreak rest))
  | _ => shortString? cs

/-! ## Keys -/

/-- Whether a character can stand in a key without quotes. -/
def isKeyChar (c : Char) : Bool := c.isAlphanum || c == '_' || c == '-'

/-- One part of a key. -/
def keyPart? : Reads String := fun cs =>
  match cs.takeWhile isKeyChar with
  | [] => shortString? cs
  | part => some (String.ofList part, cs.dropWhile isKeyChar)

/-- A key: parts with points between them, at most `fuel` of them. -/
def keyFrom? : Nat → Reads (List String)
  | 0, _ => none
  | fuel + 1, cs =>
    match keyPart? (skipBlanks cs) with
    | none => none
    | some (part, rest) =>
      match skipBlanks rest with
      | '.' :: more =>
        match keyFrom? fuel more with
        | some (parts, rest) => some (part :: parts, rest)
        | none => none
      | rest => some ([part], rest)

/-- A key, with the blanks around it. -/
def key? (cs : List Char) : Option (List String × List Char) := keyFrom? (cs.length + 1) cs

end Memberwise.Toml
