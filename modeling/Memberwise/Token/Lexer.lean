import Memberwise.Text.Blank
import Memberwise.Text.IdentifierChar
import Memberwise.Text.Quoted
import Memberwise.Token

/-!
# Memberwise.Token.Lexer — reading text as token trees

The lexer skips white space and comments, turns doc comments into `doc` attributes, and reads
literals before punctuation before identifiers. A reader of one token takes the characters from
the token on and gives what is left after it, or nothing if no such token starts there.
-/

namespace Memberwise.Token

open Text

/-! ## Characters and small pieces -/

/-- Whether the text starts with `start`. -/
def startsWith (start : String) (cs : List Char) : Bool := start.toList.isPrefixOf cs

/-- Whether a character is white space between tokens: white space, or a mark of the direction
of writing. -/
def isSpace (c : Char) : Bool := isBlank c || c == '\u200e' || c == '\u200f'

/-- Whether a character is a hexadecimal digit. -/
def isHexDigit (c : Char) : Bool :=
  c.isDigit || decide ('a' ≤ c ∧ c ≤ 'f') || decide ('A' ≤ c ∧ c ≤ 'F')

/-- The value of a hexadecimal digit. -/
def hexValue (c : Char) : Nat :=
  if c.isDigit then c.toNat - 48
  else if 'a' ≤ c then c.toNat - 87
  else c.toNat - 55

/-- Whether a number is a code point that is a character. -/
def isScalar (n : Nat) : Bool := decide (n < 0xD800) || (decide (0xDFFF < n) && decide (n < 0x110000))

/-- What follows a word of identifier characters. -/
def word? : List Char → Option (List Char)
  | c :: cs => if isIdentStart c then some (cs.dropWhile isIdentContinue) else none
  | [] => none

/-- What follows the suffix of a literal, which may be missing. -/
def skipSuffix (cs : List Char) : List Char := (word? cs).getD cs

/-- The characters of `input` before `rest`. -/
def before (input rest : List Char) : List Char := input.take (input.length - rest.length)

/-! ## Comments -/

/-- What follows a block comment; comments nest, and `depth` of them are open. -/
def blockComment? (depth : Nat) : List Char → Option (List Char)
  | '/' :: '*' :: cs => blockComment? (depth + 1) cs
  | '*' :: '/' :: cs => if depth ≤ 1 then some cs else blockComment? (depth - 1) cs
  | _ :: cs => blockComment? depth cs
  | [] => none

/-- The text up to the end of the line, and what follows from the line break on. -/
def takeLine : List Char → List Char × List Char
  | '\n' :: cs => ([], '\n' :: cs)
  | '\r' :: '\n' :: cs => ([], '\n' :: cs)
  | c :: cs => let (line, rest) := takeLine cs; (c :: line, rest)
  | [] => ([], [])

/-- Whether a line comment that documents nothing starts here. -/
def startsLineComment (cs : List Char) : Bool :=
  startsWith "//" cs && (!startsWith "///" cs || startsWith "////" cs) && !startsWith "//!" cs

/-- Whether a block comment that documents nothing starts here. -/
def startsBlockComment (cs : List Char) : Bool :=
  startsWith "/*" cs && (!startsWith "/**" cs || startsWith "/***" cs) && !startsWith "/*!" cs

/-- Passes over white space and comments, at most `fuel` of them. An open comment stays. -/
def skipSpace : Nat → List Char → List Char
  | 0, cs => cs
  | _, [] => []
  | fuel + 1, c :: cs =>
    let input := c :: cs
    if startsLineComment input then skipSpace fuel (takeLine input).2
    else if startsWith "/**/" input then skipSpace fuel (input.drop 4)
    else if startsBlockComment input then
      match blockComment? 0 input with
      | some rest => skipSpace fuel rest
      | none => input
    else if isSpace c then skipSpace fuel cs
    else input

/-- Whether every carriage return is followed by a line feed. -/
def pairedReturns : List Char → Bool
  | '\r' :: '\n' :: cs => pairedReturns cs
  | '\r' :: _ => false
  | _ :: cs => pairedReturns cs
  | [] => true

/-- A doc comment: its text, whether it documents the item around it, and what follows. -/
def docComment? (cs : List Char) : Option (List Char × Bool × List Char) := do
  let (comment, inner, rest) ←
    if startsWith "//!" cs then
      let (line, rest) := takeLine (cs.drop 3)
      some (line, true, rest)
    else if startsWith "/*!" cs then
      (blockComment? 0 cs).map fun rest => (block cs rest, true, rest)
    else if startsWith "///" cs && !startsWith "////" cs then
      let (line, rest) := takeLine (cs.drop 3)
      some (line, false, rest)
    else if startsWith "/**" cs && !startsWith "/***" cs then
      (blockComment? 0 cs).map fun rest => (block cs rest, false, rest)
    else none
  if pairedReturns comment then some (comment, inner, rest) else none
where
  /-- The text of a block comment between its marks. -/
  block (cs rest : List Char) : List Char := ((before cs rest).drop 3).dropLast.dropLast

/-- The attribute that a doc comment stands for. -/
def docAttribute (comment : List Char) (inner : Bool) : List TokenTree :=
  let body := [.ident (.plain "doc"), .punct '=' false, .literal (quote (String.ofList comment))]
  .punct '#' false :: (if inner then [.punct '!' false] else []) ++ [.group .bracket body]

/-! ## Literals -/

/-- A step in the body of a string literal: an element was read, or the closing quote. -/
inductive BodyStep where
  | more (rest : List Char)
  | closed (rest : List Char)

/-- Reads elements of a body until it closes, at most `fuel` of them. -/
def scanBody (step : List Char → Option BodyStep) : Nat → List Char → Option (List Char)
  | 0, _ => none
  | fuel + 1, cs =>
    match step cs with
    | some (.closed rest) => some rest
    | some (.more rest) => scanBody step fuel rest
    | none => none

/-- What a kind of string literal allows. -/
structure StringKind where
  /-- The two digits after a backslash and `x`. -/
  hex : Char → Char → Bool
  /-- The code points after a backslash and `u`. -/
  unicode : Nat → Bool
  /-- The characters that stand after a backslash alone. -/
  simple : List Char
  /-- The characters that stand for themselves. -/
  plain : Char → Bool

/-- Text: escapes reach ASCII or any character. -/
def textKind : StringKind where
  hex a b := decide ('0' ≤ a ∧ a ≤ '7') && isHexDigit b
  unicode _ := true
  simple := ['n', 'r', 't', '\\', '\'', '"', '0']
  plain _ := true

/-- Bytes: escapes reach any byte, and only ASCII stands for itself. -/
def byteKind : StringKind where
  hex a b := isHexDigit a && isHexDigit b
  unicode _ := false
  simple := ['n', 'r', 't', '\\', '\'', '"', '0']
  plain c := decide (c.toNat < 128)

/-- Text that ends at a zero: no zero in it. -/
def terminatedKind : StringKind where
  hex a b := isHexDigit a && isHexDigit b && !(a == '0' && b == '0')
  unicode n := decide (n ≠ 0)
  simple := ['n', 'r', 't', '\\', '\'', '"']
  plain c := decide (c.toNat ≠ 0)

/-- A code point in braces, up to six digits with underscores between them. -/
def unicodeDigits? : List Char → Option (Nat × List Char)
  | '\x7b' :: cs =>
    let body := cs.takeWhile fun c => isHexDigit c || c == '_'
    let digits := body.filter (· != '_')
    match cs.dropWhile fun c => isHexDigit c || c == '_' with
    | '\x7d' :: rest =>
      let value := digits.foldl (fun n c => n * 16 + hexValue c) 0
      if body.head? != some '_' && !digits.isEmpty && digits.length ≤ 6 && isScalar value then
        some (value, rest)
      else none
    | _ => none
  | _ => none

/-- What follows the white space after a backslash at the end of a line. -/
def skipLineGap : List Char → Option (List Char)
  | '\r' :: '\n' :: cs => skipLineGap cs
  | '\r' :: _ => none
  | c :: cs => if c == ' ' || c == '\t' || c == '\n' then skipLineGap cs else some (c :: cs)
  | [] => none

/-- What follows an escape, after its backslash, where a line break is not one. -/
def escape? (kind : StringKind) : List Char → Option (List Char)
  | 'x' :: a :: b :: cs => if kind.hex a b then some cs else none
  | 'u' :: cs => do
    let (value, rest) ← unicodeDigits? cs
    if kind.unicode value then some rest else none
  | c :: cs => if kind.simple.contains c then some cs else none
  | [] => none

/-- One element of the body of a string literal with escapes. -/
def stringStep (kind : StringKind) : List Char → Option BodyStep
  | '"' :: cs => some (.closed (skipSuffix cs))
  | '\r' :: '\n' :: cs => some (.more cs)
  | '\r' :: _ => none
  | '\\' :: '\n' :: cs => (skipLineGap ('\n' :: cs)).map .more
  | '\\' :: '\r' :: cs => (skipLineGap ('\r' :: cs)).map .more
  | '\\' :: cs => (escape? kind cs).map .more
  | c :: cs => if kind.plain c then some (.more cs) else none
  | [] => none

/-- What follows a string literal with escapes, after its opening quote. -/
def string? (kind : StringKind) (cs : List Char) : Option (List Char) :=
  scanBody (stringStep kind) (cs.length + 1) cs

/-- One element of the body of a string literal without escapes, closed by a quote and `hashes`
number signs. -/
def rawStep (kind : StringKind) (hashes : Nat) : List Char → Option BodyStep
  | '\r' :: '\n' :: cs => some (.more cs)
  | '\r' :: _ => none
  | c :: cs =>
    if c == '"' && (List.replicate hashes '#').isPrefixOf cs then
      some (.closed (skipSuffix (cs.drop hashes)))
    else if kind.plain c then some (.more cs)
    else none
  | [] => none

/-- What follows a string literal without escapes, from its number signs on. -/
def rawString? (kind : StringKind) (cs : List Char) : Option (List Char) :=
  let hashes := (cs.takeWhile (· == '#')).length
  match cs.drop hashes with
  | '"' :: body =>
    if hashes ≤ 255 then scanBody (rawStep kind hashes) (body.length + 1) body else none
  | _ => none

/-- What follows a character literal, after its opening apostrophe. -/
def character? (kind : StringKind) (cs : List Char) : Option (List Char) := do
  let rest ←
    match cs with
    | '\\' :: cs => escape? kind cs
    | c :: cs => if kind.plain c then some cs else none
    | [] => none
  match rest with
  | '\'' :: rest => some (skipSuffix rest)
  | _ => none

/-- What follows the exponent of a number; nothing if it has no digit. -/
def exponent? (signed valued : Bool) : List Char → Option (List Char)
  | [] => if valued then some [] else none
  | c :: cs =>
    if c == '+' || c == '-' then
      if valued then some (c :: cs)
      else if signed then none
      else exponent? true valued cs
    else if c.isDigit then exponent? signed true cs
    else if c == '_' then exponent? signed valued cs
    else if valued then some (c :: cs)
    else none

/-- Whether a character is a digit or an underscore between digits. -/
def isDigitOrGap (c : Char) : Bool := c.isDigit || c == '_'

/-- What follows the fraction and exponent of a number, after its point. An exponent without
digits is left for the suffix. -/
def fraction? (cs : List Char) : Option (List Char) :=
  if cs.head?.any fun c => c == '.' || isIdentStart c then none
  else
    match cs.dropWhile isDigitOrGap with
    | c :: rest =>
      if c == 'e' || c == 'E' then some ((exponent? false false rest).getD (c :: rest))
      else some (c :: rest)
    | [] => some []

/-- What follows the digits of a number with a point or an exponent. -/
def floatDigits? (cs : List Char) : Option (List Char) :=
  if !(cs.head?.any Char.isDigit) then none
  else
    match cs.dropWhile isDigitOrGap with
    | '.' :: rest => fraction? rest
    | c :: rest => if c == 'e' || c == 'E' then exponent? false false rest else none
    | [] => none

/-- What follows the digits of a whole number in a base. -/
def digits? (base : Nat) (empty : Bool) : List Char → Option (List Char)
  | [] => if empty then none else some []
  | c :: cs =>
    if c.isDigit then
      if hexValue c < base then digits? base false cs else none
    else if isHexDigit c && hexValue c < base then digits? base false cs
    else if c == '_' then
      if empty && base == 10 then none else digits? base empty cs
    else if empty then none
    else some (c :: cs)

/-- What follows the digits of a whole number. -/
def intDigits? (cs : List Char) : Option (List Char) :=
  match cs with
  | '0' :: 'x' :: rest => digits? 16 true rest
  | '0' :: 'o' :: rest => digits? 8 true rest
  | '0' :: 'b' :: rest => digits? 2 true rest
  | _ => digits? 10 true cs

/-- What follows the suffix of a number. -/
def numberEnd? (cs : List Char) : Option (List Char) :=
  let rest := skipSuffix cs
  if rest.head?.any isIdentContinue then none else some rest

/-- What follows a literal. -/
def literal? (cs : List Char) : Option (List Char) :=
  (match cs with
    | '"' :: rest => string? textKind rest
    | 'r' :: rest => rawString? textKind rest
    | 'b' :: '"' :: rest => string? byteKind rest
    | 'b' :: 'r' :: rest => rawString? byteKind rest
    | 'c' :: '"' :: rest => string? terminatedKind rest
    | 'c' :: 'r' :: rest => rawString? terminatedKind rest
    | 'b' :: '\'' :: rest => character? byteKind rest
    | '\'' :: rest => character? textKind rest
    | _ => none)
  <|> (floatDigits? cs >>= numberEnd?)
  <|> (intDigits? cs >>= numberEnd?)

/-! ## Punctuation and identifiers -/

/-- The characters of operators. -/
def punctuation : List Char :=
  "~!@#$%^&*-=+|;:,<.>/?".toList

/-- Whether a punctuation character starts here: not the slash of a comment. -/
def startsPunct (cs : List Char) : Bool :=
  !startsWith "//" cs && !startsWith "/*" cs &&
    cs.head?.any fun c => punctuation.contains c || c == '\''

/-- The starts that only a literal may have. -/
def literalStarts : List String :=
  ["r\"", "r#\"", "r##", "b\"", "b'", "br\"", "br#", "c\"", "cr\"", "cr#"]

/-- The words that cannot be raw identifiers. -/
def neverRaw : List String := ["_", "super", "self", "Self", "crate"]

/-- An identifier, raw or not, and what follows it. -/
def ident? (cs : List Char) : Option (Ident × List Char) :=
  let raw := startsWith "r#" cs
  let start := if raw then cs.drop 2 else cs
  match word? start with
  | some rest =>
    let name := String.ofList (before start rest)
    if raw && neverRaw.contains name then none else some (⟨name, raw⟩, rest)
  | none => none

/-- A lifetime, after its apostrophe, and what follows it. -/
def lifetime? (cs : List Char) : Option (Ident × List Char) := do
  let (i, rest) ← ident? cs
  if rest.head? == some '\'' || (rest.head? == some '#' && !startsWith "r#" cs) then none
  else some (i, rest)

/-- A token that is not a group, and what follows it. -/
def leaf? (cs : List Char) : Option (TokenTree × List Char) :=
  match literal? cs with
  | some rest => some (.literal (String.ofList (before cs rest)), rest)
  | none =>
    match cs with
    | '\'' :: rest => (lifetime? rest).map fun (i, rest) => (.lifetime i, rest)
    | c :: rest =>
      if startsPunct cs then some (.punct c (startsPunct rest), rest)
      else if literalStarts.any (startsWith · cs) then none
      else (ident? cs).map fun (i, rest) => (.ident i, rest)
    | [] => none

/-! ## Groups -/

/-- The delimiter that a character opens. -/
def opens? : Char → Option Delimiter
  | '(' => some .parenthesis
  | '[' => some .bracket
  | '\x7b' => some .brace
  | _ => none

/-- The delimiter that a character closes. -/
def closes? : Char → Option Delimiter
  | ')' => some .parenthesis
  | ']' => some .bracket
  | '\x7d' => some .brace
  | _ => none

/-- Reads tokens to the end. `done` holds the tokens of the innermost open group, newest first,
and `stack` the open groups around it. Every round takes a character, so `fuel` is the number of
characters. -/
def lexFrom : Nat → List Char → List TokenTree → List (Delimiter × List TokenTree) →
    Option (List TokenTree)
  | 0, _, _, _ => none
  | fuel + 1, cs, done, stack =>
    let input := skipSpace (cs.length + 1) cs
    match docComment? input with
    | some (comment, inner, rest) =>
      lexFrom fuel rest ((docAttribute comment inner).reverse ++ done) stack
    | none =>
      match input with
      | [] => if stack.isEmpty then some done.reverse else none
      | c :: rest =>
        match opens? c, closes? c with
        | some d, _ => lexFrom fuel rest [] ((d, done) :: stack)
        | none, some d =>
          match stack with
          | (opened, outer) :: stack =>
            if opened = d then lexFrom fuel rest (.group d done.reverse :: outer) stack else none
          | [] => none
        | none, none =>
          match leaf? input with
          | some (t, rest) => lexFrom fuel rest (t :: done) stack
          | none => none

/-- Drops a byte order mark at the start. -/
def dropMark : List Char → List Char
  | '\ufeff' :: cs => cs
  | cs => cs

/-- The token trees of a text, if every token and group in it is complete. -/
def lex (text : String) : Option (List TokenTree) :=
  let cs := dropMark text.toList
  lexFrom (cs.length + 1) cs [] []

end Memberwise.Token
