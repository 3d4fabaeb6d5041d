import Memberwise.Token.Lexer

/-!
# Memberwise.Token.StringValue — the text that a string literal stands for

Works on literals that the lexer has accepted, so every escape in them is complete.
-/

namespace Memberwise.Token

/-- The character that an escape stands for, after its backslash, and what follows it. -/
def escapeValue? : List Char → Option (Char × List Char)
  | 'x' :: a :: b :: cs => some (Char.ofNat (hexValue a * 16 + hexValue b), cs)
  | 'u' :: cs => do
    let (value, rest) ← unicodeDigits? cs
    return (Char.ofNat value, rest)
  | 'n' :: cs => some ('\n', cs)
  | 'r' :: cs => some ('\r', cs)
  | 't' :: cs => some ('\t', cs)
  | '0' :: cs => some (Char.ofNat 0, cs)
  | c :: cs => some (c, cs)
  | [] => none

/-- The characters up to the closing quote, at most `fuel` of them. White space after a backslash
at the end of a line is left out. -/
def bodyValue? : Nat → List Char → Option (List Char)
  | 0, _ => none
  | _, '"' :: _ => some []
  | fuel + 1, '\r' :: '\n' :: cs => ('\n' :: ·) <$> bodyValue? fuel cs
  | fuel + 1, '\\' :: '\n' :: cs => do bodyValue? fuel (← skipLineGap ('\n' :: cs))
  | fuel + 1, '\\' :: '\r' :: cs => do bodyValue? fuel (← skipLineGap ('\r' :: cs))
  | fuel + 1, '\\' :: cs => do
    let (c, rest) ← escapeValue? cs
    return c :: (← bodyValue? fuel rest)
  | fuel + 1, c :: cs => (c :: ·) <$> bodyValue? fuel cs
  | _, [] => none

/-- The characters of a body without escapes, up to a quote and `hashes` number signs. -/
def rawValue? (hashes : Nat) : List Char → Option (List Char)
  | '\r' :: '\n' :: cs => ('\n' :: ·) <$> rawValue? hashes cs
  | c :: cs =>
    if c == '"' && (List.replicate hashes '#').isPrefixOf cs then some []
    else (c :: ·) <$> rawValue? hashes cs
  | [] => none

/-- The text that a string literal stands for. -/
def stringValue? (literal : String) : Option String :=
  match literal.toList with
  | '"' :: cs => String.ofList <$> bodyValue? (cs.length + 1) cs
  | 'r' :: cs =>
    let hashes := (cs.takeWhile (· == '#')).length
    match cs.drop hashes with
    | '"' :: body => String.ofList <$> rawValue? hashes body
    | _ => none
  | _ => none

end Memberwise.Token
