import Memberwise.Text.Printable

/-!
# Memberwise.Text.Quoted — string literals

A text as a string literal of the generated code. Quotes, backslashes and line breaks are escaped,
and so is every character that does not show by itself; the apostrophe is not.
-/

namespace Memberwise.Text

/-- A code point in braces, in hexadecimal digits. -/
def unicodeEscape (c : Char) : List Char :=
  "\\u\x7b".toList ++ Nat.toDigits 16 c.toNat ++ ['\x7d']

/-- One character inside a literal. -/
def escapeChar (c : Char) : List Char :=
  match c with
  | '\x00' => ['\\', '0']
  | '\t' => ['\\', 't']
  | '\r' => ['\\', 'r']
  | '\n' => ['\\', 'n']
  | '\\' => ['\\', '\\']
  | '"' => ['\\', '"']
  | c => if isPrintable c then [c] else unicodeEscape c

/-- The literal that denotes `s`. -/
def quote (s : String) : String :=
  String.ofList ('"' :: s.toList.flatMap escapeChar ++ ['"'])

end Memberwise.Text
