/-!
# Memberwise.Text.Json — indented JSON

JSON text with one element a line and two blanks for each level.
-/

namespace Memberwise.Text

/-- A JSON value of the kinds that are written. -/
inductive Json where
  | string (s : String)
  | bool (b : Bool)
  | array (elems : List Json)
  | object (entries : List (String × Json))

namespace Json

/-- Two hexadecimal digits. -/
def hexPair (n : Nat) : List Char := [Nat.digitChar (n / 16), Nat.digitChar (n % 16)]

/-- One character inside a string. Control characters are escaped; all others stand for
themselves. -/
def escapeChar (c : Char) : List Char :=
  if c = '"' then ['\\', '"']
  else if c = '\\' then ['\\', '\\']
  else if c = '\n' then ['\\', 'n']
  else if c = '\r' then ['\\', 'r']
  else if c = '\t' then ['\\', 't']
  else if c.toNat = 8 then ['\\', 'b']
  else if c.toNat = 12 then ['\\', 'f']
  else if c.toNat < 32 then ['\\', 'u', '0', '0'] ++ hexPair c.toNat
  else [c]

/-- A string in quotes. -/
def quoted (s : String) : String :=
  String.ofList ('"' :: s.toList.flatMap escapeChar ++ ['"'])

/-- The blanks before an element of a level. -/
def margin (level : Nat) : String := String.ofList (List.replicate (2 * level) ' ')

/-- Lines between brackets, with commas between them; nothing but the brackets if there are
none. -/
def bracketed (left right : String) (level : Nat) (lines : List String) : String :=
  if lines.isEmpty then left ++ right
  else
    left ++ "\n" ++ ",\n".intercalate (lines.map (margin (level + 1) ++ ·)) ++ "\n" ++
      margin level ++ right

mutual

/-- The text of a value at a level. -/
def write (level : Nat) : Json → String
  | string s => quoted s
  | bool b => if b then "true" else "false"
  | array elems => bracketed "[" "]" level (writeAll (level + 1) elems)
  | object entries => bracketed "\x7b" "\x7d" level (writeEntries (level + 1) entries)

/-- The texts of a list of values. -/
def writeAll (level : Nat) : List Json → List String
  | [] => []
  | j :: js => write level j :: writeAll level js

/-- The texts of a list of entries. -/
def writeEntries (level : Nat) : List (String × Json) → List String
  | [] => []
  | (key, j) :: rest => (quoted key ++ ": " ++ write level j) :: writeEntries level rest

end

/-- The text of a value. -/
def pretty (j : Json) : String := write 0 j

end Json

end Memberwise.Text
