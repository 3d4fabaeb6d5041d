/-!
# Memberwise.Toml.Value — values of a settings file

The values that a TOML file can hold. Numbers, dates and times are kept as they are written, since
no setting takes one.
-/

namespace Memberwise.Toml

/-- A value. -/
inductive Value where
  | string (s : String)
  | bool (b : Bool)
  /-- A number, date or time as it is written. -/
  | scalar (text : String)
  | array (elems : List Value)
  | table (entries : List (String × Value))

namespace Value

/-- The text of a string. -/
def string? : Value → Option String
  | string s => some s
  | _ => none

/-- The value of a truth value. -/
def bool? : Value → Option Bool
  | bool b => some b
  | _ => none

/-- The texts of an array of strings. -/
def strings? : Value → Option (List String)
  | array elems => elems.mapM string?
  | _ => none

/-- Whether the value is an array or table without content. -/
def isHollow : Value → Bool
  | array elems => elems.isEmpty
  | table entries => entries.isEmpty
  | _ => false

end Value

end Memberwise.Toml
