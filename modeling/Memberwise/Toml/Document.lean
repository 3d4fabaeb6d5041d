import Memberwise.Toml.Lexeme

/-!
# Memberwise.Toml.Document — reading a settings file

A file is a list of statements: a header that opens a table, a header that adds a table to an
array, or a key with a value. The statements build a tree of tables, in which

* no key is given twice,
* a table is opened at most once, though its inner tables may be opened before it,
* a table that a dotted key made is not opened at all, and
* a table written in braces is closed for good.
-/

namespace Memberwise.Toml

/-! ## Values -/

/-- Whether a character can stand in a number, date, time or truth value. -/
def isScalarChar (c : Char) : Bool :=
  c.isAlphanum || c == '_' || c == '-' || c == '+' || c == '.' || c == ':'

/-- A value without brackets and quotes. -/
def scalar? : Reads Value := fun cs =>
  let body := String.ofList (cs.takeWhile isScalarChar)
  let rest := cs.dropWhile isScalarChar
  if body.isEmpty then none
  else if body = "true" then some (.bool true, rest)
  else if body = "false" then some (.bool false, rest)
  else some (.scalar body, rest)

/-- Puts a value under a dotted key into the entries of a table in braces. -/
def putValue : List String → Value → List (String × Value) → Option (List (String × Value))
  | [], _, _ => none
  | [key], v, entries => if (entries.lookup key).isSome then none else some (entries ++ [(key, v)])
  | key :: keys, v, entries =>
    match entries.lookup key with
    | none => do return entries ++ [(key, .table (← putValue keys v []))]
    | some (.table inner) => do
      let new ← putValue keys v inner
      return entries.map fun (k, old) => if k == key then (k, .table new) else (k, old)
    | some _ => none

mutual

/-- A value, nested at most `fuel` deep. -/
def valueFrom? : Nat → Reads Value
  | 0, _ => none
  | fuel + 1, cs =>
    match cs with
    | '[' :: rest => elemsFrom? fuel [] (skipGaps rest)
    | '\x7b' :: rest => entriesFrom? fuel [] (skipGaps rest)
    | _ =>
      match string? cs with
      | some (s, rest) => some (.string s, rest)
      | none => scalar? cs

/-- The elements of an array after those in `done`, newest first. A comma may end the list. -/
def elemsFrom? : Nat → List Value → Reads Value
  | 0, _, _ => none
  | fuel + 1, done, cs =>
    match cs with
    | ']' :: rest => some (.array done.reverse, rest)
    | _ =>
      match valueFrom? fuel cs with
      | none => none
      | some (v, rest) =>
        match skipGaps rest with
        | ',' :: rest => elemsFrom? fuel (v :: done) (skipGaps rest)
        | ']' :: rest => some (.array (v :: done).reverse, rest)
        | _ => none

/-- The entries of a table in braces after those in `done`. A comma may end the list. -/
def entriesFrom? : Nat → List (String × Value) → Reads Value
  | 0, _, _ => none
  | fuel + 1, done, cs =>
    match cs with
    | '\x7d' :: rest => some (.table done, rest)
    | _ =>
      match key? cs with
      | some (key, '=' :: rest) =>
        match valueFrom? fuel (skipBlanks rest) with
        | none => none
        | some (v, rest) =>
          match putValue key v done with
          | none => none
          | some done =>
            match skipGaps rest with
            | ',' :: rest => entriesFrom? fuel done (skipGaps rest)
            | '\x7d' :: rest => some (.table done, rest)
            | _ => none
      | _ => none

end

/-! ## Statements -/

/-- A statement of a file. -/
inductive Statement where
  /-- `[a.b]` -/
  | header (key : List String)
  /-- `[[a.b]]` -/
  | arrayHeader (key : List String)
  /-- `a.b = v` -/
  | entry (key : List String) (v : Value)

/-- The statement at the start of a line. -/
def statement? (cs : List Char) : Option (Statement × List Char) :=
  match cs with
  | '[' :: '[' :: rest =>
    match key? rest with
    | some (key, ']' :: ']' :: rest) => some (.arrayHeader key, rest)
    | _ => none
  | '[' :: rest =>
    match key? rest with
    | some (key, ']' :: rest) => some (.header key, rest)
    | _ => none
  | _ =>
    match key? cs with
    | some (key, '=' :: rest) =>
      let rest := skipBlanks rest
      match valueFrom? (rest.length + 1) rest with
      | some (v, rest) => some (.entry key v, rest)
      | none => none
    | _ => none

/-- The statements of a file, at most `fuel` of them. Each ends with its line. -/
def statementsFrom? : Nat → List Char → Option (List Statement)
  | 0, _ => none
  | fuel + 1, cs =>
    match skipGaps cs with
    | [] => some []
    | cs =>
      match statement? cs with
      | none => none
      | some (s, rest) =>
        match skipComment (skipBlanks rest) with
        | [] => some [s]
        | rest =>
          match lineBreak? rest with
          | some rest => (s :: ·) <$> statementsFrom? fuel rest
          | none => none

/-- The statements of a file. A byte order mark at its start is passed over. -/
def statements? (text : String) : Option (List Statement) :=
  let cs := Token.dropMark text.toList
  statementsFrom? (cs.length + 1) cs

/-! ## Tables -/

/-- How a table came to be. -/
inductive Origin where
  /-- A table in it was opened. -/
  | implied
  /-- A dotted key goes through it. -/
  | dotted
  /-- It was opened. -/
  | opened
deriving DecidableEq

/-- What a key of an open table stands for. -/
inductive Node where
  | leaf (v : Value)
  | table (origin : Origin) (entries : List (String × Node))
  /-- An array of tables, newest first. -/
  | tables (newest : List (String × Node)) (older : List (List (String × Node)))

/-- The entries of a table. -/
abbrev Entries := List (String × Node)

/-- Sets a key that is there or not. -/
def set (key : String) (node : Node) (entries : Entries) : Entries :=
  if (entries.lookup key).isSome then
    entries.map fun (k, old) => if k == key then (k, node) else (k, old)
  else entries ++ [(key, node)]

/-- Puts a value under a dotted key. -/
def putEntry : List String → Value → Entries → Option Entries
  | [], _, _ => none
  | [key], v, entries =>
    if (entries.lookup key).isSome then none else some (set key (.leaf v) entries)
  | key :: keys, v, entries =>
    match entries.lookup key with
    | none => do return set key (.table .dotted (← putEntry keys v [])) entries
    | some (.table origin inner) =>
      if origin = .opened then none
      else do return set key (.table origin (← putEntry keys v inner)) entries
    | some _ => none

/-- Changes the table that a header names, along tables that are there or are made on the way. -/
def openAt (change : Option Node → Option Node) : List String → Entries → Option Entries
  | [], _ => none
  | [key], entries => do return set key (← change (entries.lookup key)) entries
  | key :: keys, entries =>
    match entries.lookup key with
    | none => do return set key (.table .implied (← openAt change keys [])) entries
    | some (.table origin inner) => do
      return set key (.table origin (← openAt change keys inner)) entries
    | some (.tables newest older) => do
      return set key (.tables (← openAt change keys newest) older) entries
    | some (.leaf _) => none

/-- Opens a table. -/
def openTable : Option Node → Option Node
  | none => some (.table .opened [])
  | some (.table .implied entries) => some (.table .opened entries)
  | some _ => none

/-- Adds a table to an array. -/
def addTable : Option Node → Option Node
  | none => some (.tables [] [])
  | some (.tables newest older) => some (.tables [] (newest :: older))
  | some _ => none

/-- Puts a value into the table that was opened last. -/
def putInto (key : List String) (v : Value) : Option Node → Option Node
  | some (.table origin entries) => do return .table origin (← putEntry key v entries)
  | some (.tables newest older) => do return .tables (← putEntry key v newest) older
  | _ => none

/-- Builds the tables of a file; `current` is the key of the table that was opened last. -/
def build : List String → List Statement → Entries → Option Entries
  | _, [], entries => some entries
  | _, .header key :: rest, entries => do build key rest (← openAt openTable key entries)
  | _, .arrayHeader key :: rest, entries => do build key rest (← openAt addTable key entries)
  | [], .entry key v :: rest, entries => do build [] rest (← putEntry key v entries)
  | current, .entry key v :: rest, entries => do
    build current rest (← openAt (putInto key v) current entries)

mutual

/-- A node as a value. -/
def Node.value : Node → Value
  | .leaf v => v
  | .table _ entries => .table (entryValues entries)
  | .tables newest older => .array ((.table (entryValues newest) :: tableValues older).reverse)

/-- Entries as values. -/
def entryValues : List (String × Node) → List (String × Value)
  | [] => []
  | (key, node) :: rest => (key, node.value) :: entryValues rest

/-- Tables as values. -/
def tableValues : List (List (String × Node)) → List Value
  | [] => []
  | entries :: rest => .table (entryValues entries) :: tableValues rest

end

/-- The entries of a file. -/
def parse (text : String) : Option (List (String × Value)) := do
  return entryValues (← build [] (← statements? text) [])

end Memberwise.Toml
