import Memberwise.Symbols.Canonical
import Memberwise.Symbols.Table

/-!
# Memberwise.Symbols.Lookup — canonical paths of names

A name stands for what its module declares, else for what it imports by name, else for what one of
its globs brings in. Imports can lead to further imports, so a look-up may take a limited number of
steps; globs are followed only while enough steps are left.
-/

namespace Memberwise

/-- The number of steps that a look-up may take. -/
def maxSteps : Nat := 33

/-- The number of steps that have to be left for a glob to be followed. -/
def globSteps : Nat := 25

/-- A path with further segments. -/
def extend (base : String) (rest : List String) : String :=
  if rest.isEmpty then base else base ++ "::" ++ "::".intercalate rest

/-- The path of the ancestor that leading `super` segments reach, with the other segments. -/
def climb (scope : Scope) : List String → Option String
  | [] => some scope.path
  | segment :: rest =>
    if segment = "super" then do climb (← scope.parent) rest
    else some (extend scope.path (segment :: rest))

/-- The canonical form of a path written in `scope`, where `find` gives the canonical form of a
name. Only in an import, which is `alone`, a single unknown name is an external crate. -/
def canonicalWith (find : String → Option String) (scope : Scope) (alone : Bool) (p : NamePath) :
    Option String :=
  match p.segments with
  | [] => none
  | first :: rest =>
    if p.absolute then some (definingPath ("::" ++ "::".intercalate (first :: rest)))
    else if first = "crate" then some (definingPath (extend "crate" rest))
    else if first = "self" then some (definingPath (extend scope.path rest))
    else if first = "super" then climb scope (first :: rest)
    else if first = "Self" then none
    else
      match find first with
      | some found => some (definingPath (extend found rest))
      | none =>
        if rest.isEmpty then
          match wellKnown? first with
          | some path => some path
          | none => if alone then some (definingPath ("::" ++ first)) else none
        else some (definingPath (extend ("::" ++ first) rest))

namespace SymbolTable

/-- The canonical path of a name that a glob brings in, where `canonical` gives the module of the
glob and `search` looks the name up in a module of the file. An external module is asked only if
its exports are known. -/
def throughGlob (t : SymbolTable) (canonical : NamePath → Option String)
    (search : Scope → Option String) (name : String) (glob : NamePath) : Option String := do
  let target ← canonical glob
  match Scope.parse target with
  | some inner =>
    if (t.module? inner).isSome then search inner
    else knownExport? target name
  | none => knownExport? target name

/-- The canonical path of a name declared in or imported into `scope`, in at most a given number
of steps. -/
def lookup (t : SymbolTable) : Nat → Scope → String → Option String
  | 0, _, _ => none
  | 1, scope, name => do
    let m ← t.module? scope
    if m.declares name then some (scope.join name) else none
  | steps + 2, scope, name => do
    let m ← t.module? scope
    if m.declares name then some (scope.join name)
    else
      match m.import? name with
      | some path => canonicalWith (t.lookup (steps + 1) scope) scope true path
      | none =>
        if steps + 2 < globSteps then none
        else
          m.globs.findSome? <|
            t.throughGlob (canonicalWith (t.lookup (steps + 1) scope) scope true)
              (fun inner => t.lookup steps inner name) name

/-- The canonical form of a path written in `scope`. -/
def canonical (t : SymbolTable) (steps : Nat) (scope : Scope) (alone : Bool) (p : NamePath) :
    Option String :=
  if steps = 0 then none else canonicalWith (t.lookup steps scope) scope alone p

end SymbolTable

end Memberwise
