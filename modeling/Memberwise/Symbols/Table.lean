import Memberwise.Scope
import Memberwise.Symbols.Import

/-!
# Memberwise.Symbols.Table — the names of a file

The table of a file holds, for each module in it, the names that the module declares and imports.
Where something is declared twice, the later declaration counts.
-/

namespace Memberwise

open Source

/-- The value that the last entry for a key has. -/
def lookupLast {α β : Type} [BEq α] (key : α) (entries : List (α × β)) : Option β :=
  entries.reverse.lookup key

/-- The names of one module. -/
structure ModuleSymbols where
  imports : List (String × NamePath)
  globs : List NamePath
  types : List String
  modules : List String

/-- A type alias: the names of its type parameters, its target, and where it is declared. -/
structure Alias where
  params : List String
  target : SourceType
  scope : Scope

/-- The names of a file. Entries stand in the order of the file. -/
structure SymbolTable where
  modules : List (Scope × ModuleSymbols)
  aliases : List (String × Alias)
  localTypes : List String

/-! ## Indexing a module -/

/-- The import that a binding makes, if it is one of a name. -/
def Binding.named? : Binding → Option (String × NamePath)
  | named name path => some (name, path)
  | glob _ => none

/-- The path of a binding, if it is a glob. -/
def Binding.glob? : Binding → Option NamePath
  | named .. => none
  | glob path => some path

/-- The type that an item declares, an alias apart. -/
def declaredType? : Item → Option String
  | .struct s => some s.name.name
  | .declared i => some i.name
  | _ => none

/-- The name of the alias that an item declares. -/
def aliasName? : Item → Option String
  | .typeAlias i _ _ => some i.name
  | _ => none

/-- The name of the module that an item declares, in this file or elsewhere. -/
def moduleName? : Item → Option String
  | .module i _ => some i.name
  | _ => none

/-- The names of the type parameters. They keep their `r#`. -/
def typeParams (params : List GenericParam) : List String :=
  params.filterMap fun
    | .type i => some i.text
    | _ => none

/-- The entry of the alias that an item declares. -/
def aliasOf? (scope : Scope) : Item → Option (String × Alias)
  | .typeAlias i params target => some (scope.join i.name, ⟨typeParams params, target, scope⟩)
  | _ => none

/-- The names of a module. -/
def ModuleSymbols.ofItems (items : List Item) : ModuleSymbols where
  imports := (items.flatMap itemBindings).filterMap Binding.named?
  globs := (items.flatMap itemBindings).filterMap Binding.glob?
  types := items.filterMap fun i => (declaredType? i).or (aliasName? i)
  modules := items.filterMap moduleName?

/-! ## Indexing a file -/

namespace SymbolTable

/-- The table with no names. -/
def empty : SymbolTable := ⟨[], [], []⟩

/-- The entries of one table before those of another. -/
def append (a b : SymbolTable) : SymbolTable :=
  ⟨a.modules ++ b.modules, a.aliases ++ b.aliases, a.localTypes ++ b.localTypes⟩

/-- The entries of a module itself, without those of the modules in it. -/
def ofModule (scope : Scope) (items : List Item) : SymbolTable where
  modules := [(scope, .ofItems items)]
  aliases := items.filterMap (aliasOf? scope)
  localTypes := (items.filterMap declaredType?).map scope.join

mutual

/-- The entries of the module that an item holds, if it holds one. -/
def ofNested (scope : Scope) : Item → SymbolTable
  | .module i (some items) =>
    let inner := scope.child i.name
    append (ofModule inner items) (ofNestedAll inner items)
  | _ => empty

/-- The entries of the modules that a list of items holds. -/
def ofNestedAll (scope : Scope) : List Item → SymbolTable
  | [] => empty
  | item :: items => append (ofNested scope item) (ofNestedAll scope items)

end

/-- The table of a file whose items are in the module `root`. -/
def ofItems (root : Scope) (items : List Item) : SymbolTable :=
  append (ofModule root items) (ofNestedAll root items)

/-! ## Questions -/

/-- The names of a module of the file. -/
def module? (t : SymbolTable) (scope : Scope) : Option ModuleSymbols := lookupLast scope t.modules

/-- The alias with a canonical path. -/
def alias? (t : SymbolTable) (path : String) : Option Alias := lookupLast path t.aliases

/-- Whether a canonical path names a struct, enum, union or trait of the file. -/
def isLocalType (t : SymbolTable) (path : String) : Bool := t.localTypes.contains path

end SymbolTable

namespace ModuleSymbols

/-- Whether the module declares a type or module of a name. -/
def declares (m : ModuleSymbols) (name : String) : Bool :=
  m.types.contains name || m.modules.contains name

/-- The path that the module imports under a name. -/
def import? (m : ModuleSymbols) (name : String) : Option NamePath := lookupLast name m.imports

end ModuleSymbols

end Memberwise
