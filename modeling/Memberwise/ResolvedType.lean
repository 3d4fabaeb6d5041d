/-!
# Memberwise.ResolvedType — types in canonical form

A resolved type names every type by its canonical path, so that two spellings of one type give the
same value and the same text. Function pointers and the never type are kept as text.
-/

namespace Memberwise

/-- Whether values of a named type are stored inline or refer to data elsewhere. -/
inductive TypeKind where
  | value
  | reference
deriving DecidableEq, Repr

mutual

/-- A type in canonical form. -/
inductive ResolvedType where
  /-- A named type, such as `::std::vec::Vec<u8>`. -/
  | path (path : String) (args : List GenericArg) (kind : TypeKind)
  /-- `&'a mut T` -/
  | reference (lifetime : Option String) (mutable : Bool) (inner : ResolvedType)
  /-- `*const T` or `*mut T` -/
  | pointer (mutable : Bool) (inner : ResolvedType)
  /-- `dyn A + B`, each bound as its text. -/
  | traitObject (bounds : List String)
  /-- `(A, B)` -/
  | tuple (elems : List ResolvedType)
  /-- `[T; N]` -/
  | array (elem : ResolvedType) (length : String)
  /-- `[T]` -/
  | slice (elem : ResolvedType)
  /-- A type that is kept as it is written. -/
  | verbatim (text : String)

/-- A generic argument of a named type. -/
inductive GenericArg where
  | type (t : ResolvedType)
  | lifetime (name : String)
  | const (text : String)
  /-- `Item = T` -/
  | binding (name : String) (t : ResolvedType)

end

/-- The canonical path of the type that every value can be seen as. -/
def topPath : String := "::core::any::Any"

/-- The canonical path of the wrapper for values that may be missing. -/
def optionPath : String := "::core::option::Option"

/-- The traits that a trait object can have beside its main one. -/
def autoTraits : List String :=
  ["::core::marker::Send", "::core::marker::Sync", "::core::marker::Unpin"]

/-! ## Text -/

mutual

/-- The text of a type. -/
def ResolvedType.text : ResolvedType → String
  | .path path args _ =>
    if args.isEmpty then path else path ++ "<" ++ ", ".intercalate (argTexts args) ++ ">"
  | .reference lifetime mutable inner =>
    "&" ++ (lifetime.map (· ++ " ")).getD "" ++ (if mutable then "mut " else "") ++ inner.text
  | .pointer mutable inner => "*" ++ (if mutable then "mut" else "const") ++ " " ++ inner.text
  | .traitObject bounds => "dyn " ++ " + ".intercalate bounds
  | .tuple elems =>
    "(" ++ ", ".intercalate (typeTexts elems) ++ (if elems.length = 1 then ",)" else ")")
  | .array elem length => "[" ++ elem.text ++ "; " ++ length ++ "]"
  | .slice elem => "[" ++ elem.text ++ "]"
  | .verbatim text => text

/-- The texts of a list of types. -/
def typeTexts : List ResolvedType → List String
  | [] => []
  | t :: ts => t.text :: typeTexts ts

/-- The text of a generic argument. -/
def GenericArg.text : GenericArg → String
  | .type t => t.text
  | .lifetime name => name
  | .const text => text
  | .binding name t => name ++ " = " ++ t.text

/-- The texts of a list of arguments. -/
def argTexts : List GenericArg → List String
  | [] => []
  | a :: as => a.text :: argTexts as

end

/-! ## Questions -/

namespace GenericArg

/-- The type that is the argument, if it is one. -/
def type? : GenericArg → Option ResolvedType
  | type t => some t
  | _ => none

end GenericArg

namespace ResolvedType

/-- Whether the type is `dyn Any`, perhaps with lifetimes and auto traits. -/
def isTop : ResolvedType → Bool
  | traitObject bounds =>
    bounds.filter (fun b => b.toList.head? != some '\'' && !autoTraits.contains b) == [topPath]
  | _ => false

/-- Whether values of the type refer to data elsewhere. -/
def isReferenceLike : ResolvedType → Bool
  | path _ _ kind => kind = .reference
  | reference .. | pointer .. | traitObject _ | slice _ => true
  | tuple _ | array .. | verbatim _ => false

/-- The `T` of `Option<T>`. -/
def optionInner : ResolvedType → Option ResolvedType
  | path p args _ =>
    if p = optionPath then
      match args.filterMap GenericArg.type? with
      | [inner] => some inner
      | _ => none
    else none
  | _ => none

end ResolvedType

end Memberwise
