import Memberwise.Token

/-!
# Memberwise.Source.Tree — types, attributes and items as they are written

The parts of a source file that naming and resolution look at. Expressions are kept as the tokens
they are written with, since they are only ever printed; so are function pointers and the few
forms of types that are never resolved. Everything else of a file, such as functions and
implementations, is an item without content.
-/

namespace Memberwise.Source

/-! ## Types and paths -/

mutual

/-- A type as it is written. A list that ends in a separator is marked `trailing`. -/
inductive SourceType where
  /-- A named type, such as `std::vec::Vec<u8>`. -/
  | path (p : SourcePath)
  /-- `&'a mut T` -/
  | reference (lifetime : Option Ident) (mutable : Bool) (target : SourceType)
  /-- `*const T` or `*mut T` -/
  | pointer (mutable : Bool) (target : SourceType)
  /-- `dyn A + B`; the leading word may be missing. -/
  | traitObject (marked : Bool) (bounds : List TypeBound) (trailing : Bool)
  /-- `(A, B)` -/
  | tuple (elems : List SourceType) (trailing : Bool)
  /-- `[T; N]` -/
  | array (elem : SourceType) (length : List TokenTree)
  /-- `[T]` -/
  | slice (elem : SourceType)
  /-- `(T)` -/
  | paren (inner : SourceType)
  /-- A function pointer. -/
  | function (tokens : List TokenTree)
  /-- `!` -/
  | never
  /-- A form that is never resolved: a qualified path, `impl A`, `_` or a macro. -/
  | other (tokens : List TokenTree)

/-- A path; an absolute one starts with `::`. -/
inductive SourcePath where
  | mk (absolute : Bool) (segments : List PathSegment)

/-- A segment of a path. -/
inductive PathSegment where
  | mk (name : Ident) (arguments : PathArguments)

/-- The arguments after a segment. -/
inductive PathArguments where
  | none
  /-- `<A, B>`, with `::` before it or not. -/
  | angle (turbofish : Bool) (args : List GenericArgument) (trailing : Bool)
  /-- `(A, B) -> C` -/
  | call (inputs : List SourceType) (trailing : Bool) (output : Option SourceType)

/-- An argument in angle brackets. -/
inductive GenericArgument where
  | type (t : SourceType)
  | lifetime (i : Ident)
  | const (tokens : List TokenTree)
  /-- `Item = T`; the bound name can have arguments of its own. -/
  | binding (name : Ident) (own : PathArguments) (t : SourceType)
  /-- A form that is never resolved, such as `Item: Bound`. -/
  | other (tokens : List TokenTree)

/-- A bound of a trait object. -/
inductive TypeBound where
  | lifetime (i : Ident)
  /-- A trait, with its parentheses, question mark and `for<...>` binder. -/
  | trait (parenthesized maybe : Bool) (binder : List TokenTree) (p : SourcePath)
  /-- A form that is never resolved. -/
  | other (tokens : List TokenTree)

end

namespace SourcePath

/-- Whether the path starts with `::`. -/
def absolute : SourcePath → Bool
  | mk absolute _ => absolute

/-- The segments of the path. -/
def segments : SourcePath → List PathSegment
  | mk _ segments => segments

end SourcePath

namespace PathSegment

/-- The name of the segment. -/
def name : PathSegment → Ident
  | mk name _ => name

/-- The arguments of the segment. -/
def arguments : PathSegment → PathArguments
  | mk _ arguments => arguments

end PathSegment

/-- Whether there are no arguments. -/
def PathArguments.isNone : PathArguments → Bool
  | .none => true
  | _ => false

namespace SourcePath

/-- The names of the segments, without `r#`. -/
def names (p : SourcePath) : List String := p.segments.map fun s => s.name.name

/-- Whether no segment has arguments. -/
def isPlain (p : SourcePath) : Bool := p.segments.all fun s => s.arguments.isNone

/-- Whether the path is the single bare word `word`. -/
def isWord (p : SourcePath) (word : String) : Bool :=
  match p with
  | mk false [segment] => segment.arguments.isNone && segment.name.isWord word
  | _ => false

end SourcePath

/-! ## Attributes -/

/-- The content of an attribute. -/
inductive Meta where
  | path (p : SourcePath)
  /-- `path(...)`, with any kind of brackets. -/
  | list (p : SourcePath) (tokens : List TokenTree)
  /-- `path = value` -/
  | nameValue (p : SourcePath) (value : List TokenTree)

/-- The path of an attribute. -/
def Meta.name : Meta → SourcePath
  | path p => p
  | list p _ => p
  | nameValue p _ => p

/-! ## Items -/

/-- A generic parameter. -/
inductive GenericParam where
  | lifetime (name : Ident)
  | type (name : Ident)
  | const (name : Ident)
deriving DecidableEq

/-- A field of a struct. A field of a tuple struct has no name. -/
structure Field where
  attributes : List Meta
  name : Option Ident
  type : SourceType

/-- The fields of a struct. -/
inductive Fields where
  | named (fields : List Field)
  | unnamed (fields : List Field)
  | unit

/-- A struct declaration. -/
structure StructItem where
  attributes : List Meta
  name : Ident
  generics : List GenericParam
  fields : Fields

/-- The tree of a `use` declaration. -/
inductive UseTree where
  /-- `a::...` -/
  | path (name : Ident) (rest : UseTree)
  /-- `a` -/
  | name (name : Ident)
  /-- `a as b` -/
  | rename (name newName : Ident)
  /-- `*` -/
  | glob
  /-- `{a, b}` -/
  | group (trees : List UseTree)

/-- An item of a file or module. -/
inductive Item where
  | use (absolute : Bool) (tree : UseTree)
  | struct (s : StructItem)
  /-- An enum, union, trait or trait alias. -/
  | declared (name : Ident)
  /-- `type A<T> = ...;` -/
  | typeAlias (name : Ident) (params : List GenericParam) (target : SourceType)
  /-- A module in this file, or `mod m;`, whose content is elsewhere. -/
  | module (name : Ident) (content : Option (List Item))
  | externCrate (name : Ident) (rename : Option Ident)
  /-- An item that declares no type and imports nothing. -/
  | other

/-- What a derive is applied to. -/
inductive Derivable where
  | struct (s : StructItem)
  /-- An enum or a union. -/
  | other

end Memberwise.Source
