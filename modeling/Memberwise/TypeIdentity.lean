/-!
# Memberwise.TypeIdentity — types of values

The identity of a type is its canonical form. The name that a compiler gives the type goes with it
and tells a reader what the type is; two identities are compared without it.
-/

namespace Memberwise

/-- The identity of a type, with its name. -/
structure TypeIdentity where
  /-- The type in canonical form. -/
  type : String
  /-- The name of the type, which leads through the modules where the type is defined. -/
  name : String
deriving Repr

namespace TypeIdentity

/-- Identities are the same if their types are. -/
instance : BEq TypeIdentity where
  beq a b := a.type == b.type

instance : EquivBEq TypeIdentity where
  rfl := beq_self_eq_true (α := String) _
  symm := BEq.symm (α := String)
  trans := BEq.trans (α := String)

instance : Hashable TypeIdentity where
  hash a := hash a.type

instance : LawfulHashable TypeIdentity where
  hash_eq _ _ h := hash_eq (α := String) h

/-- A type of the language. -/
def primitive (name : String) : TypeIdentity := ⟨name, name⟩

/-- An external type, with the path that imports it and the path of the module where it is
defined. -/
def external (path definedAt : String) : TypeIdentity := ⟨"::" ++ path, definedAt⟩

/-- A generic type with its arguments. -/
def applied (head : TypeIdentity) (args : List TypeIdentity) : TypeIdentity :=
  let withArgs (text : String) (texts : List String) : String :=
    text ++ "<" ++ ", ".intercalate texts ++ ">"
  ⟨withArgs head.type (args.map type), withArgs head.name (args.map name)⟩

/-- Types with texts around and between them. -/
def enclosed (left right : String) (elems : List TypeIdentity) : TypeIdentity :=
  let between (texts : List String) : String := left ++ ", ".intercalate texts ++ right
  ⟨between (elems.map type), between (elems.map name)⟩

/-- `(A, B)` -/
def tuple (elems : List TypeIdentity) : TypeIdentity := enclosed "(" ")" elems

/-- `[T; n]` -/
def array (elem : TypeIdentity) (length : Nat) : TypeIdentity :=
  enclosed "[" ("; " ++ toString length ++ "]") [elem]

/-- `[T]` -/
def slice (elem : TypeIdentity) : TypeIdentity := enclosed "[" "]" [elem]

/-- `&T` -/
def reference (target : TypeIdentity) : TypeIdentity := enclosed "&" "" [target]

/-- `dyn T` -/
def traitObject (bound : TypeIdentity) : TypeIdentity := enclosed "dyn " "" [bound]

/-- Owned text. -/
def string : TypeIdentity := external "std::string::String" "alloc::string::String"

/-- `Option<T>` -/
def option (t : TypeIdentity) : TypeIdentity :=
  applied (external "core::option::Option" "core::option::Option") [t]

/-- `Vec<T>` -/
def vec (t : TypeIdentity) : TypeIdentity :=
  applied (external "std::vec::Vec" "alloc::vec::Vec") [t]

/-- `Box<T>` -/
def box (t : TypeIdentity) : TypeIdentity :=
  applied (external "std::boxed::Box" "alloc::boxed::Box") [t]

/-- `Arc<T>` -/
def arc (t : TypeIdentity) : TypeIdentity :=
  applied (external "std::sync::Arc" "alloc::sync::Arc") [t]

/-- `HashMap<K, V>` -/
def hashMap (key value : TypeIdentity) : TypeIdentity :=
  applied (external "std::collections::HashMap" "std::collections::hash::map::HashMap") [key, value]

/-- The trait that every type has. -/
def any : TypeIdentity := external "core::any::Any" "core::any::Any"

end TypeIdentity

end Memberwise
