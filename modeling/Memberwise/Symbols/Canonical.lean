import Memberwise.Text.Pieces

/-!
# Memberwise.Symbols.Canonical — well-known paths

The names that every module sees, the attributes that need no import, the crates behind facades,
and the exports of modules that are often imported as a whole.
-/

namespace Memberwise

/-- The names that every module sees without importing them. -/
def preludeNames : List (String × String) :=
  [("Option", "::core::option::Option"),
   ("Result", "::core::result::Result"),
   ("String", "::std::string::String"),
   ("Vec", "::std::vec::Vec"),
   ("Box", "::std::boxed::Box"),
   ("Send", "::core::marker::Send"),
   ("Sync", "::core::marker::Sync"),
   ("Sized", "::core::marker::Sized"),
   ("Unpin", "::core::marker::Unpin"),
   ("Copy", "::core::marker::Copy"),
   ("Clone", "::core::clone::Clone"),
   ("Default", "::core::default::Default"),
   ("Drop", "::core::ops::Drop"),
   ("Fn", "::core::ops::Fn"),
   ("FnMut", "::core::ops::FnMut"),
   ("FnOnce", "::core::ops::FnOnce"),
   ("Iterator", "::core::iter::Iterator"),
   ("PartialEq", "::core::cmp::PartialEq"),
   ("Eq", "::core::cmp::Eq"),
   ("PartialOrd", "::core::cmp::PartialOrd"),
   ("Ord", "::core::cmp::Ord"),
   ("AsRef", "::core::convert::AsRef"),
   ("AsMut", "::core::convert::AsMut"),
   ("From", "::core::convert::From"),
   ("Into", "::core::convert::Into"),
   ("ToOwned", "::std::borrow::ToOwned"),
   ("ToString", "::std::string::ToString")]

/-- The types of the language, which have no path. -/
def primitiveTypes : List String :=
  ["bool", "char", "str", "i8", "i16", "i32", "i64", "i128", "isize", "u8", "u16", "u32", "u64",
   "u128", "usize", "f32", "f64"]

/-- The canonical path of a name that every module sees. -/
def wellKnown? (name : String) : Option String :=
  if primitiveTypes.contains name then some name else preludeNames.lookup name

/-- The attributes and derives that need no import. -/
def builtinAttributes : List String :=
  ["derive", "repr", "allow", "warn", "deny", "forbid", "expect", "cfg", "cfg_attr", "doc",
   "inline", "must_use", "non_exhaustive", "deprecated", "automatically_derived", "Debug", "Clone",
   "Copy", "PartialEq", "Eq", "PartialOrd", "Ord", "Hash", "Default"]

/-- The canonical path of an attribute that needs no import. -/
def builtinAttribute? (name : String) : Option String :=
  if builtinAttributes.contains name then some ("::core::prelude::v1::" ++ name) else none

/-- The types that refer to data elsewhere. -/
def referenceTypes : List String :=
  ["str", "::std::string::String", "::std::vec::Vec", "::std::boxed::Box", "::std::rc::Rc",
   "::std::rc::Weak", "::std::sync::Arc", "::std::sync::Weak", "::std::collections::HashMap",
   "::std::collections::HashSet", "::std::collections::BTreeMap", "::std::collections::BTreeSet",
   "::std::collections::VecDeque", "::std::collections::LinkedList",
   "::std::collections::BinaryHeap", "::std::path::PathBuf", "::std::ffi::OsString",
   "::std::ffi::CString", "::std::borrow::Cow", "::core::ptr::NonNull"]

/-- The paths through which items are reached, with the paths where they are defined. -/
def facades : List (String × String) :=
  [("::std::option::", "::core::option::"),
   ("::std::result::", "::core::result::"),
   ("::std::any::", "::core::any::"),
   ("::std::marker::", "::core::marker::"),
   ("::std::ops::", "::core::ops::"),
   ("::std::ptr::", "::core::ptr::"),
   ("::std::cmp::", "::core::cmp::"),
   ("::std::num::", "::core::num::"),
   ("::std::cell::", "::core::cell::"),
   ("::std::convert::", "::core::convert::"),
   ("::std::iter::", "::core::iter::"),
   ("::std::time::Duration", "::core::time::Duration"),
   ("::alloc::string::", "::std::string::"),
   ("::alloc::vec::", "::std::vec::"),
   ("::alloc::boxed::", "::std::boxed::"),
   ("::alloc::rc::", "::std::rc::"),
   ("::alloc::sync::", "::std::sync::"),
   ("::alloc::borrow::", "::std::borrow::"),
   ("::alloc::ffi::", "::std::ffi::"),
   ("::alloc::collections::", "::std::collections::"),
   ("::std::collections::hash_map::", "::std::collections::"),
   ("::std::collections::hash_set::", "::std::collections::"),
   ("::std::collections::btree_map::", "::std::collections::"),
   ("::std::collections::btree_set::", "::std::collections::"),
   ("::std::collections::vec_deque::", "::std::collections::"),
   ("::std::collections::linked_list::", "::std::collections::"),
   ("::std::collections::binary_heap::", "::std::collections::"),
   ("::propgroup::prelude::", "::propgroup::")]

/-- A path with the start of the first facade that it goes through replaced. -/
def definingPath (path : String) : String :=
  (facades.findSome? fun (facade, home) => (Text.dropStart? facade path).map (home ++ ·)).getD path

/-- What the runtime library exports. -/
def runtimeExports : List String :=
  ["PropertyMap", "MaybeAbsent", "PropertyTable", "TypeIdentity", "Groups", "group_by",
   "names_match"]

/-- The external modules whose exports are known. -/
def knownModules : List (String × List String) :=
  [("::propgroup", runtimeExports), ("::propgroup::prelude", runtimeExports)]

/-- The canonical path of a name that an external module is known to export. -/
def knownExport? (module name : String) : Option String := do
  let exports ← knownModules.lookup module
  if exports.contains name then some (definingPath (module ++ "::" ++ name)) else none

end Memberwise
