import Memberwise.Source.Tree

/-!
# Memberwise.Symbols.Import — what a `use` declaration binds

A `use` tree binds names to paths. A glob binds every name of a module. A name `_` binds nothing,
and `self` at the end of a path stands for the path before it.
-/

namespace Memberwise

open Source

/-- The path that an import or a written name stands for. -/
structure NamePath where
  absolute : Bool
  segments : List String
deriving DecidableEq, Repr

/-- A binding of a `use` declaration. -/
inductive Binding where
  | named (name : String) (path : NamePath)
  | glob (path : NamePath)
deriving DecidableEq, Repr

namespace Source.UseTree

mutual

/-- What a tree binds; `outer` are the segments before it. -/
def bindings (absolute : Bool) (outer : List String) : UseTree → List Binding
  | path i rest => bindings absolute (outer ++ [i.name]) rest
  | name i =>
    if i.name = "self" then
      match outer.getLast? with
      | some last => [.named last ⟨absolute, outer⟩]
      | none => []
    else [.named i.name ⟨absolute, outer ++ [i.name]⟩]
  | rename i new =>
    if new.name = "_" then []
    else [.named new.name ⟨absolute, if i.name = "self" then outer else outer ++ [i.name]⟩]
  | glob => if outer.isEmpty then [] else [.glob ⟨absolute, outer⟩]
  | group trees => bindingsAll absolute outer trees

/-- What a list of trees binds. -/
def bindingsAll (absolute : Bool) (outer : List String) : List UseTree → List Binding
  | [] => []
  | tree :: trees => bindings absolute outer tree ++ bindingsAll absolute outer trees

end

end Source.UseTree

/-- What an item binds without declaring it. The names of external crates keep their `r#`. -/
def itemBindings : Item → List Binding
  | .use absolute tree => tree.bindings absolute []
  | .externCrate i new =>
    let bound := (new.getD i).text
    if bound = "self" || bound = "_" then [] else [.named bound ⟨true, [i.text]⟩]
  | _ => []

end Memberwise
