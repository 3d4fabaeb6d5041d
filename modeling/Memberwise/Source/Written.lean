import Memberwise.Source.Tree
import Memberwise.Text.Pieces

/-!
# Memberwise.Source.Written — types as tokens and text

A type that cannot be resolved is shown as it is written. Its tokens are printed and then drawn
together by seven replacements, so that `Vec < Option < u8 > >` reads `Vec<Option<u8>>`.
-/

namespace Memberwise.Source

/-! ## Tokens -/

/-- A bare word as a token. -/
def wordToken (word : String) : TokenTree := .ident (.plain word)

/-- Puts `separator` between the parts, and after the last one if it is trailing. -/
def separate (separator : List TokenTree) (trailing : Bool) :
    List (List TokenTree) → List TokenTree
  | [] => []
  | [part] => part ++ (if trailing then separator else [])
  | part :: parts => part ++ separator ++ separate separator trailing parts

/-- Whether the tokens are those of a lifetime alone. -/
def isLifetime : List TokenTree → Bool
  | [.lifetime _] => true
  | _ => false

/-- Lifetimes are printed before all other arguments. -/
def lifetimesFirst (parts : List (List TokenTree)) : List (List TokenTree) :=
  parts.filter isLifetime ++ parts.filter fun part => !isLifetime part

/-- Whether the last argument is a lifetime that is moved to the front. Then the argument that is
now the last keeps its comma. -/
def lifetimeEnds (parts : List (List TokenTree)) : Bool :=
  parts.getLast?.any isLifetime && !parts.all isLifetime

mutual

/-- The tokens of a type. -/
def SourceType.tokens : SourceType → List TokenTree
  | .path p => p.tokens
  | .reference lifetime mutable target =>
    TokenTree.operator "&" ++ (lifetime.map TokenTree.lifetime).toList ++
      (if mutable then [wordToken "mut"] else []) ++ target.tokens
  | .pointer mutable target =>
    TokenTree.operator "*" ++ [wordToken (if mutable then "mut" else "const")] ++ target.tokens
  | .traitObject marked bounds trailing =>
    (if marked then [wordToken "dyn"] else []) ++
      separate (TokenTree.operator "+") trailing (boundTokens bounds)
  | .tuple elems trailing =>
    [.group .parenthesis (separate (TokenTree.operator ",") trailing (typeTokens elems))]
  | .array elem length => [.group .bracket (elem.tokens ++ TokenTree.operator ";" ++ length)]
  | .slice elem => [.group .bracket elem.tokens]
  | .paren inner => [.group .parenthesis inner.tokens]
  | .function tokens => tokens
  | .never => TokenTree.operator "!"
  | .other tokens => tokens

/-- The tokens of each type of a list. -/
def typeTokens : List SourceType → List (List TokenTree)
  | [] => []
  | t :: ts => t.tokens :: typeTokens ts

/-- The tokens of a path. -/
def SourcePath.tokens : SourcePath → List TokenTree
  | .mk absolute segments =>
    (if absolute then TokenTree.operator "::" else []) ++
      separate (TokenTree.operator "::") false (segmentTokens segments)

/-- The tokens of each segment of a path. -/
def segmentTokens : List PathSegment → List (List TokenTree)
  | [] => []
  | .mk name arguments :: rest => (.ident name :: arguments.tokens) :: segmentTokens rest

/-- The tokens of the arguments of a segment. -/
def PathArguments.tokens : PathArguments → List TokenTree
  | .none => []
  | .angle turbofish args trailing =>
    let written := argumentTokens args
    (if turbofish then TokenTree.operator "::" else []) ++ TokenTree.operator "<" ++
      separate (TokenTree.operator ",") (trailing || lifetimeEnds written)
        (lifetimesFirst written) ++ TokenTree.operator ">"
  | .call inputs trailing none =>
    [.group .parenthesis (separate (TokenTree.operator ",") trailing (typeTokens inputs))]
  | .call inputs trailing (some output) =>
    .group .parenthesis (separate (TokenTree.operator ",") trailing (typeTokens inputs)) ::
      TokenTree.operator "->" ++ output.tokens

/-- The tokens of each argument of a list. -/
def argumentTokens : List GenericArgument → List (List TokenTree)
  | [] => []
  | .type t :: rest => t.tokens :: argumentTokens rest
  | .lifetime i :: rest => [.lifetime i] :: argumentTokens rest
  | .const tokens :: rest => tokens :: argumentTokens rest
  | .binding name own t :: rest =>
    (.ident name :: own.tokens ++ TokenTree.operator "=" ++ t.tokens) :: argumentTokens rest
  | .other tokens :: rest => tokens :: argumentTokens rest

/-- The tokens of each bound of a list. -/
def boundTokens : List TypeBound → List (List TokenTree)
  | [] => []
  | .lifetime i :: rest => [.lifetime i] :: boundTokens rest
  | .trait parenthesized maybe binder p :: rest =>
    let tokens := (if maybe then TokenTree.operator "?" else []) ++ binder ++ p.tokens
    (if parenthesized then [.group .parenthesis tokens] else tokens) :: boundTokens rest
  | .other tokens :: rest => tokens :: boundTokens rest

end

/-! ## Text -/

/-- The replacements that draw printed tokens together, in the order in which they are made. -/
def tightenings : List (String × String) :=
  [(" :: ", "::"), (":: ", "::"), (" <", "<"), ("< ", "<"), (" >", ">"), (" ,", ","), ("& ", "&")]

/-- The printed tokens of a type, drawn together. -/
def SourceType.written (t : SourceType) : String :=
  let printed := (TokenTree.textAll t.tokens).toList
  String.ofList (tightenings.foldl (fun cs (word, new) => Text.replaceAll word new cs) printed)

/-- The printed tokens of a path without the spaces between them. -/
def SourcePath.written (p : SourcePath) : String :=
  String.ofList ((TokenTree.textAll p.tokens).toList.filter (· != ' '))

end Memberwise.Source
