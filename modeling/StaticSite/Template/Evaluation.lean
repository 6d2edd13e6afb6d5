import StaticSite.Template.Lookup
import StaticSite.Template.Tree
/-!
# StaticSite.Template.Evaluation

What a template shows of a context. The element of a loop is seen by two kinds of marker only: a
plain interpolation and a conditional whose paths start with `item.`. Everything else in the body of
a loop, fallbacks and the paths of inner loops included, is looked up in the context and shows the
same for every element.
-/

set_option autoImplicit false

namespace StaticSite

/-- What the paths of a template refer to. -/
structure Scope where
  /-- The context of the page. -/
  root : Value
  /-- The element of the innermost loop, inside of loops. -/
  element : Option Value

namespace Scope

/-- The element of the innermost loop and the path below it, if the path refers to it. -/
def elementPath? (scope : Scope) (path : String) : Option (Value × String) :=
  match scope.element, StaticSite.elementPath? path with
  | some element, some rest => some (element, rest)
  | _, _ => none

/-- The value that a plain interpolation shows. -/
def interpolated (scope : Scope) (path : String) : Value :=
  match scope.elementPath? path with
  | some (element, rest) => element.walk (segments rest)
  | none => scope.root.resolve path

/-- The value that a conditional tests. -/
def condition (scope : Scope) (path : String) : Value :=
  match scope.elementPath? path with
  | some (element, rest) => element.resolve rest
  | none => scope.root.resolve path

end Scope

/-- What a fallback shows. -/
def Fallback.text (root : Value) : Fallback → List Char
  | .literal text => text
  | .path other => (root.resolve other).renderText

/-- What an interpolation shows. -/
def interpolate (scope : Scope) (path : String) : Option Fallback → List Char
  | none => (scope.interpolated path).renderText
  | some fallback =>
    let value := scope.root.resolve path
    if value.isTruthy then value.text else fallback.text scope.root

mutual

/-- What a node shows. -/
def Node.eval (scope : Scope) : Node → List Char
  | .text text => text
  | .interpolation path fallback => interpolate scope path fallback
  | .conditional path body =>
    if (scope.condition path).isTruthy then evalNodes scope body else []
  | .loop path body =>
    match (scope.root.resolve path).items? with
    | some items => items.flatMap fun item => evalNodes ⟨scope.root, some item⟩ body
    | none => []

/-- What nodes show, one after the other. -/
def evalNodes (scope : Scope) : List Node → List Char
  | [] => []
  | node :: rest => node.eval scope ++ evalNodes scope rest

end

/-- What a template shows of a context. -/
def substitute (source : List Char) (context : Value) : List Char :=
  evalNodes ⟨context, none⟩ (parseTemplate source)

end StaticSite
