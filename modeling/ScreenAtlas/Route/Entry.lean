import ScreenAtlas.Route.Path

/-!
# Route declarations

A declaration is one route as it stands in a source file: its raw path, the span
of the whole declaration and what is rendered for it. What is rendered decides
two things, the component's name and whether the route is a screen of its own:
redirects never are, a deferred wrapper counts as what it wraps, and a layout
wrapper around nothing recognisable is left out.
-/
namespace ScreenAtlas.Route

/-- One route declaration. The span is counted in the units of the pass that
found it. -/
structure Declaration where
  rawPath : String
  start : Int
  stop : Int
  component : Option String
  skip : Bool
  deriving DecidableEq, Repr

/-- The length of a declaration's span. -/
def Declaration.span (declaration : Declaration) : Int := declaration.stop - declaration.start

/-- A route that can be navigated to. -/
structure Target where
  path : String
  component : Option String
  deriving DecidableEq, Repr

/-- Elements that send the visitor somewhere else. -/
def redirects : List String := ["Navigate", "Redirect"]

/-- Wrappers that only postpone the rendering of what they hold. -/
def deferredWrappers : List String := ["Suspense", "React.Suspense"]

/-- Wrappers that lay out the routes below them. -/
def layoutWrappers : List String :=
  ["ProtectedRoute", "AdminRoute", "MainLayout", "AdminLayout", "ErrorBoundary"]

/-- The component that an element stands for, and whether its route is left out.
`top` is the element's name and `inner` the name of the first element in it. -/
def classify (top inner : Option String) (layouts : List String) : Option String × Bool :=
  match top with
  | none => (none, false)
  | some name =>
    if redirects.contains name then (none, true)
    else
      let component := if deferredWrappers.contains name then inner else some name
      if layouts.contains name && (component.isNone || component == some name) then
        (component, true)
      else (component, false)

/-- Adds a value to a list unless it is already there. -/
def addNew {α : Type} [BEq α] (found : List α) (value : α) : List α :=
  if found.contains value then found else found ++ [value]

/-- The distinct values of a list in order of first appearance. -/
def distinct {α : Type} [BEq α] (values : List α) : List α := values.foldl addNew []

end ScreenAtlas.Route
