import ScreenAtlas.Route.Scanner
import ScreenAtlas.Script.Expression
import ScreenAtlas.Text.Case

/-!
# Routes in parsed sources

In a parsed source a route is either a `Route` element with a path, or an object
with a path and something to render. The text scan takes over when a source does
not parse.
-/
namespace ScreenAtlas.Route

open ScreenAtlas.Script

/-- The named members of an object, each with its value; of several members of
one name the first counts. -/
def objectMembers (parsed : Parsed) (node : Node) : List (String × Node) :=
  let members := node.namedChildren.filterMap fun child =>
    if child.kind == "pair" then do
      let key ← child.child? "key"
      let value ← child.child? "value"
      return (String.ofList (Text.trimOf Text.isQuote (parsed.textOf key)), value)
    else none
  members.foldl addFirst []

/-- A name, unless it is empty. -/
def nonEmpty? (name : List Char) : Option String :=
  if name.isEmpty then none else some (String.ofList name)

/-- The name of what is rendered and of the first element inside it. A plain name
counts when it starts with a capital. -/
def renderedNames (parsed : Parsed) (node : Option Node) : Option String × Option String :=
  match node with
  | none => (none, none)
  | some node =>
    if node.kind == "identifier" then
      let name := parsed.textOf node
      if (name.head?.map Text.isCapital).getD false then (some (String.ofList name), none)
      else (none, none)
    else if node.isElement then
      let inner := node.childElements.head?.bind fun child => nonEmpty? (parsed.elementName child)
      (nonEmpty? (parsed.elementName node), inner)
    else (none, none)

/-- The path and the rendered expression of a node that declares a route. -/
def declared? (parsed : Parsed) (node : Node) : Option (Option Node × Option Node) :=
  if node.isElement && parsed.elementName node == "Route".toList then do
    let attributes := parsed.attributes node
    let path ← attributes.lookup "path"
    return (path, (attributes.lookup "element").join)
  else if node.kind == "object" then do
    let members := objectMembers parsed node
    let path ← members.lookup "path"
    let rendered ← (members.lookup "element").or (members.lookup "Component")
    return (some path, some rendered)
  else none

/-- The declaration that a node makes, if its path is a literal. -/
def declarationOf? (layouts : List String) (parsed : Parsed) (node : Node) :
    Option Declaration := do
  let (path, rendered) ← declared? parsed node
  let rawPath ← parsed.literal? path
  let (top, inner) := renderedNames parsed (unwrap rendered)
  let (component, skip) := classify top inner layouts
  return {
    rawPath := trimmed rawPath
    start := node.span.start
    stop := node.span.stop
    component
    skip }

/-- The declarations of a parsed source in source order. -/
def treeDeclarations (layouts : List String) (parsed : Parsed) : List Declaration :=
  parsed.nodes.filterMap (declarationOf? layouts parsed)

/-- The routes that a text makes navigable when it is only scanned. -/
def scanTargets (layouts : List String) (basename : Option String) (content : List Char) :
    List Target :=
  (flatTargets layouts basename content).foldl addNew
    (resolve (scanDeclarations layouts content) basename)

/-- The routes of a source, from its tree when there is one and from its text
otherwise. -/
def recover (reading : Option Parsed) (layouts : List String) (content : String) : List Target :=
  let characters := content.toList
  let basename := findBasename characters
  match reading with
  | some parsed => resolve (treeDeclarations layouts parsed) basename
  | none => scanTargets layouts basename characters

end ScreenAtlas.Route
