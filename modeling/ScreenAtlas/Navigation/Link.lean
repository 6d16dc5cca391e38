import ScreenAtlas.Navigation.Pattern
import ScreenAtlas.Script.Expression
import ScreenAtlas.Script.FileKind

/-!
# Links of a source

In a parsed source a link is a call of a navigation function with a literal first
argument, or a link element with a literal target. When no such link is found, or
the source does not parse, the links are read off the text.
-/
namespace ScreenAtlas.Navigation

open ScreenAtlas.Script

/-- The functions that lead to another screen. -/
def navigationFunctions : List String :=
  ["navigate", "navigateTo", "redirect", "push", "replace", "history.push", "history.replace",
    "router.push", "router.replace", "router.navigate", "navigation.navigate", "navigation.push"]

/-- The attributes that hold the target of a link element. -/
def targetAttributes (element : String) : List String :=
  if element == "Link" || element == "NavLink" then ["to", "href"]
  else if element == "a" then ["href"]
  else []

/-- The literal target of a call of a navigation function. -/
def callTarget? (parsed : Parsed) (call : Node) : Option String := do
  let callee ← parsed.callee? call
  if navigationFunctions.contains callee then parsed.literal? call.firstArgument? else none

/-- The literal target of a link element: the first target attribute it has
counts, whether it is literal or not. -/
def elementTarget? (parsed : Parsed) (element : Node) : Option String := do
  let attributes := parsed.attributes element
  let names := targetAttributes (String.ofList (parsed.elementName element))
  let value ← names.findSome? fun name => attributes.lookup name
  parsed.literal? value

/-- The literal target of a node. -/
def target? (parsed : Parsed) (node : Node) : Option String :=
  if node.kind == "call_expression" then callTarget? parsed node
  else if node.isElement then elementTarget? parsed node
  else none

/-- The links of a parsed source in the order of the tree. -/
def parsedLinks (parsed : Parsed) : List String :=
  internalTargets (parsed.nodes.filterMap (target? parsed))

/-- The links of a source: those of its tree, or when there are none, those that
the text spells out. -/
def linksOf (parsed : Option Parsed) (content : String) : List String :=
  match (parsed.map parsedLinks).getD [] with
  | [] => spelledLinks content
  | links => links

/-- The links of a file. -/
def links (reading : Reading) (path content : String) : List String :=
  linksOf (reading.parsed? (dialectOf path) content) content

end ScreenAtlas.Navigation
