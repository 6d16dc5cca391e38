import ScreenAtlas.Script.Grammar.Type

/-!
# Bindings and parameters

What a declaration binds: a name, or a pattern that takes an object or a list
apart. The children of a pattern are the names in it and the values that stand in
for what is missing.
-/
namespace ScreenAtlas.Script.Grammar

/-- The value that stands in for a missing one. -/
def standIn (g : Table) : Rule (List Node) := do
  match ← perhaps (mark "=") with
  | none => return []
  | some _ => return [← g.rule .expression]

/-- A binding with the value that stands in for it. -/
def bindingWithStandIn (g : Table) : Rule Node := do
  let start ← nextToken
  let target ← g.rule .binding
  match ← standIn g with
  | [] => return target
  | values => nodeFrom "assignment_pattern" start (target :: values)

/-- What is left over, bound to one name. -/
def restBinding (g : Table) : Rule Node := node "rest_pattern" do
  mark "..."
  return [← g.rule .binding]

/-- A member of a pattern in braces. -/
def patternMember (g : Table) : Rule Node := choose [
  restBinding g,
  node "pair_pattern" do
    let key ← memberName g
    mark ":"
    let target ← bindingWithStandIn g
    return [key.inRole "key", target.inRole "value"],
  node "object_assignment_pattern" do
    let name ← identifier g
    mark "="
    return [name, ← g.rule .expression],
  Node.asKind "shorthand_property_identifier_pattern" <$> identifier g]

/-- A comma, and further commas where an element is left out. -/
def commas (g : Table) : Rule Unit := do
  mark ","
  let _ ← many (mark ",") g.limit

/-- A pattern in brackets. -/
def listPattern (g : Table) : Rule Node := node "array_pattern" do
  mark "["
  let _ ← many (mark ",") g.limit
  let elements ← separated (restBinding g <|> bindingWithStandIn g) (commas g) g.limit
  mark "]"
  return elements

/-- A pattern in braces. -/
def objectPattern (g : Table) : Rule Node := node "object_pattern" do
  mark "\x7b"
  let members ← separated (patternMember g) (mark ",") g.limit
  mark "\x7d"
  return members

/-- What a declaration binds. -/
def bindingRule (g : Table) : Rule Node :=
  choose [identifier g, objectPattern g, listPattern g, leaf "this" (word "this")]

/-- A decorator. -/
def decorator (g : Table) : Rule Node := node "decorator" do
  mark "@"
  return [← g.rule .operand]

/-- A word in front of a declaration or a member that something else follows. -/
def modifier (words : List String) : Rule Unit := do
  anyWord words
  refuse (choose (["=", ",", ")", ":", "?", ";", "(", "<", "\x7d", "!"].map mark))

/-- One parameter. -/
def parameter (g : Table) : Rule Node := node "required_parameter" do
  let decorators ← many (decorator g) g.limit
  let _ ← many (modifier ["public", "private", "protected", "readonly", "override"]) g.limit
  let target ← restBinding g <|> g.rule .binding
  let _ ← perhaps (mark "?")
  let _ ← perhaps (annotatedType g)
  return decorators ++ target :: (← standIn g)

/-- Parameters in parentheses. -/
def parametersRule (g : Table) : Rule Node := node "formal_parameters" do
  mark "("
  let parameters ← separated (parameter g) (mark ",") g.limit
  mark ")"
  return parameters

end ScreenAtlas.Script.Grammar
