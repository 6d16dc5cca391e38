import ScreenAtlas.Script.Grammar.Binding
import ScreenAtlas.Script.Grammar.Markup

/-!
# Operands

An operand is a literal, a name, a function, a class, an enclosed expression or an
element, followed by calls, members and subscripts. Where an opening parenthesis
could start either the parameters of a function or an enclosed expression, the
text behind the matching parenthesis is looked at before the parameters are tried.
-/
namespace ScreenAtlas.Script.Grammar

/-- What the text is while the matching bracket is looked for. -/
inductive Lane where
  | code
  | quoted (closing : Char)
  | lineComment
  | blockComment

/-- The text behind the bracket that closes the `depth` open ones. -/
def behindBracket : Lane → Nat → List Char → Option (List Char)
  | _, _, [] => none
  | .quoted closing, depth, '\\' :: _ :: rest => behindBracket (.quoted closing) depth rest
  | .quoted closing, depth, c :: rest =>
    behindBracket
      (if c == closing || (c == '\n' && closing != '\x60') then .code else .quoted closing)
      depth rest
  | .lineComment, depth, c :: rest =>
    behindBracket (if c == '\n' then .code else .lineComment) depth rest
  | .blockComment, depth, '*' :: '/' :: rest => behindBracket .code depth rest
  | .blockComment, depth, _ :: rest => behindBracket .blockComment depth rest
  | .code, depth, '/' :: '/' :: rest => behindBracket .lineComment depth rest
  | .code, depth, '/' :: '*' :: rest => behindBracket .blockComment depth rest
  | .code, depth, c :: rest =>
    if c == '"' || c == '\'' || c == '\x60' then behindBracket (.quoted c) depth rest
    else if c == '(' || c == '[' || c == '\x7b' then behindBracket .code (depth + 1) rest
    else if c == ')' || c == ']' || c == '\x7d' then
      match depth with
      | 0 => none
      | 1 => some rest
      | inner + 1 => behindBracket .code inner rest
    else behindBracket .code depth rest

/-- The parenthesis that comes next can open the parameters of an arrow
function: an arrow or a type follows the matching one. -/
def parametersAhead : Rule Bool := do
  let here ← get
  match ← ahead with
  | '(' :: inner =>
    match behindBracket .code 1 inner with
    | none => return false
    | some rest =>
      match skipGap .space { here with rest } rest with
      | none => return false
      | some next => return ['=', '>'].isPrefixOf next.rest || [':'].isPrefixOf next.rest
  | _ => return false

/-- The block or the expression that an arrow function computes. -/
def arrowBody (g : Table) : Rule Node := do
  mark "=>"
  (do
    expect (mark "\x7b")
    g.rule .block) <|> g.rule .expression

/-- An arrow function with parameters in parentheses. -/
def arrowWithParameters (g : Table) : Rule (List Node) := do
  let _ ← perhaps (typeParameters g)
  require (← parametersAhead)
  let parameters ← g.rule .parameters
  let _ ← perhaps (annotatedType g)
  return [parameters.inRole "parameters", (← arrowBody g).inRole "body"]

/-- An arrow function with one bare parameter. -/
def arrowWithName (g : Table) : Rule (List Node) := do
  let name ← identifier g
  return [name.inRole "parameter", (← arrowBody g).inRole "body"]

/-- An arrow function. -/
def arrowFunction (g : Table) : Rule Node := node "arrow_function" do
  choose [
    do
      word "async"
      require !(← breakAhead)
      arrowWithParameters g <|> arrowWithName g,
    arrowWithParameters g,
    arrowWithName g]

/-- What follows the word that starts a function: the parameters, the type of the
result and the body. -/
def functionRest (g : Table) : Rule (List Node) := do
  let _ ← perhaps (typeParameters g)
  let parameters ← g.rule .parameters
  let _ ← perhaps (annotatedType g)
  return [parameters.inRole "parameters", (← g.rule .block).inRole "body"]

/-- The words that start a function; true when it is a generator. -/
def functionStart : Rule Bool := do
  let _ ← perhaps (do
    word "async"
    require !(← breakAhead))
  word "function"
  perhapsMark "*"

/-- A function as an operand. -/
def functionOperand (g : Table) : Rule Node := do
  let start ← nextToken
  let generator ← functionStart
  let name ← perhaps (identifier g)
  let rest ← functionRest g
  nodeFrom (if generator then "generator_function" else "function_expression") start
    ((name.map (Node.inRole "name")).toList ++ rest)

/-- What a class inherits from. -/
def heritage (g : Table) : Rule (List Node) := do
  let parents ← perhaps (do
    word "extends"
    let parents ← separated (do
      let parent ← g.rule .operand
      let _ ← perhaps (typeArguments g)
      return parent) (mark ",") g.limit
    require !parents.isEmpty
    return parents)
  let _ ← perhaps (do
    word "implements"
    separated (g.rule .type) (mark ",") g.limit)
  return parents.getD []

/-- What follows the word that starts a class. -/
def classRest (g : Table) : Rule (List Node) := do
  let name ← perhaps (do
    refuse (anyWord ["extends", "implements"])
    identifier g)
  let _ ← perhaps (typeParameters g)
  let parents ← heritage g
  return (name.map fun name => (name.asKind "type_identifier").inRole "name").toList ++ parents ++
    [(← g.rule .classBody).inRole "body"]

/-- A class as an operand. -/
def classOperand (g : Table) : Rule Node := node "class" do
  let decorators ← many (decorator g) g.limit
  word "class"
  return decorators ++ (← classRest g)

/-- An expression or everything of one, spread. -/
def spreadable (g : Table) : Rule Node :=
  (node "spread_element" do
    mark "..."
    return [← g.rule .expression]) <|> g.rule .expression

/-- A list in brackets; elements may be left out. -/
def listLiteral (g : Table) : Rule Node := node "array" do
  mark "["
  let _ ← many (mark ",") g.limit
  let elements ← separated (spreadable g) (commas g) g.limit
  mark "]"
  return elements

/-- The arguments of a call. -/
def callArguments (g : Table) : Rule Node := node "arguments" do
  mark "("
  let arguments ← separated (spreadable g) (mark ",") g.limit
  mark ")"
  return arguments

/-- A method of an object. -/
def objectMethod (g : Table) : Rule Node := node "method_definition" do
  let _ ← many (modifier ["async", "get", "set", "static"]) g.limit
  let _ ← perhaps (mark "*")
  let name ← memberName g
  let _ ← perhaps (mark "?")
  return name.inRole "name" :: (← functionRest g)

/-- A member of an object. -/
def objectMember (g : Table) : Rule Node := choose [
  node "spread_element" do
    mark "..."
    return [← g.rule .expression],
  node "pair" do
    let key ← memberName g
    mark ":"
    return [key.inRole "key", (← g.rule .expression).inRole "value"],
  objectMethod g,
  node "object_assignment_pattern" do
    let name ← identifier g
    mark "="
    return [name, ← g.rule .expression],
  Node.asKind "shorthand_property_identifier" <$> identifier g]

/-- An object in braces. -/
def objectLiteral (g : Table) : Rule Node := node "object" do
  mark "\x7b"
  let members ← separated (objectMember g) (commas g) g.limit
  mark "\x7d"
  return members

/-- An expression in parentheses, possibly with a type. -/
def parenthesized (g : Table) : Rule Node := node "parenthesized_expression" do
  mark "("
  let inner ← g.rule .expressions
  let _ ← perhaps (annotatedType g)
  mark ")"
  return [inner]

/-- A template text. -/
def templateText (g : Table) : Rule Node := template g (g.rule .expressions) "template_string"

/-- What a name reads as: some words stand for themselves. -/
def namedOperand (g : Table) : Rule Node := do
  let start ← nextToken
  let name ← anyName g.limit
  if ["this", "super", "null", "true", "false", "undefined"].contains name then
    nodeFrom name start []
  else
    require !(reserved.contains name)
    nodeFrom "identifier" start []

/-- The word that loads a module, called or asked about the module itself. -/
def moduleOperand : Rule Node := do
  let start ← nextToken
  word "import"
  (do
    mark "."
    word "meta"
    nodeFrom "meta_property" start []) <|> (do
    expect (mark "(")
    nodeFrom "import" start [])

/-- A member behind a point. -/
def pointMember (g : Table) : Rule Node := privateName g <|> propertyName g

/-- One step of what is constructed: a member or a subscript. -/
def constructedStep (g : Table) (start : Place) (object : Node) : Rule Node := choose [
  do
    mark "."
    let property ← pointMember g
    nodeFrom "member_expression" start [object.inRole "object", property.inRole "property"],
  do
    mark "["
    let index ← g.rule .expressions
    mark "]"
    nodeFrom "subscript_expression" start [object.inRole "object", index.inRole "index"],
  do
    require !(← breakAhead)
    mark "!"
    refuse (exactly ['='])
    nodeFrom "non_null_expression" start [object]]

/-- Steps behind an operand, as many as there are. -/
def stepsFrom (step : Node → Rule Node) (operand : Node) : Nat → Rule Node
  | 0 => return operand
  | limit + 1 => do
    match ← perhaps (step operand) with
    | none => return operand
    | some next => stepsFrom step next limit

/-- An operand without anything behind it. -/
def simpleOperand (g : Table) : Rule Node := do
  match (← ahead).head? with
  | none => failure
  | some '(' => parenthesized g
  | some '[' => listLiteral g
  | some '\x7b' => objectLiteral g
  | some '"' | some '\'' => quotedText g
  | some '\x60' => templateText g
  | some '/' => patternLiteral g
  | some '<' =>
    match g.dialect with
    | .tsx => g.rule .element
    | .typescript => failure
  | some '#' => privateName g
  | some '@' => classOperand g
  | some c =>
    if c.isDigit || c == '.' then number
    else
      choose [functionOperand g, classOperand g, moduleOperand, namedOperand g]

/-- Something constructed. The constructor is an operand with members but without
calls. -/
def construction (g : Table) : Nat → Rule Node
  | 0 => failure
  | limit + 1 => node "new_expression" do
    word "new"
    (do
      mark "."
      word "target"
      return []) <|> (do
      let start ← nextToken
      let base ← construction g limit <|> simpleOperand g
      let constructor ← stepsFrom (constructedStep g start) base g.limit
      let _ ← perhaps (do
        typeArguments g
        expect (mark "("))
      let arguments ← perhaps (callArguments g)
      return constructor.inRole "constructor" ::
        (arguments.map (Node.inRole "arguments")).toList)

/-- A call of an operand. -/
def callStep (g : Table) (start : Place) (function : Node) : Rule Node := do
  let arguments ← callArguments g <|> templateText g
  nodeFrom "call_expression" start [function.inRole "function", arguments.inRole "arguments"]

/-- A point or a chain mark that leads to a member. -/
def memberStep (g : Table) (start : Place) (object : Node) : Rule Node := do
  mark "."
  let property ← pointMember g
  nodeFrom "member_expression" start [object.inRole "object", property.inRole "property"]

/-- A step behind a chain mark: a member, a subscript or a call. -/
def chainStep (g : Table) (start : Place) (object : Node) : Rule Node := do
  mark "?."
  refuse (oneChar Char.isDigit)
  choose [
    do
      let property ← pointMember g
      nodeFrom "member_expression" start [object.inRole "object", property.inRole "property"],
    do
      mark "["
      let index ← g.rule .expressions
      mark "]"
      nodeFrom "subscript_expression" start [object.inRole "object", index.inRole "index"],
    do
      let _ ← perhaps (typeArguments g)
      callStep g start object]

/-- A call with type arguments, or type arguments alone where an operand ends. -/
def genericStep (g : Table) (start : Place) (function : Node) : Rule Node := do
  typeArguments g
  (callStep g start function) <|> (do
    let next ← ahead
    require ((next.head?.map fun c => [')', ']', ',', ';', ':', '\x7d', '.'].contains c).getD true)
    nodeFrom "instantiation_expression" start [function])

/-- One step behind an operand. -/
def operandStep (g : Table) (start : Place) (operand : Node) : Rule Node := do
  match (← ahead).head? with
  | some '(' | some '\x60' => callStep g start operand
  | some '.' => memberStep g start operand
  | some '[' | some '!' => constructedStep g start operand
  | some '?' => chainStep g start operand
  | some '<' => genericStep g start operand
  | _ => failure

/-- An operand with what stands behind it. -/
def operandWithSteps (g : Table) : Rule Node := do
  let start ← nextToken
  let base ← construction g (g.limit + 1) <|> simpleOperand g
  let operand ← stepsFrom (operandStep g start) base g.limit
  (do
    require !(← breakAhead)
    mark "++" <|> mark "--"
    nodeFrom "update_expression" start [operand]) <|> return operand

end ScreenAtlas.Script.Grammar
