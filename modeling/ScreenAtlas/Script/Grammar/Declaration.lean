import ScreenAtlas.Script.Grammar.Formula

/-!
# Declarations

Variables, functions, classes and their members, and the declarations that only
concern types. Of the latter only the extent is read, except for the values that
the members of an enumeration are given.
-/
namespace ScreenAtlas.Script.Grammar

/-- One variable of a declaration. -/
def declarator (g : Table) : Rule Node := node "variable_declarator" do
  let target ← g.rule .binding
  let _ ← perhaps (do
    require !(← breakAhead)
    mark "!")
  let _ ← perhaps (annotatedType g)
  let value ← standIn g
  return target.inRole "name" :: value.map (Node.inRole "value")

/-- The variables behind commas. -/
def moreDeclarators (g : Table) : Nat → Rule (List Node)
  | 0 => failure
  | limit + 1 => do
    match ← perhaps (mark ",") with
    | none => return []
    | some _ =>
      let next ← declarator g
      return next :: (← moreDeclarators g limit)

/-- The variables of a declaration. -/
def declarators (g : Table) : Rule (List Node) := do
  let first ← declarator g
  return first :: (← moreDeclarators g (g.limit + 1))

/-- A declaration of variables. -/
def variableList (g : Table) : Rule Node := do
  let start ← nextToken
  let kind ← (do
    word "var"
    return "variable_declaration") <|> (do
    anyWord ["let", "const"]
    return "lexical_declaration")
  let declared ← declarators g
  statementEnd
  nodeFrom kind start declared

/-- A declaration of a function: with a body, or only with its signature. -/
def functionDeclaration (g : Table) : Rule Node := do
  let start ← nextToken
  let generator ← functionStart
  let name ← identifier g
  let _ ← perhaps (typeParameters g)
  let parameters ← g.rule .parameters
  let _ ← perhaps (annotatedType g)
  let head := [name.inRole "name", parameters.inRole "parameters"]
  if (← ahead).head? == some '\x7b' then
    let body ← g.rule .block
    nodeFrom (if generator then "generator_function_declaration" else "function_declaration") start
      (head ++ [body.inRole "body"])
  else
    statementEnd
    nodeFrom "function_signature" start head

/-- Words in front of a member of a class. -/
def memberModifiers : List String :=
  ["public", "private", "protected", "static", "abstract", "override", "readonly", "declare",
    "accessor", "async", "get", "set"]

/-- The rest of a method of a class: with a body, or only with its signature. -/
def methodRest (g : Table) : Rule (List Node) := do
  let _ ← perhaps (typeParameters g)
  let parameters ← g.rule .parameters
  let _ ← perhaps (annotatedType g)
  if (← ahead).head? == some '\x7b' then
    return [parameters.inRole "parameters", (← g.rule .block).inRole "body"]
  else
    statementEnd
    return [parameters.inRole "parameters"]

/-- The rest of a field of a class. -/
def fieldRest (g : Table) : Rule (List Node) := do
  let _ ← perhaps (annotatedType g)
  let value ← standIn g
  statementEnd
  return value.map (Node.inRole "value")

/-- A block that runs when a class is set up. -/
def staticBlock (g : Table) : Rule Node := node "class_static_block" do
  word "static"
  expect (mark "\x7b")
  return [← g.rule .block]

/-- An index signature in a class. -/
def indexField (g : Table) : Rule Node := leaf "index_signature" do
  let _ ← many (modifier ["static", "readonly"]) g.limit
  indexMember g
  statementEnd

/-- A field or a method of a class. -/
def namedField (g : Table) : Rule Node := do
  let start ← nextToken
  let decorators ← many (decorator g) g.limit
  let _ ← many (modifier memberModifiers) g.limit
  let _ ← perhaps (mark "*")
  let name ← memberName g
  let _ ← perhaps (mark "?" <|> mark "!")
  let next ← ahead
  if next.head? == some '(' || next.head? == some '<' then
    nodeFrom "method_definition" start (decorators ++ name.inRole "name" :: (← methodRest g))
  else
    nodeFrom "public_field_definition" start
      (decorators ++ name.inRole "name" :: (← fieldRest g))

/-- A member of a class; a lone semicolon counts as none. -/
def classMember (g : Table) : Rule (List Node) := choose [
  do
    mark ";"
    return [],
  do return [← staticBlock g],
  do return [← indexField g],
  do return [← namedField g]]

/-- The members of a class in braces. -/
def classBodyRule (g : Table) : Rule Node := node "class_body" do
  mark "\x7b"
  let members ← many (classMember g) g.limit
  mark "\x7d"
  return members.flatten

/-- A declaration of a class. -/
def classDeclaration (g : Table) : Rule Node := node "class_declaration" do
  let decorators ← many (decorator g) g.limit
  let _ ← perhapsWord "abstract"
  word "class"
  return decorators ++ (← classRest g)

/-- An interface. -/
def interfaceDeclaration (g : Table) : Rule Node := leaf "interface_declaration" do
  word "interface"
  let _ ← freeName g.limit
  let _ ← perhaps (typeParameters g)
  let _ ← perhaps (do
    word "extends"
    separated (g.rule .type) (mark ",") g.limit)
  objectType g

/-- A name for a type. -/
def typeAlias (g : Table) : Rule Node := leaf "type_alias_declaration" do
  word "type"
  let _ ← freeName g.limit
  let _ ← perhaps (typeParameters g)
  mark "="
  let _ ← g.rule .type
  statementEnd

/-- A member of an enumeration. -/
def enumMember (g : Table) : Rule (List Node) := do
  let _ ← memberName g
  standIn g

/-- An enumeration. -/
def enumDeclaration (g : Table) : Rule Node := node "enum_declaration" do
  let _ ← perhapsWord "const"
  word "enum"
  let name ← identifier g
  mark "\x7b"
  let members ← separated (enumMember g) (mark ",") g.limit
  mark "\x7d"
  return name.inRole "name" :: members.flatten

/-- A dotted name. -/
def dottedNames (g : Table) : Rule Unit := do
  let _ ← freeName g.limit
  let _ ← many (do
    mark "."
    let _ ← anyName g.limit) g.limit

/-- A namespace, or a description of a module. -/
def namespaceDeclaration (g : Table) : Rule Node := node "internal_module" do
  (word "global") <|> (do
    anyWord ["namespace", "module"]
    require !(← breakAhead)
    (dottedNames g) <|> (do let _ ← quotedText g))
  if (← ahead).head? == some '\x7b' then
    return [← g.rule .block]
  else
    statementEnd
    return []

/-- A declaration that starts with the given word; none if no declaration starts
with it. -/
def declarationOf (g : Table) (start : String) : Option (Rule Node) :=
  match start with
  | "var" | "let" => some (variableList g)
  | "const" => some (enumDeclaration g <|> variableList g)
  | "function" => some (functionDeclaration g)
  | "async" => some (functionDeclaration g)
  | "class" | "abstract" => some (classDeclaration g)
  | "interface" => some (interfaceDeclaration g)
  | "type" => some (typeAlias g)
  | "enum" => some (enumDeclaration g)
  | "namespace" | "module" | "global" => some (namespaceDeclaration g)
  | _ => none

/-- The name that comes next, or the empty text. -/
def nameAhead (g : Table) : Rule String := do
  let here ← get
  let name ← perhaps (anyName g.limit)
  set here
  return name.getD ""

/-- A declaration of something defined elsewhere. -/
def ambientDeclaration (g : Table) : Rule Node := node "ambient_declaration" do
  word "declare"
  require !(← breakAhead)
  match declarationOf g (← nameAhead g) with
  | none => failure
  | some rule => return [← rule]

/-- A declaration. -/
def declaration (g : Table) : Rule Node := do
  if (← ahead).head? == some '@' then classDeclaration g
  else
    let start ← nameAhead g
    if start == "declare" then ambientDeclaration g
    else (declarationOf g start).getD failure

end ScreenAtlas.Script.Grammar
