import ScreenAtlas.Script.Grammar.Lexeme

/-!
# Types

Types are read for their extent only: no analysis looks inside them, so a type is
a node without children. A position that takes an operand of a type operator takes
a whole type; this reads the same sources.
-/
namespace ScreenAtlas.Script.Grammar

/-- The arguments of a generic type or call. -/
def typeArguments (g : Table) : Rule Unit := do
  mark "<"
  let arguments ← separated (g.rule .type) (mark ",") g.limit
  require !arguments.isEmpty
  mark ">"

/-- A type behind a colon. -/
def annotatedType (g : Table) : Rule Unit := do
  mark ":"
  let _ ← g.rule .type

/-- One parameter of a generic declaration. -/
def typeParameter (g : Table) : Rule Unit := do
  let _ ← perhaps (do
    anyWord ["const", "in", "out"]
    expect (freeName g.limit))
  let _ ← freeName g.limit
  let _ ← perhaps (do
    word "extends"
    let _ ← g.rule .type)
  let _ ← perhaps (do
    mark "="
    let _ ← g.rule .type)

/-- The parameters of a generic declaration. -/
def typeParameters (g : Table) : Rule Unit := do
  mark "<"
  let parameters ← separated (typeParameter g) (mark ",") g.limit
  require !parameters.isEmpty
  mark ">"

/-- The parameters and the result of a callable type. -/
def callSignature (g : Table) : Rule Unit := do
  let _ ← perhaps (typeParameters g)
  let _ ← g.rule .parameters
  let _ ← perhaps (annotatedType g)

/-- A function's type. -/
def functionType (g : Table) : Rule Unit := do
  let _ ← perhaps (do
    let _ ← perhapsWord "abstract"
    word "new")
  let _ ← perhaps (typeParameters g)
  let _ ← g.rule .parameters
  mark "=>"
  let _ ← g.rule .type

/-- A computed name in brackets. -/
def computedName (g : Table) : Rule Node := node "computed_property_name" do
  mark "["
  let inner ← g.rule .expression
  mark "]"
  return [inner]

/-- The name of a member: a word, a text, a number or a computed name. -/
def memberName (g : Table) : Rule Node :=
  choose [propertyName g, quotedText g, number, privateName g, computedName g]

/-- A question mark, possibly with a sign, behind a mapped member. -/
def optionalMark : Rule Unit := do
  let _ ← perhaps (mark "+" <|> mark "-")
  mark "?"

/-- An index signature or a mapped member. -/
def indexMember (g : Table) : Rule Unit := do
  let _ ← perhaps (do
    let _ ← perhaps (mark "+" <|> mark "-")
    word "readonly")
  mark "["
  let _ ← anyName g.limit
  (annotatedType g) <|> (do
    word "in"
    let _ ← g.rule .type
    let _ ← perhaps (do
      word "as"
      let _ ← g.rule .type))
  mark "]"
  let _ ← perhaps optionalMark
  let _ ← perhaps (annotatedType g)

/-- A named member of an object type: a property, a method or an accessor. -/
def namedMember (g : Table) : Rule Unit := do
  let _ ← memberName g
  let _ ← perhaps (mark "?")
  (do
    expect (mark "(" <|> mark "<")
    callSignature g) <|> (do let _ ← perhaps (annotatedType g))

/-- The end of a member of an object type. -/
def memberEnd : Rule Unit := do
  if ← perhapsMark ";" then return ()
  if ← perhapsMark "," then return ()
  let rest ← ahead
  require (rest.head? == some '\x7d' || (← breakAhead))

/-- A member of an object type. -/
def typeMember (g : Table) : Rule Unit := do
  choose [
    do
      indexMember g
      memberEnd,
    do
      let _ ← perhapsWord "new"
      callSignature g
      memberEnd,
    do
      let _ ← perhaps (anyWord ["readonly", "get", "set"])
      namedMember g
      memberEnd,
    do
      namedMember g
      memberEnd]

/-- An object type in braces. -/
def objectType (g : Table) : Rule Unit := do
  mark "\x7b"
  let _ ← many (typeMember g) g.limit
  mark "\x7d"

/-- An element of a tuple type. -/
def tupleElement (g : Table) : Rule Unit := do
  let _ ← perhaps (mark "...")
  let _ ← perhaps (do
    let _ ← anyName g.limit
    let _ ← perhaps (mark "?")
    mark ":")
  let _ ← g.rule .type
  let _ ← perhaps (mark "?")

/-- A dotted name with its arguments. -/
def namedType (g : Table) : Rule Unit := do
  let _ ← many (do
    mark "."
    let _ ← anyName g.limit) g.limit
  let _ ← perhaps (typeArguments g)

/-- A type without operators behind it. -/
def simpleType (g : Table) : Rule Unit := choose [
  do
    anyWord ["keyof", "unique", "readonly", "infer", "asserts"]
    require !(← breakAhead)
    let _ ← g.rule .type,
  do
    word "typeof"
    let _ ← g.rule .type,
  do
    word "import"
    mark "("
    let _ ← g.rule .expression
    mark ")"
    namedType g,
  do
    let _ ← anyName g.limit
    namedType g
    let _ ← perhaps (do
      wordOnLine "is"
      let _ ← g.rule .type),
  do
    let _ ← quotedText g,
  do
    let _ ← perhaps (mark "-")
    let _ ← number,
  do
    let _ ← template g (g.rule .type) "template_literal_type",
  do
    mark "("
    let _ ← g.rule .type
    mark ")",
  do
    mark "["
    let _ ← separated (tupleElement g) (mark ",") g.limit
    mark "]",
  objectType g]

/-- A type with the brackets behind it. -/
def bracketedType (g : Table) : Rule Unit := do
  simpleType g
  let _ ← many (do
    require !(← breakAhead)
    mark "["
    let _ ← perhaps (g.rule .type)
    mark "]") g.limit

/-- Types joined by bars and ampersands. -/
def joinedTypes (g : Table) : Nat → Rule Unit
  | 0 => failure
  | limit + 1 => do
    bracketedType g
    match ← perhaps (mark "|" <|> mark "&") with
    | none => return ()
    | some _ => (functionType g) <|> joinedTypes g limit

/-- A type. -/
def typeRule (g : Table) : Rule Node := leaf "type" do
  (functionType g) <|> (do
    let _ ← perhaps (mark "|" <|> mark "&")
    joinedTypes g (g.limit + 1)
    let _ ← perhaps (do
      word "extends"
      let _ ← g.rule .type
      mark "?"
      let _ ← g.rule .type
      mark ":"
      let _ ← g.rule .type))

end ScreenAtlas.Script.Grammar
