import ScreenAtlas.Script.Grammar.Type

/-!
# Markup

Elements have a tag with a name and attributes, and unless the tag closes itself,
children and a closing tag. The names of opening and closing tags are not
compared. Text between tags holds neither angle brackets nor braces, and an
ampersand in it starts a character reference.
-/
namespace ScreenAtlas.Script.Grammar

/-- A character reference. -/
def characterReference : Rule Unit := do
  exactly ['&']
  choose [
    do
      exactly ['#']
      let _ ← oneChar fun c => c == 'x' || c == 'X'
      let digits ← charsWhile isHexDigit
      require (!digits.isEmpty && digits.length ≤ 6),
    do
      exactly ['#']
      let digits ← charsWhile Char.isDigit
      require (!digits.isEmpty && digits.length ≤ 5),
    do
      let letters ← charsWhile Char.isAlpha
      require (!letters.isEmpty && letters.length ≤ 30)]
  exactly [';']

/-- The rest of an attribute's text up to its mark. -/
def attributeTextRest (closing : Char) : Nat → Rule Unit
  | 0 => failure
  | limit + 1 => do
    let _ ← charsWhile fun c => c != closing && c != '&'
    choose [
      exactly [closing],
      do
        characterReference
        attributeTextRest closing limit,
      do
        exactly ['&']
        let _ ← oneChar fun c => c != '#' && !c.isAlpha
        attributeTextRest closing limit]

/-- The text of an attribute. -/
def attributeText (g : Table) : Rule Node := leaf "string" do
  let closing ← oneChar fun c => c == '"' || c == '\''
  attributeTextRest closing (g.limit + 1)

/-- A part of a name in markup, which may hold dashes. -/
def markupName (g : Table) : Rule Unit := do
  let _ ← anyName g.limit
  let _ ← charsWhile fun c => isNamePart c || c == '-'

/-- A name in markup: several parts with points or one colon between them. -/
def markupPath (g : Table) : Rule Unit := do
  markupName g
  (do
    mark ":"
    markupName g) <|> (do
    let _ ← many (do
      mark "."
      markupName g) g.limit)

/-- An expression in braces, which may be empty. -/
def enclosedExpression (g : Table) : Rule Node := node "jsx_expression" do
  mark "\x7b"
  let content ← choose [
    do
      let spread ← node "spread_element" do
        mark "..."
        return [← g.rule .expression]
      return [spread],
    do return [← g.rule .expressions],
    return []]
  mark "\x7d"
  return content

/-- A comment comes next. -/
def commentAhead : Rule Bool := do
  let here ← get
  let _ ← charsWhile isGap
  let next ← get
  set here
  return (['/', '/'] : List Char).isPrefixOf next.rest || ['/', '*'].isPrefixOf next.rest

/-- The comments before the next token, as one node. -/
def comments : Rule (List Node) := do
  if ← commentAhead then
    let _ ← charsWhile isGap
    let start ← get
    skip
    return [← nodeFrom "comment" start []]
  else return []

/-- An attribute. Its first child is its name; a comment in front of the value
counts as a child. -/
def markupAttribute (g : Table) : Rule Node := node "jsx_attribute" do
  let name ← leaf "property_identifier" (markupPath g)
  let first ← comments
  match ← perhaps (mark "=") with
  | none => return name :: first
  | some _ =>
    let second ← comments
    let value ← choose [attributeText g, enclosedExpression g, g.rule .element]
    return name :: first ++ second ++ [value]

/-- The attributes of a tag and the expressions between them. -/
def markupAttributes (g : Table) : Rule (List Node) :=
  many (enclosedExpression g <|> markupAttribute g) g.limit

/-- The name, the type arguments and the attributes of a tag. -/
def tagContent (g : Table) : Rule (List Node) := do
  let name ← leaf "identifier" (markupPath g)
  let _ ← perhaps (typeArguments g)
  return name.inRole "name" :: (← markupAttributes g)

/-- Text between tags. -/
def markupText (g : Table) : Rule Unit := do
  let here ← get
  let _ ← many (choose [
    characterReference,
    do
      let _ ← oneChar fun c => !(['<', '>', '\x7b', '\x7d', '&'].contains c)
      let _ ← charsWhile fun c => !(['<', '>', '\x7b', '\x7d', '&'].contains c)]) g.limit
  let next ← get
  require (here.offset < next.offset)

/-- The children of an element. -/
def markupChildren (g : Table) : Rule (List Node) := do
  let children ← many (choose [
    do
      markupText g
      return [],
    do return [← enclosedExpression g],
    do return [← g.rule .element]]) g.limit
  return children.flatten

/-- A closing tag. -/
def closingTag (g : Table) : Rule Node := node "jsx_closing_element" do
  exactly ['<', '/']
  let name ← perhaps (leaf "identifier" (markupPath g))
  mark ">"
  return (name.map (Node.inRole "name")).toList

/-- An element. -/
def elementRule (g : Table) : Rule Node := do
  let start ← nextToken
  mark "<"
  let content ← (tagContent g) <|> (do
    expect (mark ">")
    return [])
  match ← perhaps (mark "/>") with
  | some _ =>
    require !content.isEmpty
    nodeFrom "jsx_self_closing_element" start content
  | none =>
    mark ">"
    let opening ← nodeFrom "jsx_opening_element" start content
    let children ← markupChildren g
    let closing ← closingTag g
    nodeFrom "jsx_element" start
      (opening.inRole "open_tag" :: children ++ [closing.inRole "close_tag"])

end ScreenAtlas.Script.Grammar
