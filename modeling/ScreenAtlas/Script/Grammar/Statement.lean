import ScreenAtlas.Script.Grammar.Declaration

/-!
# Statements

A statement is chosen by the word it starts with. A statement that starts with a
brace is a block, or where it cannot be read as one, an object.
-/
namespace ScreenAtlas.Script.Grammar

/-- A block in braces. -/
def statementBlock (g : Table) : Rule Node := node "statement_block" do
  mark "\x7b"
  let statements ← many (g.rule .statement) g.limit
  mark "\x7d"
  return statements

/-- A block. -/
def blockRule (g : Table) : Rule Node := statementBlock g

/-- Expressions as a statement. -/
def expressionStatement (g : Table) : Rule Node := node "expression_statement" do
  let inner ← g.rule .expressions
  statementEnd
  return [inner]

/-- A statement with a label. -/
def labeledStatement (g : Table) : Rule Node := node "labeled_statement" do
  let label ← identifier g
  mark ":"
  return [label.asKind "statement_identifier", ← g.rule .statement]

/-- A condition in parentheses. -/
def condition (g : Table) : Rule Node := parenthesized g

/-- A choice between statements. -/
def ifStatement (g : Table) : Rule Node := node "if_statement" do
  word "if"
  let test ← condition g
  let consequence ← g.rule .statement
  match ← perhaps (word "else") with
  | none => return [test, consequence]
  | some _ => return [test, consequence, ← g.rule .statement]

/-- The head of a loop over the members or the items of a value. -/
def iterationHead (g : Table) : Rule (List Node) := do
  mark "("
  let target ← (do
    anyWord ["var", "let", "const"]
    g.rule .binding) <|> g.rule .operand
  anyWord ["of", "in"]
  let subject ← g.rule .expressions
  mark ")"
  return [target, subject]

/-- The head of a loop with a counter. -/
def counterHead (g : Table) : Rule (List Node) := do
  mark "("
  let first ← choose [
    do
      anyWord ["var", "let", "const"]
      let declared ← declarators g
      mark ";"
      return declared,
    do
      mark ";"
      return [],
    do
      let inner ← g.rule .expressions
      mark ";"
      return [inner]]
  let test ← perhaps (g.rule .expressions)
  mark ";"
  let step ← perhaps (g.rule .expressions)
  mark ")"
  return first ++ test.toList ++ step.toList

/-- A loop with a head. -/
def forStatement (g : Table) : Rule Node := node "for_statement" do
  word "for"
  let _ ← perhapsWord "await"
  let head ← iterationHead g <|> counterHead g
  return head ++ [← g.rule .statement]

/-- A loop while a condition holds. -/
def whileStatement (g : Table) : Rule Node := node "while_statement" do
  anyWord ["while", "with"]
  let test ← condition g
  return [test, ← g.rule .statement]

/-- A loop that tests its condition at the end. -/
def doStatement (g : Table) : Rule Node := node "do_statement" do
  word "do"
  let body ← g.rule .statement
  word "while"
  let test ← condition g
  let _ ← perhapsMark ";"
  return [body, test]

/-- One case of a choice by value. -/
def switchCase (g : Table) : Rule Node := node "switch_case" do
  let value ← (do
    word "case"
    return [← g.rule .expressions]) <|> (do
    word "default"
    return [])
  mark ":"
  return value ++ (← many (g.rule .statement) g.limit)

/-- A choice by value. -/
def switchStatement (g : Table) : Rule Node := node "switch_statement" do
  word "switch"
  let subject ← condition g
  mark "\x7b"
  let cases ← many (switchCase g) g.limit
  mark "\x7d"
  return subject :: cases

/-- A block with what to do when it fails and in any case. -/
def tryStatement (g : Table) : Rule Node := node "try_statement" do
  word "try"
  let body ← g.rule .block
  let handler ← perhaps (do
    word "catch"
    let target ← perhaps (do
      mark "("
      let target ← g.rule .binding
      let _ ← perhaps (annotatedType g)
      mark ")"
      return target)
    return target.toList ++ [← g.rule .block])
  let finalizer ← perhaps (do
    word "finally"
    g.rule .block)
  return body :: handler.getD [] ++ finalizer.toList

/-- A word with a value on the same line or none. -/
def exitStatement (g : Table) (start kind : String) : Rule Node := node kind do
  word start
  let value ← perhaps (do
    require !(← breakAhead)
    g.rule .expressions)
  statementEnd
  return value.toList

/-- A jump out of a loop, possibly to a label. -/
def jumpStatement (g : Table) (start kind : String) : Rule Node := leaf kind do
  word start
  let _ ← perhaps (do
    require !(← breakAhead)
    freeName g.limit)
  statementEnd

/-- A name of something taken from a module or given out, and a second name. -/
def moduleItem (g : Table) : Rule Unit := do
  let name : Rule Unit := do
    (do let _ ← anyName g.limit) <|> (do let _ ← quotedText g)
  let renamed : Rule Unit := do
    name
    let _ ← perhaps (do
      word "as"
      name)
  (do
    anyWord ["type", "typeof"]
    renamed
    expect (mark "," <|> mark "\x7d")) <|> renamed

/-- The items of a module in braces. -/
def moduleItems (g : Table) : Rule Unit := do
  mark "\x7b"
  let _ ← separated (moduleItem g) (mark ",") g.limit
  mark "\x7d"

/-- The module that items come from, and the end of the statement. -/
def moduleSource (g : Table) : Rule Node := do
  let source ← quotedText g
  let _ ← perhaps (do
    anyWord ["with", "assert"]
    expect (mark "\x7b")
    objectLiteral g)
  statementEnd
  return source

/-- All items of a module under one name. -/
def moduleNamespace (g : Table) : Rule Unit := do
  mark "*"
  word "as"
  let _ ← anyName g.limit

/-- What is taken from a module. -/
def importClause (g : Table) : Rule Unit := choose [
  moduleNamespace g,
  moduleItems g,
  do
    let _ ← freeName g.limit
    let _ ← perhaps (do
      mark ","
      moduleNamespace g <|> moduleItems g)]

/-- A name for a module or a part of one. -/
def importAlias (g : Table) : Rule (List Node) := do
  let _ ← freeName g.limit
  mark "="
  (do
    word "require"
    mark "("
    let source ← quotedText g
    mark ")"
    statementEnd
    return [source]) <|> (do
    dottedNames g
    statementEnd
    return [])

/-- A clause and the module it speaks of. -/
def importFrom (g : Table) : Rule (List Node) := do
  importClause g
  word "from"
  return [← moduleSource g]

/-- A statement that takes items from a module. -/
def importStatement (g : Table) : Rule Node := node "import_statement" do
  word "import"
  choose [
    do return [← moduleSource g],
    importFrom g,
    importAlias g,
    do
      anyWord ["type", "typeof"]
      importFrom g <|> importAlias g]

/-- What is given out as the default item. -/
def defaultExport (g : Table) : Rule Node := do
  word "default"
  let start ← nameAhead g
  let value : Rule Node := do
    let value ← g.rule .expression
    statementEnd
    return value
  if (← ahead).head? == some '@' || start == "class" || start == "abstract" then
    classDeclaration g <|> value
  else if start == "interface" then interfaceDeclaration g <|> value
  else if start == "function" || start == "async" then
    choose [functionDeclaration g, functionOperand g, value]
  else value

/-- Items given out by name, from here or from a module. -/
def exportItems (g : Table) : Rule (List Node) := do
  let _ ← perhapsWord "type"
  let clause ← choose [
    do
      moduleNamespace g
      return true,
    do
      mark "*"
      return true,
    do
      moduleItems g
      return false]
  (do
    word "from"
    return [← moduleSource g]) <|> (do
    require !clause
    statementEnd
    return [])

/-- A statement that gives items out. -/
def exportStatement (g : Table) : Rule Node := node "export_statement" do
  word "export"
  choose [
    do return [← defaultExport g],
    exportItems g,
    do
      mark "="
      let value ← g.rule .expression
      statementEnd
      return [value],
    do
      word "as"
      word "namespace"
      let _ ← freeName g.limit
      statementEnd
      return [],
    do
      word "import"
      importAlias g,
    do return [← declaration g]]

/-- A statement that starts with a decorator. -/
def decoratedStatement (g : Table) : Rule Node := do
  (do
    let start ← nextToken
    let decorators ← many (decorator g) g.limit
    let inner ← exportStatement g
    nodeFrom "export_statement" start (decorators ++ [inner])) <|> classDeclaration g

/-- A statement that starts with a given word and with nothing else. -/
def wordStatement (g : Table) (start : String) : Option (Rule Node) :=
  match start with
  | "if" => some (ifStatement g)
  | "for" => some (forStatement g)
  | "while" | "with" => some (whileStatement g)
  | "do" => some (doStatement g)
  | "switch" => some (switchStatement g)
  | "try" => some (tryStatement g)
  | "return" => some (exitStatement g "return" "return_statement")
  | "throw" => some (exitStatement g "throw" "throw_statement")
  | "break" => some (jumpStatement g "break" "break_statement")
  | "continue" => some (jumpStatement g "continue" "continue_statement")
  | "debugger" => some (jumpStatement g "debugger" "debugger_statement")
  | "export" => some (exportStatement g)
  | "import" => some (importStatement g <|> expressionStatement g)
  | "var" | "const" | "enum" | "function" | "class" => some (declaration g)
  | _ => none

/-- A statement. -/
def statementRule (g : Table) : Rule Node := do
  match (← ahead).head? with
  | none => failure
  | some ';' => leaf "empty_statement" (mark ";")
  | some '\x7b' => statementBlock g <|> expressionStatement g
  | some '@' => decoratedStatement g
  | some c =>
    if isNamePart c then
      let start ← nameAhead g
      match wordStatement g start with
      | some rule => rule
      | none => choose [declaration g, labeledStatement g, expressionStatement g]
    else expressionStatement g

end ScreenAtlas.Script.Grammar
