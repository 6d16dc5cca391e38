import ScreenAtlas.Script.Grammar.Operand

/-!
# Expressions with operators

Operators of two sides are not sorted by how tightly they bind: a chain of
operands is one node with the operands as children, which keeps the order in which
a walk meets them. Behind an operator an operand has to follow; a line break does
not end the expression there.
-/
namespace ScreenAtlas.Script.Grammar

/-- The operators of two sides that are made of marks, longer ones first, each
with the marks that must not follow it. -/
def binaryMarks : List (String × List Char) :=
  [("===", []), ("!==", []), (">>>", ['=']), ("**", ['=']), ("??", ['=']), ("||", ['=']),
    ("&&", ['=']), ("==", []), ("!=", []), ("<=", []), (">=", []), ("<<", ['=']),
    (">>", ['=', '>']), ("<", ['<']), (">", ['>']), ("|", ['=', '|']), ("^", ['=']),
    ("&", ['=', '&']), ("+", ['=', '+']), ("-", ['=', '-']), ("*", ['=', '*']), ("/", ['=']),
    ("%", ['='])]

/-- An operator of two sides. -/
def binaryOperator : Rule Unit := do
  let next ← ahead
  match next.head? with
  | none => failure
  | some c =>
    if isNamePart c then anyWord ["in", "instanceof"]
    else
      choose (binaryMarks.map fun (text, excluded) => do
        mark text
        refuse (oneChar excluded.contains))

/-- The operators that assign. -/
def assignmentMarks : List String :=
  [">>>=", "**=", "<<=", ">>=", "&&=", "||=", "??=", "+=", "-=", "*=", "/=", "%=", "&=", "|=", "^="]

/-- An operator that assigns. -/
def assignmentOperator : Rule Unit :=
  choose (assignmentMarks.map mark ++ [do
    mark "="
    refuse (oneChar fun c => c == '=' || c == '>')])

/-- A type assertion in front of an operand. -/
def assertion (g : Table) : Rule Node := node "type_assertion" do
  require (g.dialect == .typescript)
  typeArguments g
  return [← g.rule .operand]

/-- An operator in front of an operand. -/
def signedOperand (g : Table) : Rule Node := choose [
  node "update_expression" do
    mark "++" <|> mark "--"
    return [← g.rule .operand],
  node "unary_expression" do
    choose [mark "!", mark "~", mark "+", mark "-", anyWord ["typeof", "void", "delete"]]
    return [← g.rule .operand],
  node "await_expression" do
    word "await"
    return [← g.rule .operand]]

/-- An operand with its signs, or an arrow function. -/
def operandRule (g : Table) : Rule Node := do
  match (← ahead).head? with
  | none => failure
  | some '(' => arrowFunction g <|> operandWithSteps g
  | some '<' => choose [arrowFunction g, assertion g, operandWithSteps g]
  | some c =>
    if ['!', '~', '+', '-'].contains c then signedOperand g
    else if isNamePart c || c == '\\' then
      choose [signedOperand g, arrowFunction g, operandWithSteps g]
    else operandWithSteps g

/-- A type that an operand is taken as. -/
def castRest (g : Table) : Rule Unit := do
  wordOnLine "as" <|> wordOnLine "satisfies"
  (word "const") <|> (do let _ ← g.rule .type)

/-- The operands behind the first one. The two flags say that there is an operator of
two sides and that there is a type which an operand is taken as. -/
def chainRest (g : Table) : Nat → Rule (Bool × Bool × List Node)
  | 0 => failure
  | limit + 1 => do
    match ← perhaps (castRest g) with
    | some _ =>
      let (joined, _, rest) ← chainRest g limit
      return (joined, true, rest)
    | none =>
      match ← perhaps binaryOperator with
      | none => return (false, false, [])
      | some _ =>
        let operand ← g.rule .operand
        let (_, cast, rest) ← chainRest g limit
        return (true, cast, operand :: rest)

/-- Operands with operators between them. -/
def operandChain (g : Table) : Rule Node := do
  let start ← nextToken
  let first ← g.rule .operand
  match ← chainRest g (g.limit + 1) with
  | (false, false, _) => return first
  | (false, true, _) => nodeFrom "as_expression" start [first]
  | (true, _, rest) => nodeFrom "binary_expression" start (first :: rest)

/-- What follows a condition: the two values to choose from. -/
def alternatives (g : Table) : Rule (List Node) := do
  mark "?"
  let consequence ← g.rule .expression
  mark ":"
  return [consequence.inRole "consequence", (← g.rule .expression).inRole "alternative"]

/-- A question mark that separates a condition from its values. -/
def conditionMark : Rule Unit := do
  let next ← ahead
  require (next.head? == some '?' && !(['?', '?'].isPrefixOf next))

/-- A value handed out by a generator. -/
def yieldExpression (g : Table) : Rule Node := node "yield_expression" do
  word "yield"
  refuse (mark "=>")
  let all ← perhapsMark "*"
  let value ← perhaps (do
    require !(← breakAhead)
    g.rule .expression)
  require (!all || value.isSome)
  return value.toList

/-- One expression: a value, a choice or an assignment. -/
def expressionRule (g : Table) : Rule Node := yieldExpression g <|> do
  let start ← nextToken
  let condition ← operandChain g
  match ← perhaps conditionMark with
  | some _ =>
    nodeFrom "ternary_expression" start (condition.inRole "condition" :: (← alternatives g))
  | none =>
    match ← perhaps assignmentOperator with
    | none => return condition
    | some _ =>
      nodeFrom "assignment_expression" start
        [condition.inRole "left", (← g.rule .expression).inRole "right"]

/-- The expressions behind commas. -/
def moreExpressions (g : Table) : Nat → Rule (List Node)
  | 0 => failure
  | limit + 1 => do
    match ← perhaps (mark ",") with
    | none => return []
    | some _ =>
      let next ← g.rule .expression
      return next :: (← moreExpressions g limit)

/-- One or more expressions. -/
def expressionsRule (g : Table) : Rule Node := do
  let start ← nextToken
  let first ← g.rule .expression
  match ← moreExpressions g (g.limit + 1) with
  | [] => return first
  | rest => nodeFrom "sequence_expression" start (first :: rest)

end ScreenAtlas.Script.Grammar
