import ScreenAtlas.Script.Grammar.Statement

/-!
# Parsing a source

The productions are tied together with a bound on how deep they nest. Every
nesting reads at least one character within a few goals, so a multiple of the
length of the source is enough. A source with any mistake is not parsed at all.
-/
namespace ScreenAtlas.Script.Grammar

/-- The production of each goal. -/
def production (g : Table) : Goal → Rule Node
  | .statement => statementRule g
  | .block => blockRule g
  | .expressions => expressionsRule g
  | .expression => expressionRule g
  | .operand => operandRule g
  | .element => elementRule g
  | .type => typeRule g
  | .binding => bindingRule g
  | .parameters => parametersRule g
  | .classBody => classBodyRule g

/-- The rules of the goals, nested at most `depth` times. -/
def rulesWithin (dialect : Dialect) (limit : Nat) : Nat → Goal → Rule Node
  | 0 => fun _ => failure
  | depth + 1 => fun goal => production ⟨dialect, limit, rulesWithin dialect limit depth⟩ goal

/-- The first line of a source can say which program runs it. -/
def interpreterLine : Rule Unit := do
  let _ ← perhaps (do
    exactly ['#', '!']
    charsWhile (· != '\n'))

/-- A whole source. -/
def program (rule : Goal → Rule Node) (limit : Nat) : Rule Node := do
  let start ← get
  interpreterLine
  let statements ← many (rule .statement) limit
  skip
  require (← get).rest.isEmpty
  nodeFrom "program" start statements

end ScreenAtlas.Script.Grammar

namespace ScreenAtlas.Script

/-- Parses a source: a tree, or nothing when the source has a mistake. -/
def parse (dialect : Dialect) (source : String) : Option Node :=
  let characters := source.toList
  let limit := characters.length + 8
  (Grammar.program (Grammar.rulesWithin dialect limit (8 * limit)) limit ⟨characters, 0, 0⟩).map
    Prod.fst

end ScreenAtlas.Script
