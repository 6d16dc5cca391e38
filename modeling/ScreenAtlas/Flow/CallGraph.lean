import ScreenAtlas.Flow.Basic
import ScreenAtlas.Script.Expression

/-!
# Calls of named functions

A named function is a scope: a range of lines. A call belongs to the innermost
scope that its first line lies in, and the graph lists what each scope calls, in
the order of first calls. Scopes are told apart by their name and first line.
-/
namespace ScreenAtlas.Flow

open ScreenAtlas.Script

/-- A named function and the lines it covers. -/
structure Scope where
  name : String
  first : Int
  last : Int
  deriving DecidableEq, Repr

namespace Scope

/-- What tells scopes apart. -/
def key (scope : Scope) : String × Int := (scope.name, scope.first)

/-- The line lies in the scope. -/
def covers (scope : Scope) (line : Int) : Bool := scope.first ≤ line && line ≤ scope.last

/-- How many lines follow the first one. -/
def extent (scope : Scope) : Int := scope.last - scope.first

end Scope

/-- Kinds of declarations that name a function. -/
def functionDeclarations : List String :=
  ["function_declaration", "generator_function_declaration"]

/-- Kinds of values that are functions. -/
def functionValues : List String := ["arrow_function", "function_expression", "function"]

/-- The scope that a node opens: a declared function, or a variable that is set to
a function. -/
def scope? (parsed : Parsed) (node : Node) : Option Scope :=
  if functionDeclarations.contains node.kind then do
    let name ← node.child? "name"
    some ⟨String.ofList (parsed.textOf name), node.firstLine, node.lastLine⟩
  else if node.kind == "variable_declarator" then do
    let name ← node.child? "name"
    let value ← node.child? "value"
    if name.kind == "identifier" && functionValues.contains value.kind then
      some ⟨String.ofList (parsed.textOf name), node.firstLine, value.lastLine⟩
    else none
  else none

/-- The scopes of a source in the order of the tree. -/
def scopes (parsed : Parsed) : List Scope := parsed.nodes.filterMap (scope? parsed)

/-- The smaller of two scopes; of equally small ones the first. -/
def smaller (best : Option Scope) (scope : Scope) : Option Scope :=
  match best with
  | none => some scope
  | some best => if scope.extent < best.extent then some scope else some best

/-- The smallest scope that a line lies in. -/
def innermost? (scopes : List Scope) (line : Int) : Option Scope :=
  (scopes.filter fun scope => scope.covers line).foldl smaller none

/-- What the scopes call: for each name and first line the called names. -/
abbrev CallGraph := List ((String × Int) × List String)

namespace CallGraph

/-- A graph in which every scope is listed once and calls nothing. -/
def ofScopes (scopes : List Scope) : CallGraph :=
  scopes.foldl (fun graph scope =>
    if graph.any fun row => row.1 == scope.key then graph else graph ++ [(scope.key, [])]) []

/-- Adds a callee to a scope unless it is listed there already. -/
def addCall (key : String × Int) (callee : String) (graph : CallGraph) : CallGraph :=
  graph.map fun row =>
    if row.1 == key && !row.2.contains callee then (row.1, row.2 ++ [callee]) else row

/-- Adds the call that a node is, if its callee has a name and it lies in a scope. -/
def addNode (parsed : Parsed) (scopes : List Scope) (graph : CallGraph) (node : Node) :
    CallGraph :=
  if node.kind == "call_expression" then
    match parsed.callee? node, innermost? scopes node.firstLine with
    | some callee, some scope =>
      if callee.isEmpty then graph else graph.addCall scope.key callee
    | _, _ => graph
  else graph

end CallGraph

/-- The calls of the named functions of a source. -/
def callGraph (parsed : Parsed) : CallGraph :=
  let scopes := scopes parsed
  parsed.nodes.foldl (CallGraph.addNode parsed scopes) (CallGraph.ofScopes scopes)

/-- A flow with its calls, if it is a function whose calls are known. -/
def withCalls (graph : CallGraph) (flow : Flow) : Flow :=
  if flow.kind == functionCall then
    match graph.lookup (flow.name, flow.line) with
    | some (first :: rest) => { flow with calls := first :: rest }
    | _ => flow
  else flow

end ScreenAtlas.Flow
