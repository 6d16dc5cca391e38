import ScreenAtlas.Text.Utf8

/-!
# Concrete trees of script sources

A parsed source is a tree of nodes. A node has a kind, the bytes and rows it
covers, the role it plays under its parent and its children in source order; some
nodes, such as brackets, are unnamed and only visible as children. Trees from any
source are accepted: nothing here assumes that spans nest or that the expected
children are present.

The walk over a tree keeps the nodes still to be visited on an explicit stack.
-/
namespace ScreenAtlas.Script

/-- What a node covers: bytes from `start` up to `stop`, and rows counted from
zero. -/
structure Span where
  start : Nat
  stop : Nat
  firstRow : Int
  lastRow : Int
  deriving DecidableEq, Repr, Inhabited

/-- A node of a tree. -/
inductive Node where
  | mk (kind : String) (span : Span) (role : Option String) (named : Bool) (children : List Node)
  deriving Repr, Inhabited

namespace Node

/-- What the node is, in the grammar's words. -/
def kind : Node → String
  | mk kind _ _ _ _ => kind

/-- What the node covers. -/
def span : Node → Span
  | mk _ span _ _ _ => span

/-- The role of the node under its parent. -/
def role : Node → Option String
  | mk _ _ role _ _ => role

/-- The node is more than punctuation. -/
def named : Node → Bool
  | mk _ _ _ named _ => named

/-- The children in source order. -/
def children : Node → List Node
  | mk _ _ _ _ children => children

/-- The same node in a given role. -/
def inRole (role : String) : Node → Node
  | mk kind span _ named children => mk kind span (some role) named children

/-- The same node as another kind. -/
def asKind (kind : String) : Node → Node
  | mk _ span role named children => mk kind span role named children

/-- The children that are more than punctuation. -/
def namedChildren (node : Node) : List Node := node.children.filter named

/-- The first child in a role. -/
def child? (node : Node) (role : String) : Option Node :=
  node.children.find? fun child => child.role == some role

/-- The first line that the node covers, counted from one. -/
def firstLine (node : Node) : Int := node.span.firstRow + 1

/-- The last line that the node covers, counted from one. -/
def lastLine (node : Node) : Int := node.span.lastRow + 1

mutual

/-- The number of nodes in a tree. -/
def size : Node → Nat
  | mk _ _ _ _ children => sizes children + 1

/-- The number of nodes in a list of trees. -/
def sizes : List Node → Nat
  | [] => 0
  | node :: rest => size node + sizes rest

end

mutual

/-- The nodes of a tree, a parent before its children. -/
def preorder : Node → List Node
  | mk kind span role named children =>
    mk kind span role named children :: preorders children

/-- The nodes of a list of trees, tree by tree. -/
def preorders : List Node → List Node
  | [] => []
  | node :: rest => preorder node ++ preorders rest

end

/-- Trees of two lists have as many nodes as those of the one and of the other together. The
induction is on the first list. -/
theorem sizes_append (left right : List Node) :
    sizes (left ++ right) = sizes left + sizes right := by
  induction left with
  | nil => simp [sizes]
  | cons node rest inductionHypothesis => simp [sizes, inductionHypothesis, Nat.add_assoc]

/-- A tree has one node more than the trees of its children, so that putting the children on
a stack in place of their parent leaves fewer nodes to visit. -/
theorem size_eq (node : Node) : node.size = sizes node.children + 1 := by
  cases node; simp [size, children]

/-- Visits the nodes on a stack: the topmost node is taken and its children are
put on the stack in its place. -/
def visit : List Node → List Node
  | [] => []
  | node :: stack => node :: visit (node.children ++ stack)
termination_by stack => sizes stack
decreasing_by simp [sizes, sizes_append, size_eq]

/-- Every node of a tree, a parent before its children and the children from left
to right. -/
def walk (root : Node) : List Node := visit [root]

end Node

/-- A tree together with the bytes it was read from. -/
structure Parsed where
  root : Node
  bytes : List UInt8

namespace Parsed

/-- The text that a node covers. Bytes past the end are not there, and bytes that
form no character are left out. -/
def textOf (parsed : Parsed) (node : Node) : List Char :=
  let span := node.span
  Text.decodeLenient ((parsed.bytes.drop span.start).take (span.stop - span.start))

/-- The text of a node that may be missing. -/
def textOf? (parsed : Parsed) : Option Node → List Char
  | none => []
  | some node => parsed.textOf node

/-- Every node of the tree, a parent before its children. -/
def nodes (parsed : Parsed) : List Node := parsed.root.walk

end Parsed

/-- The two ways of reading a script: with markup elements, or with type
assertions in angle brackets. -/
inductive Dialect where
  | tsx
  | typescript
  deriving DecidableEq, Repr

/-- The dialect of a given name. -/
def Dialect.ofName? (name : String) : Option Dialect :=
  if name == "tsx" then some .tsx else if name == "typescript" then some .typescript else none

/-- Something that turns a source into a tree, or reports that it does not parse. -/
abbrev Reading := Dialect → String → Option Node

/-- A source read in a dialect. -/
def Reading.parsed? (reading : Reading) (dialect : Dialect) (content : String) : Option Parsed :=
  (reading dialect content).map fun root => { root, bytes := Text.encode content.toList }

end ScreenAtlas.Script
