import ScreenAtlas.Script.Tree
import ScreenAtlas.Text.Blank

/-!
# Literal values, calls and markup elements

These views pick out of a tree what the analyses ask for: the literal text of an
expression, the name of what is called, and the name, attributes and child
elements of a markup element. Missing or unexpected children give no answer.
-/
namespace ScreenAtlas.Script

/-- The children of a node that are neither punctuation nor comments. -/
def Node.contents (node : Node) : List Node :=
  node.namedChildren.filter fun child => child.kind != "comment"

/-- The node only encloses an expression. -/
def Node.isEnclosure (node : Node) : Bool :=
  node.kind == "jsx_expression" || node.kind == "parenthesized_expression"

/-- A child has fewer nodes than its parent, since the nodes of the child are among those that
the parent has besides itself. -/
theorem Node.size_lt_of_mem {node child : Node} (member : child ∈ node.children) :
    child.size < node.size := by
  have smaller : ∀ nodes : List Node, child ∈ nodes → child.size ≤ Node.sizes nodes := by
    intro nodes
    induction nodes with
    | nil => intro absent; cases absent
    | cons head rest inductionHypothesis =>
      intro present
      simp only [Node.sizes]
      cases present with
      | head => omega
      | tail _ later => have := inductionHypothesis later; omega
  rw [Node.size_eq node]
  have := smaller node.children member
  omega

/-- What a node contains is among its children, because contents only leave children out. -/
theorem Node.mem_children_of_contents {node child : Node}
    (member : child ∈ node.contents) : child ∈ node.children := by
  simp only [Node.contents, Node.namedChildren, List.mem_filter] at member
  exact member.1.1

/-- The expression inside braces and parentheses. -/
def Node.unwrapped (node : Node) : Option Node :=
  if node.isEnclosure then
    match _first : node.contents.head? with
    | some inner => inner.unwrapped
    | none => none
  else some node
termination_by node.size
decreasing_by
  exact Node.size_lt_of_mem (Node.mem_children_of_contents (List.mem_of_mem_head? _first))

/-- The expression inside braces and parentheses, if there is one. -/
def unwrap (node : Option Node) : Option Node := node.bind Node.unwrapped

/-- A text without its first and last character. -/
def inside (text : List Char) : List Char := (text.drop 1).dropLast

/-- The literal text of an expression: a quoted text, or a template without
substitutions. Escapes stay as they are written. -/
def Parsed.literal? (parsed : Parsed) (node : Option Node) : Option String :=
  match unwrap node with
  | none => none
  | some node =>
    if node.kind == "string" then some (String.ofList (inside (parsed.textOf node)))
    else if node.kind == "template_string" then
      if node.namedChildren.any fun child => child.kind == "template_substitution" then none
      else some (String.ofList (inside (parsed.textOf node)))
    else none

/-- The name of what a call calls: a plain name, or a member of a plain name. -/
def Parsed.callee? (parsed : Parsed) (call : Node) : Option String := do
  let function ← call.child? "function"
  if function.kind == "identifier" then some (String.ofList (parsed.textOf function))
  else if function.kind == "member_expression" then
    let object ← function.child? "object"
    let property ← function.child? "property"
    if object.kind == "identifier" && property.kind == "property_identifier" then
      some (String.ofList (parsed.textOf object ++ '.' :: parsed.textOf property))
    else none
  else none

/-- The first argument of a call. -/
def Node.firstArgument? (call : Node) : Option Node :=
  (call.child? "arguments").bind fun arguments => arguments.contents.head?

/-- The node is a markup element. -/
def Node.isElement (node : Node) : Bool :=
  node.kind == "jsx_element" || node.kind == "jsx_self_closing_element"

/-- The tag of an element, which holds its name and attributes. -/
def Node.tag? (node : Node) : Option Node :=
  if node.kind == "jsx_self_closing_element" || node.kind == "jsx_opening_element" then some node
  else if node.kind == "jsx_element" then
    (node.child? "open_tag").or
      (node.children.find? fun child => child.kind == "jsx_opening_element")
  else none

/-- The name of an element; empty when it has none. -/
def Parsed.elementName (parsed : Parsed) (node : Node) : List Char :=
  match node.tag? with
  | none => []
  | some tag => parsed.textOf? (tag.child? "name")

/-- Adds a named value unless the name is taken. -/
def addFirst {α : Type} (found : List (String × α)) (entry : String × α) : List (String × α) :=
  if found.any fun present => present.1 == entry.1 then found else found ++ [entry]

/-- The attributes of an element by name, each with its value if it has one; of
several attributes of one name the first counts. -/
def Parsed.attributes (parsed : Parsed) (node : Node) : List (String × Option Node) :=
  match node.tag? with
  | none => []
  | some tag =>
    let attributes := tag.namedChildren.filterMap fun child =>
      if child.kind == "jsx_attribute" then
        match child.namedChildren with
        | [] => none
        | name :: rest => some (String.ofList (parsed.textOf name), rest.head?)
      else none
    attributes.foldl addFirst []

/-- The elements directly inside an element. -/
def Node.childElements (node : Node) : List Node :=
  if node.kind == "jsx_element" then node.namedChildren.filter Node.isElement else []

end ScreenAtlas.Script
