import ScreenAtlas.Proofs.DocumentOrder
import ScreenAtlas.Proofs.RouteSyntax
import ScreenAtlas.Route.Tree

/-!
# Parsed and scanned routes agree

The tree pass visits every node of the syntax tree and asks each for a
declaration. In the tree of a written route tree only the `Route` elements with a
path give one: marks, names and literals are of other kinds, and the rendered
elements have no attributes. The spans are counted in bytes where the text scan
counts characters, but they nest alike, so both passes resolve to the same walk.
-/
namespace ScreenAtlas.Script

/-- Named values are gathered by their names: a value is added exactly when its name is not listed
yet, so that the first one of a name stays. -/
theorem gathersBy_addFirst {α : Type} :
    GathersBy Prod.fst (addFirst : List (String × α) → String × α → List (String × α)) := by
  refine GathersBy.of_test (fun _ _ => rfl) ?_
  intro found entry
  simp

end ScreenAtlas.Script

namespace ScreenAtlas.Route.Markup

open ScreenAtlas.Script ScreenAtlas.Text

/-- The declarations that the nodes of some trees make. -/
def declares (layouts : List String) (parsed : Parsed) (nodes : List Node) : List Declaration :=
  (Node.preorders nodes).filterMap (declarationOf? layouts parsed)

/-- The tree pass lists the declarations of the root and of everything inside it, in pre-order. It
needs no order of its own, as it filters the walk. -/
theorem treeDeclarations_eq (layouts : List String) (parsed : Parsed) :
    treeDeclarations layouts parsed = declares layouts parsed [parsed.root] := by
  rw [treeDeclarations, Parsed.nodes, Node.walk, Node.visit_eq_preorders, declares]

/-- The declarations of two lists of trees are those of the first and then those of the second,
because pre-order goes through the trees one after the other. -/
theorem declares_append (layouts : List String) (parsed : Parsed) (left right : List Node) :
    declares layouts parsed (left ++ right) =
      declares layouts parsed left ++ declares layouts parsed right := by
  simp [declares, Node.preorders_append]

/-- A tree gives the declaration of its root, if there is one, and then those of what is inside.
This is the step of every induction on pieces. -/
theorem declares_singleton (layouts : List String) (parsed : Parsed) (node : Node) :
    declares layouts parsed [node] =
      (declarationOf? layouts parsed node).toList ++ declares layouts parsed node.children := by
  have listed : Node.preorders [node] = node :: Node.preorders node.children := by
    cases node
    simp [Node.preorders, Node.preorder, Node.children]
  rw [declares, listed, declares]
  cases made : declarationOf? layouts parsed node <;> simp [made]

/-- Nodes of this kind declare nothing: they are neither elements nor objects. -/
def isInert (kind : String) : Bool :=
  kind != "jsx_element" && kind != "jsx_self_closing_element" && kind != "object"

/-- A node of an inert kind declares nothing, whatever its span, its role and its children are,
since only elements and objects are asked for a path. -/
theorem declarationOf?_inert (layouts : List String) (parsed : Parsed) {kind : String}
    (inert : isInert kind = true) (span : Span) (role : Option String) (named : Bool)
    (children : List Node) :
    declarationOf? layouts parsed (.mk kind span role named children) = none := by
  simp only [isInert, Bool.and_eq_true, bne_iff_ne, ne_eq] at inert
  obtain ⟨⟨paired, closed⟩, object⟩ := inert
  simp [declarationOf?, declared?, Node.isElement, Node.kind, paired, closed, object]

/-- An element without attributes declares nothing, whatever its name, because its path would be
the value of an attribute. -/
theorem declarationOf?_bare (layouts : List String) (parsed : Parsed) {node : Node}
    (element : node.isElement = true) (bare : parsed.attributes node = []) :
    declarationOf? layouts parsed node = none := by
  have other : (node.kind == "object") = false := by
    rw [beq_eq_false_iff_ne]
    intro same
    simp [Node.isElement, same] at element
  have nothing : declared? parsed node = none := by
    rw [declared?, bare, other]
    split <;> rfl
  rw [declarationOf?, nothing]
  rfl

/-- The tag of a node in a role is the tag of the node, unless the node is its own tag. -/
theorem tag?_inRole (role : String) (node : Node) :
    (node.inRole role).tag? = node.tag? ∨
      node.tag? = some node ∧ (node.inRole role).tag? = some (node.inRole role) := by
  obtain ⟨kind, span, given, named, children⟩ := node
  by_cases tag : (kind == "jsx_self_closing_element" || kind == "jsx_opening_element") = true
  · exact Or.inr ⟨if_pos tag, if_pos tag⟩
  · exact Or.inl ((if_neg tag).trans (if_neg tag).symm)

/-- A node declares the same in every role. The role is looked at only where a parent picks its
children, and a declaration is read off the inside of a node. -/
theorem declarationOf?_inRole (layouts : List String) (parsed : Parsed) (role : String)
    (node : Node) :
    declarationOf? layouts parsed (node.inRole role) = declarationOf? layouts parsed node := by
  have name : parsed.elementName (node.inRole role) = parsed.elementName node := by
    unfold Parsed.elementName
    rcases tag?_inRole role node with same | ⟨own, moved⟩
    · rw [same]
    · rw [own, moved]
      cases node
      rfl
  have attributes : parsed.attributes (node.inRole role) = parsed.attributes node := by
    unfold Parsed.attributes
    rcases tag?_inRole role node with same | ⟨own, moved⟩
    · rw [same]
    · rw [own, moved]
      cases node
      rfl
  simp only [declarationOf?, declared?, name, attributes]
  cases node
  rfl

/-- The nodes of a piece declare nothing, wherever the piece stands and whatever source it is read
in. -/
def Quiet (piece : Piece) : Prop :=
  ∀ layouts parsed offset, declares layouts parsed (piece.nodes offset) = []

namespace Quiet

variable {piece first second : Piece}

/-- Two quiet pieces one after the other are quiet, since the declarations of both are put
together. -/
theorem append (former : Quiet first) (latter : Quiet second) : Quiet (first ++ second) := by
  intro layouts parsed offset
  have nodes : (first ++ second).nodes offset =
      first.nodes offset ++ second.nodes (offset + byteCount first.text) := rfl
  rw [nodes, declares_append, former, latter, List.append_nil]

/-- A quiet piece under a node that declares nothing is quiet: the node adds no declaration of its
own to those inside. -/
theorem under {kind : String} (quiet : Quiet piece)
    (silent : ∀ layouts parsed offset,
      declarationOf? layouts parsed (piece.node kind offset) = none) :
    Quiet (piece.under kind) := by
  intro layouts parsed offset
  show declares layouts parsed [piece.node kind offset] = []
  rw [declares_singleton, silent]
  exact quiet layouts parsed offset

/-- A quiet piece under a node of an inert kind is quiet, because such a node declares nothing by
itself. -/
theorem inert {kind : String} (quiet : Quiet piece) (silent : isInert kind = true) :
    Quiet (piece.under kind) :=
  quiet.under fun layouts parsed _ => declarationOf?_inert layouts parsed silent _ _ _ _

/-- A quiet piece stays quiet in every role. The induction is on its nodes, and each of them
declares in the role what it declares without. -/
theorem inRole (quiet : Quiet piece) (role : String) : Quiet (piece.inRole role) := by
  intro layouts parsed offset
  have same : ∀ nodes : List Node, declares layouts parsed (nodes.map (Node.inRole role)) =
      declares layouts parsed nodes := by
    intro nodes
    induction nodes with
    | nil => rfl
    | cons node rest inductionHypothesis =>
      rw [List.map_cons, ← List.singleton_append, declares_append, inductionHypothesis,
        declares_singleton, declarationOf?_inRole, ← List.singleton_append, declares_append,
        declares_singleton]
      cases node
      rfl
  show declares layouts parsed ((piece.nodes offset).map (Node.inRole role)) = []
  rw [same]
  exact quiet layouts parsed offset

/-- Text without nodes is quiet, as there is nothing in it that could declare. -/
theorem gap (text : List Char) : Quiet (.gap text) := fun _ _ _ => rfl

/-- A mark of an inert kind is quiet: it is one node without children. -/
theorem mark {kind : String} (silent : isInert kind = true) : Quiet (.mark kind) := by
  intro layouts parsed offset
  show declares layouts parsed [Node.mk kind _ none false []] = []
  rw [declares_singleton, declarationOf?_inert layouts parsed silent]
  rfl

/-- A leaf of an inert kind is quiet, whatever its text is: it is one node without children, like
a mark. -/
theorem leaf {kind : String} (silent : isInert kind = true) (text : List Char) :
    Quiet (.leaf kind text) := by
  intro layouts parsed offset
  show declares layouts parsed [Node.mk kind _ none true []] = []
  rw [declares_singleton, declarationOf?_inert layouts parsed silent]
  rfl

end Quiet

/-- The name of an element is one node, which covers it and is no attribute. For a name of several
parts the induction is on the parts behind the first. -/
theorem Name.piece_nodes (name : Name) (offset : Nat) :
    ∃ kind children, kind ≠ "jsx_attribute" ∧
      name.piece.nodes offset = [.mk kind (spanOf offset name.chars) none true children] := by
  have members : ∀ (parts : List Identifier) (inner : Piece),
      (∃ kind children, kind ≠ "jsx_attribute" ∧
        inner.nodes offset = [.mk kind (spanOf offset inner.text) none true children]) →
      ∃ kind children, kind ≠ "jsx_attribute" ∧ (memberPiece inner parts).nodes offset =
        [.mk kind (spanOf offset (memberPiece inner parts).text) none true children] := by
    intro parts
    induction parts with
    | nil => exact fun inner single => single
    | cons part rest inductionHypothesis =>
      intro inner _
      exact inductionHypothesis _ ⟨"member_expression", _, by decide, rfl⟩
  have whole := members name.members (.leaf "identifier" name.head.chars)
    ⟨"identifier", [], by decide, rfl⟩
  rw [← Name.piece, name.text_piece] at whole
  exact whole

/-- The nodes of a tag are its bracket, its name, its attributes and its end, each at the offset
that the texts before it leave. -/
theorem nodes_tagPiece (opening : String) (name : Name) (attributes ending : Piece)
    (offset : Nat) :
    (tagPiece opening name attributes ending).nodes offset =
      Node.mk opening (spanOf offset opening.toList) none false [] ::
        ((name.piece.nodes (offset + byteCount opening.toList)).map (Node.inRole "name") ++
          (attributes.nodes (offset + byteCount (opening.toList ++ name.chars)) ++
            ending.nodes (offset +
              byteCount (opening.toList ++ name.chars ++ attributes.text)))) := by
  have whole : (tagPiece opening name attributes ending).nodes offset =
      (((Piece.mark opening).nodes offset ++
        (name.piece.inRole "name").nodes (offset + byteCount opening.toList)) ++
          attributes.nodes (offset + byteCount (opening.toList ++ name.piece.text))) ++
        ending.nodes (offset + byteCount (opening.toList ++ name.piece.text ++ attributes.text)) :=
    rfl
  rw [whole, name.text_piece, List.append_assoc, List.append_assoc]
  rfl

/-- The name of an element is quiet, since identifiers and member expressions are of inert kinds.
-/
theorem Name.quiet (name : Name) : Quiet name.piece := by
  have members : ∀ (parts : List Identifier) (inner : Piece), Quiet inner →
      Quiet (memberPiece inner parts) := by
    intro parts
    induction parts with
    | nil => exact fun inner quiet => quiet
    | cons part rest inductionHypothesis =>
      intro inner quiet
      have property := (Quiet.leaf (by decide : isInert "property_identifier" = true)
        part.chars).inRole "property"
      have point := Quiet.mark (by decide : isInert "." = true)
      exact inductionHypothesis _ ((((quiet.inRole "object").append point).append property).inert
        (by decide))
  exact members name.members _ (Quiet.leaf (by decide) _)

/-- The entry that a child of a tag gives when it is an attribute. -/
def entryOf (parsed : Parsed) (child : Node) : Option (String × Option Node) :=
  if child.kind == "jsx_attribute" then
    match child.namedChildren with
    | [] => none
    | name :: rest => some (String.ofList (parsed.textOf name), rest.head?)
  else none

/-- The entries of the attributes in a piece, in the order in which the attributes are written. -/
def entries (parsed : Parsed) (piece : Piece) (offset : Nat) : List (String × Option Node) :=
  ((piece.nodes offset).filter Node.named).filterMap (entryOf parsed)

/-- The entries of two pieces one after the other are those of the first and then those of the
second, which starts where the text of the first ends. -/
theorem entries_append (parsed : Parsed) (first second : Piece) (offset : Nat) :
    entries parsed (first ++ second) offset =
      entries parsed first offset ++ entries parsed second (offset + byteCount first.text) := by
  have nodes : (first ++ second).nodes offset =
      first.nodes offset ++ second.nodes (offset + byteCount first.text) := rfl
  simp only [entries, nodes, List.filter_append, List.filterMap_append]

/-- A node is an element whose tag stands at a place and has the given name and
attributes. -/
structure Tagged (node : Node) (name : Name) (attributes : Piece) (offset : Nat) : Prop where
  element : node.isElement = true
  tagged : ∃ tag ending, node.tag? = some tag ∧
    tag.children = (tagPiece "<" name attributes ending).nodes offset ∧
    ∀ parsed place, entries parsed ending place = []

/-- An element that closes itself is its own tag, so its name and attributes are found among its
own children. -/
theorem tagged_closed (name : Name) (attributes : Piece) (offset : Nat) :
    Tagged ((tagPiece "<" name attributes (.gap [' '] ++ .mark "/>")).node
      "jsx_self_closing_element" offset) name attributes offset := by
  refine ⟨rfl, (tagPiece "<" name attributes (.gap [' '] ++ .mark "/>")).node
    "jsx_self_closing_element" offset, _, rfl, rfl, fun _ _ => rfl⟩

/-- The tag of an element with something inside is its opening tag, which is picked out by its
role before the content is looked at. -/
theorem tagged_paired (name : Name) (attributes content closing : Piece) (offset : Nat) :
    Tagged (((openPiece name attributes).inRole "open_tag" ++ content ++ closing : Piece).node
      "jsx_element" offset) name attributes offset := by
  refine ⟨rfl, ((tagPiece "<" name attributes (.mark ">")).node "jsx_opening_element"
    offset).inRole "open_tag", .mark ">", ?_, rfl, fun _ _ => rfl⟩
  rfl

namespace Tagged

variable {node : Node} {name : Name} {attributes : Piece} {offset : Nat}

/-- The name of an element is read as the text of its name, if the source holds the bracket and
the name at the place of the tag. -/
theorem elementName (tagged : Tagged node name attributes offset) {parsed : Parsed}
    (held : parsed.Holds offset ('<' :: name.chars)) :
    parsed.elementName node = name.chars := by
  obtain ⟨tag, ending, found, children, _⟩ := tagged.tagged
  obtain ⟨kind, inner, _, nodes⟩ := name.piece_nodes (offset + byteCount "<".toList)
  have child : tag.child? "name" = some (.mk kind
      (spanOf (offset + byteCount "<".toList) name.chars) (some "name") true inner) := by
    rw [Node.child?, children, nodes_tagPiece, nodes]
    rfl
  have behind : parsed.Holds (offset + byteCount "<".toList) name.chars := by
    have split : '<' :: name.chars = "<".toList ++ name.chars := by simp
    rw [split] at held
    exact held.right
  simp only [Parsed.elementName, found, child, Parsed.textOf?]
  exact Parsed.textOf_eq behind rfl

/-- The attributes of an element are gathered from the entries of its attributes. The bracket, the
name and the end of the tag give no entry. -/
theorem attributes_eq (tagged : Tagged node name attributes offset) (parsed : Parsed) :
    parsed.attributes node =
      (entries parsed attributes (offset + byteCount ('<' :: name.chars))).foldl addFirst [] := by
  obtain ⟨tag, ending, found, children, unnamed⟩ := tagged.tagged
  obtain ⟨kind, inner, other, nodes⟩ := name.piece_nodes (offset + byteCount "<".toList)
  have listed : tag.namedChildren.filterMap (entryOf parsed) =
      entries parsed attributes (offset + byteCount ('<' :: name.chars)) := by
    have front : "<".toList ++ name.chars = '<' :: name.chars := by simp
    have first : entryOf parsed (.mk kind (spanOf (offset + byteCount "<".toList) name.chars)
        (some "name") true inner) = none := by
      simp [entryOf, Node.kind, other]
    have named : tag.namedChildren = .mk kind
        (spanOf (offset + byteCount "<".toList) name.chars) (some "name") true inner ::
          ((attributes.nodes (offset + byteCount ('<' :: name.chars))).filter Node.named ++
            (ending.nodes (offset + byteCount ('<' :: name.chars ++ attributes.text))).filter
              Node.named) := by
      rw [Node.namedChildren, children, nodes_tagPiece, nodes, front, ← List.filter_append]
      rfl
    have nothing := unnamed parsed (offset + byteCount ('<' :: name.chars ++ attributes.text))
    rw [named, List.filterMap_cons_none first, List.filterMap_append, ← entries, ← entries,
      nothing, List.append_nil]
  rw [← listed]
  simp only [Parsed.attributes, found]
  rfl

/-- An element whose tag has no attributes declares nothing: no entry is gathered, so there is no
path. -/
theorem silent (tagged : Tagged node name (.gap []) offset) (layouts : List String)
    (parsed : Parsed) : declarationOf? layouts parsed node = none := by
  apply declarationOf?_bare layouts parsed tagged.element
  rw [tagged.attributes_eq]
  rfl

end Tagged

/-- A tag with quiet attributes and a quiet end is quiet, because its bracket is of an inert kind
and its name is quiet. -/
theorem quiet_tagPiece {opening : String} (silent : isInert opening = true) (name : Name)
    {attributes ending : Piece} (former : Quiet attributes) (latter : Quiet ending) :
    Quiet (tagPiece opening name attributes ending) :=
  (((Quiet.mark silent).append (name.quiet.inRole "name")).append former).append latter

/-- An opening tag with quiet attributes is quiet, also in the role in which its element holds it.
-/
theorem quiet_openPiece (name : Name) {attributes : Piece} (quiet : Quiet attributes) :
    Quiet ((openPiece name attributes).inRole "open_tag") :=
  ((quiet_tagPiece (by decide) name quiet (.mark (by decide))).inert (by decide)).inRole _

/-- A closing tag is quiet, since it consists of marks and a name and has no attributes. -/
theorem quiet_closePiece (name : Name) : Quiet ((closePiece name).inRole "close_tag") :=
  ((quiet_tagPiece (by decide) name (.gap []) (.mark (by decide))).inert (by decide)).inRole _

/-- The inside of an element that closes itself is quiet when its attributes are. Whether the
element declares something is not decided here. -/
theorem quiet_closed (name : Name) {attributes : Piece} (quiet : Quiet attributes) :
    Quiet (tagPiece "<" name attributes (.gap [' '] ++ .mark "/>")) :=
  quiet_tagPiece (by decide) name quiet ((Quiet.gap _).append (.mark (by decide)))

/-- A rendered element is quiet, by itself and in a wrapper, since none of its tags has
attributes. -/
theorem Element.quiet (element : Element) : Quiet element.piece := by
  have leaf (component : Name) : Quiet (closedPiece component (.gap [])) :=
    (quiet_closed component (.gap [])).under fun layouts parsed offset =>
      (tagged_closed component (.gap []) offset).silent layouts parsed
  cases element with
  | plain component => exact leaf component
  | wrapped wrapper component =>
    have inside := ((quiet_openPiece wrapper (.gap [])).append (leaf component)).append
      (quiet_closePiece wrapper)
    exact inside.under fun layouts parsed offset =>
      (tagged_paired wrapper (.gap []) _ _ offset).silent layouts parsed

/-- A literal path is quiet, with braces or without. The induction is on how the tree splits its
text into fragments, which are leaves of an inert kind. -/
theorem Spelling.quiet (fragments : Fragments) (spelling : Spelling) (path : List Char) :
    Quiet (spelling.piece fragments path) := by
  have mark : Quiet (.mark spelling.markKind) := .mark (by cases spelling <;> decide)
  have inside : Quiet (insidePiece fragments path) := by
    intro layouts parsed offset
    show declares layouts parsed ((fragments offset path).map _) = []
    induction fragments offset path with
    | nil => rfl
    | cons fragment rest inductionHypothesis =>
      obtain ⟨kind, span⟩ := fragment
      rw [List.map_cons, ← List.singleton_append, declares_append, inductionHypothesis,
        declares_singleton, declarationOf?_inert layouts parsed (by cases kind <;> decide)]
      rfl
  have literal : Quiet (spelling.literalPiece fragments path) :=
    ((mark.append inside).append mark).inert (by cases spelling <;> decide)
  unfold piece
  split
  · exact (((Quiet.mark (by decide)).append literal).append (.mark (by decide))).inert (by decide)
  · exact literal

/-- The attributes of a route are quiet, although they hold elements: the rendered elements
declare nothing, and the path is a literal. -/
theorem Label.quiet (fragments : Fragments) (label : Label) :
    Quiet (label.attributesPiece fragments) := by
  have single (name : String) {value : Piece} (quiet : Quiet value) :
      Quiet (attributePiece name value) :=
    (Quiet.gap _).append (((((Quiet.leaf (by decide) _).append (.mark (by decide))).append
      quiet).inert (by decide)).inRole "attribute")
  have path : Quiet (label.pathPiece fragments) := by
    unfold pathPiece
    split
    · exact .gap []
    · exact single "path" (Spelling.quiet fragments _ _)
  have element : Quiet label.elementPiece :=
    single "element" ((((Quiet.mark (by decide)).append label.element.quiet).append
      (.mark (by decide))).inert (by decide))
  unfold attributesPiece
  split
  · exact element.append path
  · exact path.append element

/-- The place of the value of an attribute, behind its name and the equals sign. -/
def valueOffset (name : String) (offset : Nat) : Nat :=
  offset + byteCount [' '] + byteCount (name.toList ++ "=".toList)

/-- A source that holds an attribute holds its value behind the blank, the name and the equals
sign. -/
theorem holds_value {parsed : Parsed} {name : String} {value : Piece} {offset : Nat}
    (held : parsed.Holds offset (attributePiece name value).text) :
    parsed.Holds (valueOffset name offset) value.text :=
  held.right.right

/-- An attribute whose value is one node gives exactly one entry, of its name and this node. The
source must hold the attribute for the name to be read. -/
theorem entries_attributePiece {parsed : Parsed} {name : String} {value : Piece} {offset : Nat}
    {node : Node} (held : parsed.Holds offset (attributePiece name value).text)
    (nodes : value.nodes (valueOffset name offset) = [node]) (named : node.named = true) :
    entries parsed (attributePiece name value) offset = [(name, some node)] := by
  let label : Node := .mk "property_identifier" (spanOf (offset + byteCount [' ']) name.toList)
    none true []
  let inner : Piece := .leaf "property_identifier" name.toList ++ .mark "=" ++ value
  have spelled : parsed.textOf label = name.toList := Parsed.textOf_eq held.right.left.left rfl
  have children : (((inner.node "jsx_attribute" (offset + byteCount [' '])).inRole
      "attribute").namedChildren) = [label, node] := by
    have listed : inner.nodes (offset + byteCount [' ']) = [label,
        .mk "=" (spanOf (offset + byteCount [' '] + byteCount name.toList) "=".toList) none false
          []] ++ value.nodes (valueOffset name offset) := rfl
    have filtered : [node].filter Node.named = [node] := by simp [named]
    show (inner.nodes (offset + byteCount [' '])).filter Node.named = [label, node]
    rw [listed, nodes, List.filter_append, filtered]
    rfl
  have entry : entryOf parsed ((inner.node "jsx_attribute" (offset + byteCount [' '])).inRole
      "attribute") = some (name, some node) := by
    simp only [entryOf, children, spelled, String.ofList_toList]
    rfl
  show [(inner.node "jsx_attribute" (offset + byteCount [' '])).inRole "attribute"].filterMap
    (entryOf parsed) = _
  rw [List.filterMap_cons_some entry]
  rfl

/-- A node that stands for an expression of its own: it is neither a comment nor a bracket around
another one. -/
structure Plain (node : Node) : Prop where
  named : node.named = true
  comment : node.kind ≠ "comment"
  enclosure : node.isEnclosure = false

/-- A node over a piece stands for an expression, unless its kind says otherwise: it must be no
comment, and neither braces nor brackets. -/
theorem plain_node {kind : String} (comment : kind ≠ "comment") (braced : kind ≠ "jsx_expression")
    (parenthesized : kind ≠ "parenthesized_expression") (piece : Piece) (offset : Nat) :
    Plain (piece.node kind offset) :=
  ⟨rfl, comment, by simp [Node.isEnclosure, Piece.node, Node.kind, braced, parenthesized]⟩

/-- A node that stands for an expression of its own is found as it is, for there is no enclosure
to look into. -/
theorem Plain.unwrapped {node : Node} (plain : Plain node) : unwrap (some node) = some node := by
  show node.unwrapped = some node
  rw [Node.unwrapped]
  simp [plain.enclosure]

/-- A node that stands for an expression is what is found in braces around it, since it is the
only node between them. -/
theorem Plain.unwrap_braced {piece : Piece} {node : Node} {offset : Nat} (plain : Plain node)
    (nodes : piece.nodes (offset + byteCount "\x7b".toList) = [node]) :
    unwrap (some ((.mark "\x7b" ++ piece ++ .mark "\x7d" : Piece).node "jsx_expression" offset)) =
      some node := by
  let outer := (.mark "\x7b" ++ piece ++ .mark "\x7d" : Piece).node "jsx_expression" offset
  have listed : outer.children = [.mk "\x7b" (spanOf offset "\x7b".toList) none false []] ++
      piece.nodes (offset + byteCount "\x7b".toList) ++ (Piece.mark "\x7d").nodes
        (offset + byteCount ("\x7b".toList ++ piece.text)) := rfl
  have inside : outer.contents = [node] := by
    have named : [node].filter Node.named = [node] := by simp [plain.named]
    have kept : outer.namedChildren = [node] := by
      rw [Node.namedChildren, listed, nodes, List.filter_append, List.filter_append, named]
      rfl
    rw [Node.contents, kept]
    simp [plain.comment]
  have encloses : outer.isEnclosure = true := rfl
  show outer.unwrapped = some node
  rw [Node.unwrapped, if_pos encloses]
  split
  · next inner found =>
    rw [inside, List.head?_cons] at found
    obtain rfl := Option.some.inj found
    exact plain.unwrapped
  · next absent =>
    rw [inside, List.head?_cons] at absent
    cases absent

namespace Spelling

/-- The node of a literal path at a given place, with the marks and the fragments as its children.
-/
def literalNode (fragments : Fragments) (spelling : Spelling) (path : List Char) (place : Nat) :
    Node :=
  (.mark spelling.markKind ++ insidePiece fragments path ++ .mark spelling.markKind : Piece).node
    spelling.kind place

variable (fragments : Fragments) (spelling : Spelling) (path : List Char)

/-- The node of a literal stands for an expression of its own, whichever spelling the literal has.
-/
theorem plain_literalNode (place : Nat) : Plain (spelling.literalNode fragments path place) :=
  plain_node (by cases spelling <;> decide) (by cases spelling <;> decide)
    (by cases spelling <;> decide) _ place

/-- The node of a literal covers the literal with its marks, so its text is the whole literal when
the source holds it there. -/
theorem textOf_literalNode {parsed : Parsed} {place : Nat}
    (held : parsed.Holds place (spelling.literal path)) :
    parsed.textOf (spelling.literalNode fragments path place) = spelling.literal path := by
  have mark : spelling.markKind.toList = [spelling.mark] := String.toList_ofList
  have text : (.mark spelling.markKind ++ insidePiece fragments path ++
      .mark spelling.markKind : Piece).text = spelling.literal path := by
    simp [insidePiece, mark, Spelling.literal]
  apply Parsed.textOf_eq held
  rw [← text]
  rfl

/-- None of the fragments of a literal is a substitution, and so a literal in back quotes counts
as a fixed text as well. -/
theorem fixed_literalNode (place : Nat) :
    (spelling.literalNode fragments path place).namedChildren.any
      (fun child => child.kind == "template_substitution") = false := by
  have listed : (spelling.literalNode fragments path place).namedChildren =
      ((fragments (place + byteCount spelling.markKind.toList) path).map fun fragment =>
        Node.mk fragment.1.name fragment.2 none true []).filter Node.named := by
    show List.filter Node.named ([_] ++ ((fragments _ path).map _) ++ [_]) = _
    rw [List.filter_append, List.filter_append]
    exact List.append_nil _
  rw [listed, List.any_eq_false]
  intro child member
  obtain ⟨⟨kind, span⟩, _, rfl⟩ := List.mem_map.mp (List.mem_filter.mp member).1
  cases kind <;> simp [Node.kind, FragmentKind.name]

/-- An expression that is the node of a literal path has the path as its literal
text. -/
theorem literal?_literalNode {parsed : Parsed} {place : Nat} {outer : Node}
    (held : parsed.Holds place (spelling.literal path))
    (found : unwrap (some outer) = some (spelling.literalNode fragments path place)) :
    parsed.literal? (some outer) = some (String.ofList path) := by
  have whole := spelling.textOf_literalNode fragments path held
  have fixed := spelling.fixed_literalNode fragments path place
  have middle : inside (spelling.literal path) = path := by
    simp [inside, Spelling.literal]
  have kinds : spelling.kind = "string" ∨ spelling.kind = "template_string" := by
    cases spelling <;> simp [Spelling.kind]
  have kind : (spelling.literalNode fragments path place).kind = spelling.kind := rfl
  generalize spelling.literalNode fragments path place = node at found whole fixed kind
  rcases kinds with string | template
  · simp [Parsed.literal?, found, kind, string, whole, middle]
  · rw [template] at kind
    simp only [Parsed.literal?, found, kind, fixed, whole, middle]
    rfl

/-- A literal path is one node, and the literal text that is read off it is the path, both with
braces around it and without. -/
theorem literal?_piece {parsed : Parsed} {offset : Nat}
    (held : parsed.Holds offset (spelling.write path)) :
    ∃ node, (spelling.piece fragments path).nodes offset = [node] ∧ node.named = true ∧
      parsed.literal? (some node) = some (String.ofList path) := by
  have plain := spelling.plain_literalNode fragments path
  by_cases braced : spelling.braced = true
  · have split : '\x7b' :: spelling.literal path ++ ['\x7d'] =
        "\x7b".toList ++ spelling.literal path ++ ['\x7d'] := by simp
    rw [Spelling.write, if_pos braced, split] at held
    refine ⟨(.mark "\x7b" ++ spelling.literalPiece fragments path ++ .mark "\x7d" : Piece).node
      "jsx_expression" offset, ?_, rfl, ?_⟩
    · rw [Spelling.piece, if_pos braced]
      rfl
    · exact spelling.literal?_literalNode fragments path held.left.right
        ((plain _).unwrap_braced rfl)
  · rw [Spelling.write, if_neg braced] at held
    refine ⟨spelling.literalNode fragments path offset, ?_, rfl,
      spelling.literal?_literalNode fragments path held (plain offset).unwrapped⟩
    rw [Spelling.piece, if_neg braced]
    rfl

end Spelling

/-- The text of a tag is its bracket with its name, its attributes and its end, one behind the
other. -/
theorem text_tagPiece (name : Name) (attributes ending : Piece) :
    (tagPiece "<" name attributes ending).text =
      '<' :: name.chars ++ attributes.text ++ ending.text := by
  simp [tagPiece, name.text_piece]

/-- The name of an element is not empty, so reading it always gives the name that it declares. -/
theorem Name.nonEmpty?_chars (name : Name) : nonEmpty? name.chars = name.declared := by
  obtain ⟨rest, shown, _⟩ := name.chars_eq
  simp [nonEmpty?, shown, declared]

/-- A rendered element is one node that stands for an expression, and its names are read as they
are written, those of the wrappers included. -/
theorem Element.renderedNames_piece (element : Element) {parsed : Parsed} {offset : Nat}
    (held : parsed.Holds offset element.piece.text) :
    ∃ node, element.piece.nodes offset = [node] ∧ Plain node ∧
      renderedNames parsed (some node) = element.names Name.declared := by
  have named {node : Node} {name : Name} {attributes ending : Piece} {place : Nat}
      (tagged : Tagged node name attributes place)
      (there : parsed.Holds place (tagPiece "<" name attributes ending).text) :
      nonEmpty? (parsed.elementName node) = name.declared := by
    rw [text_tagPiece] at there
    rw [tagged.elementName there.left.left, name.nonEmpty?_chars]
  cases element with
  | plain component =>
    have tagged := tagged_closed component (.gap []) offset
    refine ⟨_, rfl, plain_node (by decide) (by decide) (by decide) _ offset, ?_⟩
    have name := named tagged held
    simp only [renderedNames, tagged.element, name]
    rfl
  | wrapped wrapper component =>
    let body := (openPiece wrapper (.gap [])).inRole "open_tag" ++
      closedPiece component (.gap []) ++ (closePiece wrapper).inRole "close_tag"
    let inner := (tagPiece "<" component (.gap []) (.gap [' '] ++ .mark "/>")).node
      "jsx_self_closing_element" (offset + byteCount (openPiece wrapper (.gap [])).text)
    have around : Tagged (body.node "jsx_element" offset) wrapper (.gap []) offset :=
      tagged_paired wrapper (.gap []) _ _ offset
    have within : Tagged inner component (.gap []) _ := tagged_closed component (.gap []) _
    have opening : parsed.Holds offset (tagPiece "<" wrapper (.gap []) (.mark ">")).text :=
      held.left.left
    have outerName := named around opening
    have innerName := named within held.left.right
    have content : (body.node "jsx_element" offset).childElements = [inner] := rfl
    refine ⟨body.node "jsx_element" offset, rfl,
      plain_node (by decide) (by decide) (by decide) _ offset, ?_⟩
    simp only [renderedNames, around.element, outerName, content, List.head?_cons,
      Option.bind_some, innerName]
    rfl

/-- The attribute with the rendered element gives exactly one entry. Its value, without the
braces, gives the names of the element as they are written. -/
theorem Label.entries_elementPiece (label : Label) {parsed : Parsed} {offset : Nat}
    (held : parsed.Holds offset label.elementPiece.text) :
    ∃ node, entries parsed label.elementPiece offset = [("element", some node)] ∧
      renderedNames parsed (unwrap (some node)) = label.element.names Name.declared := by
  have value := holds_value held
  obtain ⟨inner, nodes, plain, names⟩ := label.element.renderedNames_piece value.left.right
  exact ⟨_, entries_attributePiece held rfl rfl, by rw [plain.unwrap_braced nodes, names]⟩

/-- The path attribute of a route that has a path gives exactly one entry, and the literal text of
its value is the path. -/
theorem Label.entries_pathPiece (fragments : Fragments) (label : Label) {path : PathText}
    {spelling : Spelling} (given : label.path = some (path, spelling)) {parsed : Parsed}
    {offset : Nat} (held : parsed.Holds offset (label.pathPiece fragments).text) :
    ∃ node, entries parsed (label.pathPiece fragments) offset = [("path", some node)] ∧
      parsed.literal? (some node) = some (String.ofList path.chars) := by
  have shown : label.pathPiece fragments =
      attributePiece "path" (spelling.piece fragments path.chars) := by
    simp [pathPiece, given]
  rw [shown] at held ⊢
  have value := holds_value held
  rw [Spelling.text_piece] at value
  obtain ⟨node, nodes, named, read⟩ := spelling.literal?_piece fragments path.chars value
  exact ⟨node, entries_attributePiece held nodes named, read⟩

/-- What a route declares in a given tag is its path and what is rendered there; a route without a
path declares nothing. The two attributes may stand in either order. -/
theorem Label.declared?_route (fragments : Fragments) (label : Label) {parsed : Parsed}
    {node : Node} {offset : Nat}
    (tagged : Tagged node routeName (label.attributesPiece fragments) offset)
    (held : parsed.Holds offset
      ('<' :: routeName.chars ++ (label.attributesPiece fragments).text)) :
    match label.path with
    | none => declared? parsed node = none
    | some (path, _) => ∃ value rendered, declared? parsed node = some (some value, some rendered) ∧
        parsed.literal? (some value) = some (String.ofList path.chars) ∧
        renderedNames parsed (unwrap (some rendered)) = label.element.names Name.declared := by
  have name : parsed.elementName node = "Route".toList := by
    rw [tagged.elementName held.left]
    decide
  have attributes := tagged.attributes_eq parsed
  have there := held.right
  have start : declared? parsed node = do
      let path ← (parsed.attributes node).lookup "path"
      return (path, ((parsed.attributes node).lookup "element").join) := by
    simp [declared?, tagged.element, name]
  rw [start, attributes]
  generalize offset + byteCount ('<' :: routeName.chars) = place at there
  by_cases first : label.elementFirst = true
  · rw [attributesPiece, if_pos first] at there ⊢
    obtain ⟨rendered, shown, names⟩ := label.entries_elementPiece there.left
    rw [entries_append, shown]
    cases given : label.path with
    | none =>
      simp only [pathPiece, given]
      rfl
    | some spelled =>
      obtain ⟨path, spelling⟩ := spelled
      obtain ⟨value, found, read⟩ := label.entries_pathPiece fragments given there.right
      rw [found]
      exact ⟨value, rendered, rfl, read, names⟩
  · rw [attributesPiece, if_neg first] at there ⊢
    obtain ⟨rendered, shown, names⟩ := label.entries_elementPiece there.right
    rw [entries_append, shown]
    cases given : label.path with
    | none =>
      simp only [pathPiece, given]
      rfl
    | some spelled =>
      obtain ⟨path, spelling⟩ := spelled
      obtain ⟨value, found, read⟩ := label.entries_pathPiece fragments given there.left
      rw [found]
      exact ⟨value, rendered, rfl, read, names⟩

/-- The declaration that the tree pass reads off a route is the entry of its label, with the span
of the node. Names are read as a whole here. -/
theorem Label.declarationOf?_route (fragments : Fragments) (label : Label) (layouts : List String)
    {parsed : Parsed} {node : Node} {offset : Nat}
    (tagged : Tagged node routeName (label.attributesPiece fragments) offset)
    (held : parsed.Holds offset
      ('<' :: routeName.chars ++ (label.attributesPiece fragments).text)) :
    declarationOf? layouts parsed node = (label.entry Name.declared layouts).map fun entry =>
      { rawPath := entry.rawPath
        start := node.span.start
        stop := node.span.stop
        component := entry.component
        skip := entry.skip } := by
  have declared := label.declared?_route fragments tagged held
  cases given : label.path with
  | none =>
    rw [given] at declared
    simp [declarationOf?, declared, Label.entry, given]
  | some spelled =>
    obtain ⟨path, spelling⟩ := spelled
    rw [given] at declared
    obtain ⟨value, rendered, found, read, names⟩ := declared
    simp [declarationOf?, found, read, names, Label.entry, given, trimmed]

/-- Every character counts for its bytes, as the spans of a syntax tree do. -/
def bytes : Forest.Layout Label := layout Char.utf8Size Char.utf8Size_pos

/-- An element with quiet attributes gives its own declaration, if it makes one, and then those of
its content. Its tags add none. -/
theorem declares_pairedPiece (layouts : List String) (parsed : Parsed) (name : Name)
    {attributes : Piece} (quiet : Quiet attributes) (content : Piece) (offset : Nat) :
    declares layouts parsed ((pairedPiece name attributes content).nodes offset) =
      (declarationOf? layouts parsed (((openPiece name attributes).inRole "open_tag" ++ content ++
        (closePiece name).inRole "close_tag" : Piece).node "jsx_element" offset)).toList ++
      declares layouts parsed
        (content.nodes (offset + byteCount (openPiece name attributes).text)) := by
  let opening := (openPiece name attributes).inRole "open_tag"
  let closing := (closePiece name).inRole "close_tag"
  let node := (opening ++ content ++ closing).node "jsx_element" offset
  have children : node.children = opening.nodes offset ++
      content.nodes (offset + byteCount opening.text) ++
        closing.nodes (offset + byteCount (opening ++ content).text) := rfl
  show declares layouts parsed [node] = _
  rw [declares_singleton, children, declares_append, declares_append, quiet_openPiece name quiet,
    quiet_closePiece name, List.nil_append, List.append_nil]
  rfl

/-- The declarations of a route are its own, if it has a path, and those of what is inside it. A
route without children is written as an element that closes itself. -/
theorem declares_routePiece (fragments : Fragments) (label : Label) (layouts : List String)
    {parsed : Parsed} {offset : Nat} (leaf : Bool) (content : Piece)
    (held : parsed.Holds offset (routePiece fragments label leaf content).text) :
    declares layouts parsed ((routePiece fragments label leaf content).nodes offset) =
      ((label.entry Name.declared layouts).map fun entry =>
        { rawPath := entry.rawPath
          start := offset
          stop := (offset + byteCount (routePiece fragments label leaf content).text : Nat)
          component := entry.component
          skip := entry.skip : Declaration }).toList ++
        if leaf then []
        else declares layouts parsed
          (content.nodes (offset + byteCount (label.openTag false))) := by
  have quiet := label.quiet fragments
  cases leaf with
  | true =>
    let node := (tagPiece "<" routeName (label.attributesPiece fragments)
      (.gap [' '] ++ .mark "/>")).node "jsx_self_closing_element" offset
    have tagged : Tagged node routeName (label.attributesPiece fragments) offset :=
      tagged_closed routeName _ offset
    have there : parsed.Holds offset (tagPiece "<" routeName (label.attributesPiece fragments)
      (.gap [' '] ++ .mark "/>")).text := held
    have inside : declares layouts parsed node.children = [] :=
      quiet_closed routeName quiet layouts parsed offset
    rw [text_tagPiece] at there
    show declares layouts parsed [node] = _
    rw [declares_singleton, label.declarationOf?_route fragments layouts tagged there.left, inside]
    rfl
  | false =>
    have tagged := tagged_paired routeName (label.attributesPiece fragments) content
      ((closePiece routeName).inRole "close_tag") offset
    have there : parsed.Holds offset (tagPiece "<" routeName (label.attributesPiece fragments)
      (.mark ">")).text := held.left.left
    have text : (openPiece routeName (label.attributesPiece fragments)).text =
        label.openTag false := by
      have name : routeName.chars = ['R', 'o', 'u', 't', 'e'] := by decide
      simp [openPiece, text_tagPiece, name, Label.text_attributesPiece, Label.openTag,
        Label.ending]
    rw [text_tagPiece] at there
    show declares layouts parsed ((pairedPiece routeName (label.attributesPiece fragments)
      content).nodes offset) = _
    rw [declares_pairedPiece layouts parsed routeName quiet,
      label.declarationOf?_route fragments layouts tagged there.left, text]
    rfl

/-- The tree pass over a written forest finds the declarations that the forest lays
out, counted in bytes.

Proof: induction over the forest. The first route gives its own declaration, if it
has a path, and those of its children; its span covers its text. -/
theorem declares_forestPiece (fragments : Fragments) (layouts : List String)
    (forest : Forest Label) {parsed : Parsed} {offset : Nat}
    (held : parsed.Holds offset (write forest)) :
    declares layouts parsed ((forestPiece fragments forest).nodes offset) =
      bytes.declarations (Label.entry Name.declared layouts) offset forest := by
  induction forest generalizing offset with
  | empty => rfl
  | node label children siblings below beside =>
    let route := routePiece fragments label children.isEmpty (forestPiece fragments children)
    have text : route.text = label.openTag children.isEmpty ++ write children ++
        (if children.isEmpty then [] else closeTag) := by
      simp only [route, text_routePiece]
      cases leaf : children.isEmpty with
      | true => simp [write_of_isEmpty leaf]
      | false => simp [text_forestPiece]
    have wide : byteCount route.text = bytes.nodeWidth label children := by
      rw [text, byteCount_eq_sum, bytes, nodeWidth_write]
    have opened : byteCount (label.openTag children.isEmpty) =
        bytes.opening label children.isEmpty := byteCount_eq_sum _
    have nodes : (forestPiece fragments (.node label children siblings)).nodes offset =
        route.nodes offset ++
          (forestPiece fragments siblings).nodes (offset + byteCount route.text) := rfl
    have split : write (.node label children siblings) = route.text ++ write siblings := by
      rw [text, write]
    rw [split] at held
    have inside := declares_routePiece fragments label layouts children.isEmpty
      (forestPiece fragments children) held.left
    have behind := beside held.right
    rw [wide] at behind
    rw [nodes, declares_append, wide, behind, inside, wide]
    have content : (if children.isEmpty then [] else declares layouts parsed
        ((forestPiece fragments children).nodes (offset + byteCount (label.openTag false)))) =
        bytes.declarations (Label.entry Name.declared layouts)
          (offset + bytes.opening label children.isEmpty) children := by
      cases leaf : children.isEmpty with
      | true =>
        cases children with
        | empty => rfl
        | node => cases leaf
      | false =>
        have there := held.left
        rw [text, leaf] at there
        rw [leaf] at opened
        rw [← opened]
        exact below there.left.right
    rw [content]
    cases given : label.entry Name.declared layouts with
    | none => simp [Forest.Layout.declarations, given]
    | some entry => simp [Forest.Layout.declarations, given]

/-- The tree pass over a source finds the declarations of its routes, counted in bytes from where
the routes start. What is written around the routes is quiet. -/
theorem Source.treeDeclarations_tree (fragments : Fragments) (layouts : List String)
    (source : Source) :
    ∃ offset, treeDeclarations layouts
        { root := source.tree fragments, bytes := encode source.text } =
      bytes.declarations (Label.entry Name.declared layouts) offset source.forest := by
  let parsed : Parsed := { root := source.tree fragments, bytes := encode source.text }
  have held : parsed.Holds 0 (source.piece fragments).text := by
    rw [source.text_piece]
    exact Parsed.holds_whole _ _
  have statement : treeDeclarations layouts parsed =
      declares layouts parsed ((source.piece fragments).nodes 0) := by
    have outer : declares layouts parsed [source.tree fragments] =
        declares layouts parsed [(source.piece fragments).node "expression_statement" 0] := by
      rw [declares_singleton, tree, Piece.node,
        declarationOf?_inert layouts parsed (by decide), Option.toList_none, List.nil_append]
      rfl
    rw [treeDeclarations_eq, outer, declares_singleton, Piece.node,
      declarationOf?_inert layouts parsed (by decide), Option.toList_none, List.nil_append]
    rfl
  rw [statement]
  cases source with
  | single label children =>
    refine ⟨0, ?_⟩
    have alone : (Source.single label children).piece fragments =
        routePiece fragments label children.isEmpty (forestPiece fragments children) := rfl
    have nodes : (forestPiece fragments (.node label children .empty)).nodes 0 =
        ((Source.single label children).piece fragments).nodes 0 := by
      rw [alone]
      exact List.append_nil _
    rw [← nodes]
    apply declares_forestPiece
    rw [Source.text_piece] at held
    exact held
  | list forest =>
    refine ⟨0 + byteCount (openPiece routesName (.gap [])).text, ?_⟩
    have inside : parsed.Holds (0 + byteCount (openPiece routesName (.gap [])).text)
        (forestPiece fragments forest).text := held.left.right
    have silent := (tagged_paired routesName (.gap []) (forestPiece fragments forest)
      ((closePiece routesName).inRole "close_tag") 0).silent layouts parsed
    rw [text_forestPiece] at inside
    rw [piece, declares_pairedPiece layouts parsed routesName (Quiet.gap []), silent,
      Option.toList_none, List.nil_append, declares_forestPiece fragments layouts forest inside]
    rfl

end ScreenAtlas.Route.Markup
