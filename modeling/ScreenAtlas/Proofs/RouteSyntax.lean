import ScreenAtlas.Proofs.EncodedText
import ScreenAtlas.Proofs.RouteMarkup

/-!
# The syntax tree of a written route tree

The grammar of scripts gives every written route tree one concrete tree. It is
put together here from pieces. A piece is a stretch of text together with the
nodes that stand for it, which depend on the place of the text among the bytes of
the source. Brackets and other marks are unnamed nodes; the name, the attributes
and the two tags of an element carry their roles.

How the inside of a literal is divided into fragments is left open: the grammar
separates plain text from character references, and nothing depends on it.
-/
namespace ScreenAtlas.Route.Markup

open ScreenAtlas.Script ScreenAtlas.Text

/-- A stretch of text and the nodes that stand for it at a given place. -/
structure Piece where
  text : List Char
  nodes : Nat → List Node

/-- What a text at a given place covers. Written routes take a single row. -/
def spanOf (offset : Nat) (text : List Char) : Span where
  start := offset
  stop := offset + byteCount text
  firstRow := 0
  lastRow := 0

namespace Piece

/-- Text without nodes of its own, such as the blanks between two attributes. -/
def gap (text : List Char) : Piece where
  text := text
  nodes _ := []

/-- A mark, which is a node of its own kind and unnamed. -/
def mark (kind : String) : Piece where
  text := kind.toList
  nodes offset := [.mk kind (spanOf offset kind.toList) none false []]

/-- A named node without children, which covers the text. -/
def leaf (kind : String) (text : List Char) : Piece where
  text := text
  nodes offset := [.mk kind (spanOf offset text) none true []]

/-- One piece behind another, whose nodes are moved by the bytes of the first. -/
def append (first second : Piece) : Piece where
  text := first.text ++ second.text
  nodes offset := first.nodes offset ++ second.nodes (offset + byteCount first.text)

instance : Append Piece := ⟨append⟩

/-- The node of a given kind that covers a piece, whose nodes are its children. -/
def node (kind : String) (piece : Piece) (offset : Nat) : Node :=
  .mk kind (spanOf offset piece.text) none true (piece.nodes offset)

/-- A piece under a node of its own, which covers the whole text. -/
def under (kind : String) (piece : Piece) : Piece where
  text := piece.text
  nodes offset := [piece.node kind offset]

/-- The same piece with its nodes in a role. -/
def inRole (role : String) (piece : Piece) : Piece where
  text := piece.text
  nodes offset := (piece.nodes offset).map (Node.inRole role)

-- The text of a piece does not depend on where it stands or on what its nodes are.

@[simp] theorem text_gap (text : List Char) : (gap text).text = text := rfl

@[simp] theorem text_mark (kind : String) : (mark kind).text = kind.toList := rfl

@[simp] theorem text_leaf (kind : String) (text : List Char) : (leaf kind text).text = text := rfl

@[simp] theorem text_append (first second : Piece) :
    (first ++ second).text = first.text ++ second.text := rfl

@[simp] theorem text_under (kind : String) (piece : Piece) :
    (piece.under kind).text = piece.text := rfl

@[simp] theorem text_inRole (role : String) (piece : Piece) :
    (piece.inRole role).text = piece.text := rfl

end Piece

/-- The kinds of fragments inside a literal. -/
inductive FragmentKind where
  | text
  | reference

/-- The kind of a fragment in the words of the grammar. -/
def FragmentKind.name : FragmentKind → String
  | text => "string_fragment"
  | reference => "html_character_reference"

/-- How the inside of a literal at a given place is divided. -/
abbrev Fragments := Nat → List Char → List (FragmentKind × Span)

/-- The inside of a literal, with one node for each of its fragments. -/
def insidePiece (fragments : Fragments) (path : List Char) : Piece where
  text := path
  nodes offset := (fragments offset path).map fun (kind, span) => .mk kind.name span none true []

namespace Spelling

/-- The kind of node that a literal of the spelling is. -/
def kind : Spelling → String
  | double | single | bracedDouble | bracedSingle => "string"
  | template => "template_string"

/-- The mark of a spelling as the kind of a node. -/
def markKind (spelling : Spelling) : String := String.ofList [spelling.mark]

/-- A literal path between the marks of its spelling. -/
def literalPiece (fragments : Fragments) (spelling : Spelling) (path : List Char) : Piece :=
  (.mark spelling.markKind ++ insidePiece fragments path ++ .mark spelling.markKind : Piece).under
    spelling.kind

end Spelling

/-- An expression that stands in braces, as the value of an attribute. -/
def bracedPiece (piece : Piece) : Piece :=
  (.mark "\x7b" ++ piece ++ .mark "\x7d" : Piece).under "jsx_expression"

/-- A literal path as the value of an attribute. -/
def Spelling.piece (fragments : Fragments) (spelling : Spelling) (path : List Char) : Piece :=
  if spelling.braced then bracedPiece (spelling.literalPiece fragments path)
  else spelling.literalPiece fragments path

/-- A name with further members behind it, each of them under a node around what
stands before it. -/
def memberPiece (inner : Piece) : List Identifier → Piece
  | [] => inner
  | part :: rest =>
    let property := Piece.leaf "property_identifier" part.chars
    memberPiece ((inner.inRole "object" ++ .mark "." ++ property.inRole "property" : Piece).under
      "member_expression") rest

/-- The name of an element with the members behind it. -/
def Name.piece (name : Name) : Piece :=
  memberPiece (.leaf "identifier" name.head.chars) name.members

/-- The inside of a tag: its bracket, its name, its attributes and its end. -/
def tagPiece (opening : String) (name : Name) (attributes ending : Piece) : Piece :=
  .mark opening ++ name.piece.inRole "name" ++ attributes ++ ending

/-- An element that closes itself, with a blank before its end. -/
def closedPiece (name : Name) (attributes : Piece) : Piece :=
  (tagPiece "<" name attributes (.gap [' '] ++ .mark "/>")).under "jsx_self_closing_element"

/-- The opening tag of an element with something inside. -/
def openPiece (name : Name) (attributes : Piece) : Piece :=
  (tagPiece "<" name attributes (.mark ">")).under "jsx_opening_element"

/-- The closing tag of an element with something inside. -/
def closePiece (name : Name) : Piece :=
  (tagPiece "</" name (.gap []) (.mark ">")).under "jsx_closing_element"

/-- An element with something inside, between its opening and its closing tag. -/
def pairedPiece (name : Name) (attributes content : Piece) : Piece :=
  ((openPiece name attributes).inRole "open_tag" ++ content ++
    (closePiece name).inRole "close_tag" : Piece).under "jsx_element"

/-- What a route renders, with the wrapper around it if there is one. -/
def Element.piece : Element → Piece
  | plain component => closedPiece component (.gap [])
  | wrapped wrapper component =>
    pairedPiece wrapper (.gap []) (closedPiece component (.gap []))

/-- An attribute with the blank before it. -/
def attributePiece (name : String) (value : Piece) : Piece :=
  .gap [' '] ++ ((.leaf "property_identifier" name.toList ++ .mark "=" ++ value : Piece).under
    "jsx_attribute").inRole "attribute"

namespace Label

/-- The attribute with the path of a route, or nothing when the route has none. -/
def pathPiece (fragments : Fragments) (label : Label) : Piece :=
  match label.path with
  | none => .gap []
  | some (path, spelling) => attributePiece "path" (spelling.piece fragments path.chars)

/-- The attribute with the element that a route renders, in braces. -/
def elementPiece (label : Label) : Piece :=
  attributePiece "element" (bracedPiece label.element.piece)

/-- Both attributes of a route in the order in which they are written. -/
def attributesPiece (fragments : Fragments) (label : Label) : Piece :=
  if label.elementFirst then label.elementPiece ++ label.pathPiece fragments
  else label.pathPiece fragments ++ label.elementPiece

end Label

/-- The name of the elements that declare routes. -/
def routeName : Name := .single 'R' "oute" (by decide) (by decide)

/-- The name of the element around a list of routes. -/
def routesName : Name := .single 'R' "outes" (by decide) (by decide)

/-- One route with what stands inside it, which is nothing for a leaf. -/
def routePiece (fragments : Fragments) (label : Label) (leaf : Bool) (content : Piece) : Piece :=
  if leaf then closedPiece routeName (label.attributesPiece fragments)
  else pairedPiece routeName (label.attributesPiece fragments) content

/-- A forest of routes, one behind the other and the children inside their parents. -/
def forestPiece (fragments : Fragments) : Forest Label → Piece
  | .empty => .gap []
  | .node label children siblings =>
    routePiece fragments label children.isEmpty (forestPiece fragments children) ++
      forestPiece fragments siblings

/-- A source that declares routes: a single one by itself, or a list of them. -/
inductive Source where
  | single (label : Label) (children : Forest Label)
  | list (forest : Forest Label)

namespace Source

/-- The routes of a source, where a single one is a forest with one tree. -/
def forest : Source → Forest Label
  | single label children => .node label children .empty
  | list forest => forest

/-- The text of a source, where only a list has an element around it. -/
def text : Source → List Char
  | single label children => writeList false (.node label children .empty)
  | list forest => writeList true forest

/-- The element of a source, which is a route or a list of routes. -/
def piece (fragments : Fragments) : Source → Piece
  | single label children =>
    routePiece fragments label children.isEmpty (forestPiece fragments children)
  | list forest => pairedPiece routesName (.gap []) (forestPiece fragments forest)

/-- The tree of a source, as a statement of a program. -/
def tree (fragments : Fragments) (source : Source) : Node :=
  ((source.piece fragments).under "expression_statement").node "program" 0

end Source

/-- The piece of a literal has the text in which the spelling writes the path, whatever its
fragments are. -/
theorem Spelling.text_piece (fragments : Fragments) (spelling : Spelling) (path : List Char) :
    (spelling.piece fragments path).text = spelling.write path := by
  have mark : spelling.markKind.toList = [spelling.mark] := String.toList_ofList
  by_cases braced : spelling.braced = true
  · simp [piece, write, braced, bracedPiece, literalPiece, insidePiece, literal, mark]
  · simp [piece, write, braced, literalPiece, insidePiece, literal, mark]

/-- The piece of a name has the text of the name. The induction is on the members, for any piece
they stand behind. -/
theorem Name.text_piece (name : Name) : name.piece.text = name.chars := by
  have members : ∀ (parts : List Identifier) (inner : Piece), (memberPiece inner parts).text =
      inner.text ++ parts.flatMap fun part => '.' :: part.chars := by
    intro parts
    induction parts with
    | nil => simp [memberPiece]
    | cons part rest inductionHypothesis =>
      intro inner
      simp [memberPiece, inductionHypothesis]
  rw [piece, members, chars]
  rfl

/-- The piece of an element has the text in which the element is written, with or without a
wrapper. -/
theorem Element.text_piece (element : Element) : element.piece.text = element.chars := by
  cases element with
  | plain component => simp [piece, chars, leafTag, closedPiece, tagPiece, Name.text_piece]
  | wrapped wrapper component =>
    simp [piece, chars, leafTag, closedPiece, pairedPiece, openPiece, closePiece, tagPiece,
      Name.text_piece]

/-- The pieces of the attributes have the text in which the attributes are written, in either
order and with or without a path. -/
theorem Label.text_attributesPiece (fragments : Fragments) (label : Label) :
    (label.attributesPiece fragments).text = label.attributes := by
  have path : (label.pathPiece fragments).text = label.pathAttribute := by
    cases given : label.path with
    | none => simp [pathPiece, pathAttribute, given]
    | some spelled =>
      simp [pathPiece, pathAttribute, given, attributePiece, Spelling.text_piece]
  have element : label.elementPiece.text = label.elementAttribute := by
    simp [elementPiece, elementAttribute, attributePiece, bracedPiece, Element.text_piece]
  unfold attributesPiece attributes
  split <;> simp [path, element]

/-- The piece of a route has the text of its tags around what is inside, or that of a single tag
when nothing is. -/
theorem text_routePiece (fragments : Fragments) (label : Label) (leaf : Bool) (content : Piece) :
    (routePiece fragments label leaf content).text = label.openTag leaf ++
      if leaf then [] else content.text ++ closeTag := by
  have name : routeName.chars = ['R', 'o', 'u', 't', 'e'] := by decide
  cases leaf with
  | true =>
    simp [routePiece, closedPiece, tagPiece, Name.text_piece, name, Label.text_attributesPiece,
      Label.openTag, Label.ending]
  | false =>
    simp [routePiece, pairedPiece, openPiece, closePiece, tagPiece, Name.text_piece, name,
      Label.text_attributesPiece, Label.openTag, Label.ending, closeTag]

/-- The piece of a forest has the text in which the forest is written. The induction is on the
forest. -/
theorem text_forestPiece (fragments : Fragments) (forest : Forest Label) :
    (forestPiece fragments forest).text = write forest := by
  induction forest with
  | empty => rfl
  | node label children siblings below beside =>
    cases leaf : children.isEmpty with
    | true => simp [forestPiece, write, leaf, text_routePiece, beside, write_of_isEmpty leaf]
    | false => simp [forestPiece, write, leaf, text_routePiece, below, beside]

/-- The piece of a source has the text of the source, both for a single route and for a list. -/
theorem Source.text_piece (fragments : Fragments) (source : Source) :
    (source.piece fragments).text = source.text := by
  cases source with
  | single label children =>
    cases leaf : children.isEmpty with
    | true =>
      simp [piece, text, writeList, write, leaf, text_routePiece, write_of_isEmpty leaf]
    | false => simp [piece, text, writeList, write, leaf, text_routePiece, text_forestPiece]
  | list forest =>
    have name : routesName.chars = ['R', 'o', 'u', 't', 'e', 's'] := by decide
    simp [piece, text, writeList, pairedPiece, openPiece, closePiece, tagPiece,
      Name.text_piece, name, text_forestPiece]

end ScreenAtlas.Route.Markup
