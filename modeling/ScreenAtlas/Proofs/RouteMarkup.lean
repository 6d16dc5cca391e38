import Mathlib
import ScreenAtlas.Proofs.Nesting
import ScreenAtlas.Proofs.TagText

/-!
# Route trees and their spelling

A source declares its routes as a tree of `Route` elements. Each of them may carry
a path, in one of the usual spellings of a literal text, and renders an element,
which may be wrapped in another one; the two attributes stand in either order.
This module defines such trees and writes them out.

Paths and names carry their own well-formedness, so that every tree is one that
can stand in a source. Names are made of the characters that the grammar of
scripts allows in identifiers, of any script.
-/
namespace ScreenAtlas.Route.Markup

open ScreenAtlas.Text

/-- A character that a literal path may hold. -/
def isPathChar (c : Char) : Bool :=
  !isQuote c && !(['\\', '\x7b', '\x7d', '<', '=', '$', '\n', '\r'].contains c)

/-- The text of a literal path: only characters that may stand between quotation marks as they
are. -/
structure PathText where
  chars : List Char
  allowed : ∀ c ∈ chars, isPathChar c = true

/-- The path of a given text, all of whose characters are allowed. -/
def PathText.ofString (text : String) (allowed : text.toList.all isPathChar = true) :
    PathText where
  chars := text.toList
  allowed := List.all_eq_true.mp allowed

/-- The marks that have a meaning of their own in a script, and the characters
without a width. -/
def marks : List Char :=
  [':', ';', '`', '"', '\'', '@', '#', '.', ',', '|', '^', '&', '<', '=', '>', '+', '-', '*', '/',
    '\\', '%', '?', '!', '~', '(', ')', '[', ']', '\x7b', '\x7d', '\u200b', '\u2060', '\ufeff']

/-- A character that an identifier may hold. -/
def isIdentifierChar (c : Char) : Bool := 0x20 < c.toNat && !isBlank c && !marks.contains c

/-- An identifier: its characters, of which the first is no digit. -/
structure Identifier where
  first : Char
  rest : List Char
  solid : first.isDigit = false
  allowed : ∀ c ∈ first :: rest, isIdentifierChar c = true

/-- The characters of an identifier, the first one in front of the others. -/
def Identifier.chars (identifier : Identifier) : List Char := identifier.first :: identifier.rest

/-- The identifier of a given text, split behind its first character. -/
def Identifier.ofString (first : Char) (rest : String) (solid : first.isDigit = false)
    (allowed : (first :: rest.toList).all isIdentifierChar = true) : Identifier where
  first
  rest := rest.toList
  solid
  allowed := List.all_eq_true.mp allowed

/-- The name of an element: an identifier and any number of members. -/
structure Name where
  head : Identifier
  members : List Identifier

/-- The name that is a single identifier. -/
def Name.single (first : Char) (rest : String) (solid : first.isDigit = false)
    (allowed : (first :: rest.toList).all isIdentifierChar = true) : Name where
  head := .ofString first rest solid allowed
  members := []

/-- A name as it is written, with points between its parts. -/
def Name.chars (name : Name) : List Char :=
  name.head.chars ++ name.members.flatMap fun part => '.' :: part.chars

/-- What a route renders: a component, or a component inside a wrapper. -/
inductive Element where
  | plain (component : Name)
  | wrapped (wrapper component : Name)

/-- The tag of a component without children. -/
def leafTag (name : Name) : List Char := '<' :: name.chars ++ [' ', '/', '>']

/-- An element as it is written, with the tags of the wrapper around the component. -/
def Element.chars : Element → List Char
  | plain component => leafTag component
  | wrapped wrapper component =>
    '<' :: wrapper.chars ++ '>' :: leafTag component ++ '<' :: '/' :: wrapper.chars ++ ['>']

/-- How a literal path is written: as the text of an attribute, or as a literal or
template in braces. -/
inductive Spelling where
  | double
  | single
  | bracedDouble
  | bracedSingle
  | template
  deriving DecidableEq

namespace Spelling

/-- The quotation mark of a spelling. -/
def mark : Spelling → Char
  | double | bracedDouble => '"'
  | single | bracedSingle => '\''
  | template => '`'

/-- Whether the literal stands in braces. -/
def braced : Spelling → Bool
  | double | single => false
  | bracedDouble | bracedSingle | template => true

/-- A path between its quotation marks. -/
def literal (spelling : Spelling) (path : List Char) : List Char :=
  spelling.mark :: path ++ [spelling.mark]

/-- A literal path as it is written, with the braces of its spelling. -/
def write (spelling : Spelling) (path : List Char) : List Char :=
  if spelling.braced then '\x7b' :: spelling.literal path ++ ['\x7d'] else spelling.literal path

end Spelling

/-- A `Route` element without what stands inside it. -/
structure Label where
  path : Option (PathText × Spelling)
  element : Element
  elementFirst : Bool

namespace Label

/-- The attribute with the path, or nothing when the route has no path. -/
def pathAttribute (label : Label) : List Char :=
  match label.path with
  | none => []
  | some (path, spelling) => [' ', 'p', 'a', 't', 'h', '='] ++ spelling.write path.chars

/-- The attribute with the rendered element. -/
def elementAttribute (label : Label) : List Char :=
  [' ', 'e', 'l', 'e', 'm', 'e', 'n', 't', '=', '\x7b'] ++ label.element.chars ++ ['\x7d']

/-- Both attributes in the order in which they are written. -/
def attributes (label : Label) : List Char :=
  if label.elementFirst then label.elementAttribute ++ label.pathAttribute
  else label.pathAttribute ++ label.elementAttribute

/-- The end of the opening tag, which closes itself when nothing is inside. -/
def ending (leaf : Bool) : List Char := if leaf then [' ', '/', '>'] else ['>']

/-- The opening tag of a route, with its attributes. -/
def openTag (label : Label) (leaf : Bool) : List Char :=
  ['<', 'R', 'o', 'u', 't', 'e'] ++ label.attributes ++ ending leaf

end Label

/-- The closing tag of a route with something inside. -/
def closeTag : List Char := ['<', '/', 'R', 'o', 'u', 't', 'e', '>']

/-- A forest of `Route` elements as it is written. -/
def write : Forest Label → List Char
  | .empty => []
  | .node label children siblings =>
    label.openTag children.isEmpty ++ write children ++
      (if children.isEmpty then [] else closeTag) ++ write siblings

/-- A whole list of routes, by itself or inside a `Routes` element. -/
def writeList (enclosed : Bool) (forest : Forest Label) : List Char :=
  if enclosed then
    ['<', 'R', 'o', 'u', 't', 'e', 's', '>'] ++ write forest ++
      ['<', '/', 'R', 'o', 'u', 't', 'e', 's', '>']
  else write forest

example (path : PathText) (element : Element) :
    Label.openTag ⟨some (path, .double), element, false⟩ true =
      "<Route path=\"".toList ++ path.chars ++ "\" element=\x7b".toList ++ element.chars ++
        "\x7d />".toList := by
  simp [Label.openTag, Label.attributes, Label.pathAttribute, Label.elementAttribute,
    Spelling.write, Spelling.literal, Spelling.braced, Spelling.mark, Label.ending]

/-- A name read as it is written. -/
def Name.declared (name : Name) : Option String := some (String.ofList name.chars)

/-- What is read for the name of the rendered element and for the name of the
element inside it, when names are read in a given way. -/
def Element.names (read : Name → Option String) : Element → Option String × Option String
  | plain component => (read component, none)
  | wrapped wrapper component => (read wrapper, read component)

/-- What a route contributes to resolution when names are read in a given way:
its trimmed path, its component and whether it is left out. -/
def Label.entry (read : Name → Option String) (layouts : List String) (label : Label) :
    Option Forest.Entry :=
  label.path.map fun (path, _) =>
    let names := label.element.names read
    let classified := classify names.1 names.2 layouts
    { rawPath := String.ofList (trim path.chars)
      component := classified.1
      skip := classified.2 }

/-- The widths of the tags of a forest of routes, for a measure of text that gives
every character a positive width. -/
def layout (width : Char → Nat) (positive : ∀ c, 0 < width c) : Forest.Layout Label where
  opening label leaf := ((label.openTag leaf).map width).sum
  closing := (closeTag.map width).sum
  opening_pos label leaf := by
    have := positive '<'
    simp only [Label.openTag, List.cons_append, List.map_cons, List.sum_cons]
    omega
  closing_pos := by
    have := positive '<'
    simp only [closeTag, List.map_cons, List.sum_cons]
    omega

/-- The closing tag of a route is as wide as its text. For a route with nothing inside there is
none, and its width is zero. -/
theorem closingOf_eq_sum (width : Char → Nat) (positive : ∀ c, 0 < width c)
    (children : Forest Label) :
    (layout width positive).closingOf children =
      (((if children.isEmpty then [] else closeTag) : List Char).map width).sum := by
  by_cases leaf : children.isEmpty = true
  · simp [Forest.Layout.closingOf, leaf]
  · simp [Forest.Layout.closingOf, leaf, layout]

/-- The width of a forest in the layout is the width of its text, summed over the characters. The
induction is on the forest. -/
theorem width_write (width : Char → Nat) (positive : ∀ c, 0 < width c) (forest : Forest Label) :
    (layout width positive).width forest = ((write forest).map width).sum := by
  induction forest with
  | empty => rfl
  | node label children siblings below beside =>
    have total : (layout width positive).width (.node label children siblings) =
        ((label.openTag children.isEmpty).map width).sum +
          (layout width positive).width children + (layout width positive).closingOf children +
          (layout width positive).width siblings := rfl
    simp only [total, below, beside, closingOf_eq_sum, write, List.map_append, List.sum_append]

/-- The width of one route is the width of its text: of the opening tag, of what is inside and of
the closing tag. -/
theorem nodeWidth_write (width : Char → Nat) (positive : ∀ c, 0 < width c) (label : Label)
    (children : Forest Label) :
    (layout width positive).nodeWidth label children =
      ((label.openTag children.isEmpty ++ write children ++
        (if children.isEmpty then [] else closeTag)).map width).sum := by
  have total : (layout width positive).nodeWidth label children =
      ((label.openTag children.isEmpty).map width).sum +
        (layout width positive).width children + (layout width positive).closingOf children := rfl
  simp only [total, width_write, closingOf_eq_sum, List.map_append, List.sum_append]

/-- Nothing is written for a forest without nodes, so that a leaf has nothing between its tags. -/
theorem write_of_isEmpty {forest : Forest Label} (none : forest.isEmpty = true) :
    write forest = [] := by
  cases forest with
  | empty => rfl
  | node => cases none

/-- A path holds no character that is not allowed in it, since the path carries the proof that all
of its characters are. -/
theorem PathText.not_mem (path : PathText) (c : Char) (excluded : isPathChar c = false) :
    c ∉ path.chars := by
  intro member
  simp [path.allowed c member] at excluded

/-- The mark of a spelling is a quotation mark, for each of the five spellings. -/
theorem Spelling.mark_quote (spelling : Spelling) : isQuote spelling.mark = true := by
  cases spelling <;> decide

/-- The mark of a spelling is no blank, so that trimming does not reach across it. -/
theorem Spelling.mark_solid (spelling : Spelling) : isBlank spelling.mark = false := by
  cases spelling <;> decide

/-- The mark of a spelling does not occur in the path, because no quotation mark is allowed there.
So the literal ends at the second mark. -/
theorem Spelling.mark_not_mem (spelling : Spelling) (path : PathText) :
    spelling.mark ∉ path.chars := by
  apply path.not_mem
  cases spelling <;> decide

/-- A literal holds only its marks and the characters of the path. Whatever is neither a quotation
mark nor allowed in paths does not occur in it. -/
theorem Spelling.not_mem_literal (spelling : Spelling) (path : PathText) (c : Char)
    (excluded : isPathChar c = false) (other : isQuote c = false) :
    c ∉ spelling.literal path.chars := by
  have mark : c ≠ spelling.mark := by
    rintro rfl
    simp [spelling.mark_quote] at other
  simp [literal, mark, path.not_mem c excluded]

/-- A name holds no character that is neither a point nor allowed in identifiers, since points
join its parts. -/
theorem Name.not_mem (name : Name) (c : Char) (excluded : isIdentifierChar c = false)
    (point : c ≠ '.') : c ∉ name.chars := by
  have outside : ∀ part : Identifier, c ∉ part.chars := by
    intro part member
    simp [part.allowed c member] at excluded
  simp [Name.chars, outside, point]

/-- A name starts with the first character of its first part, and that is no blank. So a name is
never empty. -/
theorem Name.chars_eq (name : Name) :
    ∃ rest, name.chars = name.head.first :: rest ∧ isBlank name.head.first = false := by
  refine ⟨name.head.rest ++ name.members.flatMap fun part => '.' :: part.chars, by
    simp [Name.chars, Identifier.chars], ?_⟩
  have allowed := name.head.allowed name.head.first List.mem_cons_self
  simp only [isIdentifierChar, Bool.and_eq_true, Bool.not_eq_true'] at allowed
  exact allowed.1.2

end ScreenAtlas.Route.Markup
