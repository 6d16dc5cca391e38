import ScreenAtlas.Flow.Pattern
import ScreenAtlas.Script.Expression

/-!
# Events of markup elements

An element raises an event for every event attribute it has. A button, by its name
or by its role, raises one too, unless its line raises another event already.
-/
namespace ScreenAtlas.Flow

open ScreenAtlas.Script

/-- The text of a line without the blanks around it; empty past the end. -/
def codeAt (lines : List (List Char)) (line : Int) : String :=
  if 0 < line then String.ofList (Text.trim ((lines[line.toNat - 1]?).getD [])) else ""

/-- The events that an element's attributes handle. An event is on the line where
the attribute's value starts, or without a value, where the element starts. -/
def handledEvents (path : String) (lines : List (List Char)) (parsed : Parsed)
    (element : Node) : List Flow :=
  (parsed.attributes element).filterMap fun (name, value) =>
    if eventAttributes.contains name then
      let line := (value.getD element).firstLine
      some (onLine path line (codeAt lines line) ("event:" ++ name) uiEvent name)
    else none

/-- The element is a button by its name or by its role. -/
def isButton (parsed : Parsed) (element : Node) : Bool :=
  String.ofList (parsed.elementName element) == "button" ||
    match ((parsed.attributes element).lookup "role").join with
    | none => false
    | some role => parsed.literal? (some role) == some "button"

/-- The event of an element that is a button. -/
def buttonEvent? (path : String) (lines : List (List Char)) (parsed : Parsed)
    (element : Node) : Option Flow :=
  if isButton parsed element then
    let line := element.firstLine
    some (onLine path line (codeAt lines line) "button" uiEvent "button")
  else none

/-- The events of a parsed source in the order of their lines. -/
def events (parsed : Parsed) (path content : String) : List Flow :=
  let lines := sourceLines content
  let elements := parsed.nodes.filter Node.isElement
  let handled := elements.flatMap (handledEvents path lines parsed)
  let buttons := (elements.filterMap (buttonEvent? path lines parsed)).filter fun button =>
    !(handled.any fun event => event.line == button.line)
  unique (byLine (handled ++ buttons))

end ScreenAtlas.Flow
