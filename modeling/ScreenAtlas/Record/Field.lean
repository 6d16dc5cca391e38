import ScreenAtlas.Fault
import ScreenAtlas.Json.Writer
import ScreenAtlas.Number.Numeral

/-!
# Lenient fields

Fields of stored objects are read leniently: any value has a text, texts are read
as numbers, and an empty value counts as a missing one where a list or a number is
expected. What cannot be read at all is a fault.
-/
namespace ScreenAtlas.Members

/-- The text of a member, or a given text when it is missing. -/
def textOr (members : Members) (name missing : String) : String :=
  match members.get? name with
  | some value => value.asText
  | none => missing

/-- The member, or null when it is missing. -/
def valueOf (members : Members) (name : String) : Json := (members.get? name).getD .null

/-- The items of a member: those of a list, the characters of a text, the names of
an object, and none of an empty value. -/
def itemsOf (members : Members) (name : String) : Except Fault (List Json) :=
  let value := members.valueOf name
  if value.isEmpty then .ok []
  else
    match value with
    | .list items => .ok items
    | .text text => .ok (text.toList.map fun c => .text (String.ofList [c]))
    | .object inner => .ok (inner.map fun member => .text member.1)
    | _ => .error .wrongType

/-- The texts of a member's items. -/
def textsOf (members : Members) (name : String) : Except Fault (List String) :=
  (members.itemsOf name).map fun items => items.map Json.asText

/-- The objects among a member's items. -/
def objectsOf (members : Members) (name : String) : Except Fault (List Members) :=
  (members.itemsOf name).map fun items => items.filterMap fun
    | .object inner => some inner
    | _ => none

/-- A member as a whole number; fractions are cut off, and an empty value is
zero. -/
def intOf (members : Members) (name : String) : Except Fault Int :=
  let value := members.valueOf name
  if value.isEmpty then .ok 0
  else
    match value with
    | .int n => .ok n
    | .bool b => .ok (if b then 1 else 0)
    | .double (.finite negative place) => .ok (Double.truncate negative place)
    | .double (.infinite _) => .error .numberTooLarge
    | .double .notANumber => .error .malformedNumber
    | .text text =>
      match Numeral.readInt? text.toList with
      | some n => .ok n
      | none => .error .malformedNumber
    | _ => .error .wrongType

/-- A member as a number; an empty value is zero. -/
def doubleOf (members : Members) (name : String) : Except Fault Double :=
  let value := members.valueOf name
  if value.isEmpty then .ok .zero
  else
    match value with
    | .double number => .ok number
    | .bool b => .ok ((Double.ofInt? (if b then 1 else 0)).getD .zero)
    | .int n =>
      match Double.ofInt? n with
      | some number => .ok number
      | none => .error .numberTooLarge
    | .text text =>
      match Numeral.readDouble? text.toList with
      | some number => .ok number
      | none => .error .malformedNumber
    | _ => .error .wrongType

end ScreenAtlas.Members
