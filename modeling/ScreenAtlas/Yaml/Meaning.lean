import ScreenAtlas.Number.Arithmetic
import ScreenAtlas.Number.Decimal
import ScreenAtlas.Number.Numeral
import ScreenAtlas.Text.Case
import ScreenAtlas.Yaml.Node

/-!
# What nodes mean

The value of a node follows from its tag. Maps can take over the pairs of other
maps; the pairs they have themselves come later and win. Only values that cannot
change serve as keys. `Value.ofText` is the reading of documents that the program works with.
-/
namespace ScreenAtlas.Yaml

open ScreenAtlas.Text

/-! ## Scalars -/

/-- A text without underscores. -/
def withoutUnderscores (text : List Char) : List Char := text.filter (· != '_')

/-- The places of a number of base sixty, the last one first. -/
def sixtieths (text : List Char) : List (List Char) := (text.splitOn ':').reverse

/-- A number that has to be there. -/
def orNoValue {α : Type} : Option α → Except ReadError α
  | some value => .ok value
  | none => .error .noValue

/-- A whole number of base sixty: its places have growing weights. -/
def sexagesimalInt (weight : Int) : List (List Char) → Except ReadError Int
  | [] => .ok 0
  | place :: rest => do
    let digit ← orNoValue (Numeral.readInt? place)
    return digit * weight + (← sexagesimalInt (60 * weight) rest)

/-- The value of a whole number. -/
def intValue (text : List Char) : Except ReadError Value := do
  let figures := withoutUnderscores text
  if figures.isEmpty then throw .noCharacters
  let negative := figures.head? == some '-'
  let number := unsigned figures
  let magnitude ←
    match number with
    | [] => throw .noCharacters
    | ['0'] => .ok 0
    | '0' :: 'b' :: digits => orNoValue (Numeral.readBase? 2 digits)
    | '0' :: 'x' :: digits => orNoValue (Numeral.readBase? 16 digits)
    | '0' :: _ => orNoValue (Numeral.readBase? 8 number)
    | _ =>
      if number.contains ':' then sexagesimalInt 1 (sixtieths number)
      else orNoValue (Numeral.readInt? number)
  return .int (if negative then -magnitude else magnitude)

/-- A number of base sixty with a fraction: its places have growing weights and are
summed up one after the other. -/
def sexagesimalDouble (weight : Int) (sum : Double) : List (List Char) → Except ReadError Double
  | [] => .ok sum
  | place :: rest => do
    let digit ← orNoValue (Numeral.readDouble? place)
    match Double.ofInt? weight with
    | none => throw .tooLarge
    | some factor => sexagesimalDouble (60 * weight) (sum.plus (digit.times factor)) rest

/-- The value of a number with a fraction. -/
def floatValue (text : List Char) : Except ReadError Value := do
  let figures := small (withoutUnderscores text)
  if figures.isEmpty then throw .noCharacters
  let negative := figures.head? == some '-'
  let number := unsigned figures
  let word := String.ofList number
  if word == ".nan" then return .double .notANumber
  let magnitude ←
    if word == ".inf" then .ok (.infinite false)
    else if number.contains ':' then sexagesimalDouble 1 .zero (sixtieths number)
    else orNoValue (Numeral.readDouble? number)
  return .double (if negative then magnitude.negate else magnitude)

/-- The value of a truth word. -/
def boolValue (text : List Char) : Except ReadError Value :=
  match String.ofList (small text) with
  | "yes" | "true" | "on" => .ok (.bool true)
  | "no" | "false" | "off" => .ok (.bool false)
  | _ => .error .noTruthValue

/-- The number of days of a month. -/
def daysIn (year month : Nat) : Nat :=
  if month == 2 then
    if year % 4 == 0 && (year % 100 != 0 || year % 400 == 0) then 29 else 28
  else if [4, 6, 9, 11].contains month then 30
  else 31

/-- The parts form a date of the calendar and a time of the clock. -/
def DateParts.isValid (date : DateParts) : Bool :=
  0 < date.year && 0 < date.month && date.month ≤ 12 && 0 < date.day &&
    date.day ≤ daysIn date.year date.month &&
    (match date.time with
    | none => true
    | some (hour, minute, second) => hour < 24 && minute < 60 && second < 60) &&
    (match date.zone with
    | none => true
    | some minutes => minutes < 24 * 60)

/-- The value of a date. -/
def dateValue (text : List Char) : Except ReadError Value :=
  match dateParts? (finalBreak text).1 with
  | none => .error .noDate
  | some date => if date.isValid then .ok .date else .error .noValue

/-- The value of a character that encodes six bits. -/
def sixBits? (c : Char) : Option Nat :=
  if 'A'.toNat ≤ c.toNat && c.toNat ≤ 'Z'.toNat then some (c.toNat - 'A'.toNat)
  else if 'a'.toNat ≤ c.toNat && c.toNat ≤ 'z'.toNat then some (c.toNat - 'a'.toNat + 26)
  else if c.isDigit then some (c.toNat - '0'.toNat + 52)
  else if c == '+' then some 62
  else if c == '/' then some 63
  else none

/-- Decodes bytes of which four characters encode three. `filled` counts the
characters of the group that is being read, `left` holds the bits left over from
them and `pads` counts the padding marks. Characters without a meaning are passed
over; enough padding ends the text. -/
def decodeSixBits (filled left pads : Nat) : List Char → Option (List UInt8)
  | [] => if filled == 0 then some [] else none
  | c :: rest =>
    if c == '=' then
      if 2 ≤ filled && 4 ≤ filled + pads + 1 then some []
      else decodeSixBits filled left (if 2 ≤ filled then pads + 1 else pads) rest
    else
      match sixBits? c with
      | none => decodeSixBits filled left pads rest
      | some bits =>
        match filled with
        | 0 => decodeSixBits 1 bits 0 rest
        | 1 => (decodeSixBits 2 (bits % 16) 0 rest).map (UInt8.ofNat (left * 4 + bits / 16) :: ·)
        | 2 => (decodeSixBits 3 (bits % 4) 0 rest).map (UInt8.ofNat (left * 16 + bits / 4) :: ·)
        | _ => (decodeSixBits 0 0 0 rest).map (UInt8.ofNat (left * 64 + bits) :: ·)

/-- The value of encoded bytes. -/
def bytesValue (text : List Char) : Except ReadError Value :=
  if text.all fun c => c.toNat < 128 then
    match decodeSixBits 0 0 0 text with
    | some bytes => .ok (.bytes bytes)
    | none => .error .malformed
  else .error .malformed

/-- The value of a scalar. -/
def scalarValue (tag text : String) : Except ReadError Value :=
  let characters := text.toList
  if tag == textTag then .ok (.text text)
  else if tag == nullTag then .ok .null
  else if tag == boolTag then boolValue characters
  else if tag == intTag then intValue characters
  else if tag == floatTag then floatValue characters
  else if tag == dateTag then dateValue characters
  else if tag == binaryTag then bytesValue characters
  else .error .malformed

/-! ## Collections -/

/-- A fault and the round in which it is met. What stands in a collection is looked
at one round after the collection itself, so a fault deep in the document yields to
one that lies less deep. -/
structure LateFault where
  rounds : Nat
  cause : ReadError
  deriving DecidableEq, Repr

/-- A value, or the fault that is met first. -/
abbrev Outcome (α : Type) := Except LateFault α

/-- A fault that is met at once. -/
def Outcome.now {α : Type} : Except ReadError α → Outcome α
  | .ok value => .ok value
  | .error cause => .error ⟨0, cause⟩

/-- An outcome that is awaited one round longer. -/
def Outcome.later {α : Type} : Outcome α → Outcome α
  | .ok value => .ok value
  | .error fault => .error ⟨fault.rounds + 1, fault.cause⟩

/-- Two outcomes together. Of two faults the one of the earlier round counts, and in
the same round the first. -/
def Outcome.both {α β : Type} : Outcome α → Outcome β → Outcome (α × β)
  | .ok left, .ok right => .ok (left, right)
  | .ok _, .error fault => .error fault
  | .error fault, .ok _ => .error fault
  | .error left, .error right => .error (if right.rounds < left.rounds then right else left)

/-- A pair of a map before its values are known to exist. -/
abbrev Entry := Outcome Value × Outcome Value

/-- What is known of a node: its value, the pairs it has if it is a map, and the
pairs that a map takes over from it. -/
structure Meaning where
  value : Outcome Value
  pairs : Option (Except ReadError (List Entry))
  inherited : Except ReadError (List Entry)
  text : Option String

/-- A key. That a collection is none is seen before its contents are. -/
def asKey : Outcome Value → Outcome Value
  | .ok key => if key.isKey then .ok key else .error ⟨0, .malformed⟩
  | .error fault => .error (if fault.rounds == 0 then fault else ⟨0, .malformed⟩)

/-- The values of pairs. -/
def entryValues : List Entry → Outcome (List (Value × Value))
  | [] => .ok []
  | (key, value) :: rest =>
    (Outcome.both (Outcome.both (asKey key) value) (entryValues rest)).map fun (pair, pairs) =>
      pair :: pairs

/-- An item of a list that consists of single pairs. -/
def singlePair (item : Meaning) : Outcome Value :=
  match item.pairs with
  | some (.ok [(key, value)]) =>
    (Outcome.both key value).map fun (key, value) => .list [key, value]
  | _ => .error ⟨0, .malformed⟩

/-- The values of the items of a list. -/
def itemValues : List (Outcome Value) → Outcome (List Value)
  | [] => .ok []
  | item :: rest => (Outcome.both item (itemValues rest)).map fun (value, values) => value :: values

/-- The tags of collections. -/
def collectionTags : List String := [listTag, mapTag, setTag, orderedTag, pairsTag]

/-- The fault of a tag that does not fit its node. A collection's tag is only found
not to fit when its contents are looked at. -/
def misfit {α : Type} (tag : String) : Outcome α :=
  .error ⟨if collectionTags.contains tag then 1 else 0, .malformed⟩

/-- The value of a list. -/
def listValue (tag : String) (items : List Meaning) : Outcome Value :=
  if tag == listTag then Outcome.later ((itemValues (items.map Meaning.value)).map Value.list)
  else if tag == orderedTag || tag == pairsTag then
    Outcome.later ((itemValues (items.map singlePair)).map Value.list)
  else misfit tag

/-- The pairs that a map takes over from a list of maps: those of the first map
come last and win. -/
def inheritedOfList : List Meaning → Except ReadError (List Entry)
  | [] => .ok []
  | item :: rest => do
    match item.pairs with
    | none => throw .malformed
    | some pairs =>
      let own ← pairs
      return (← inheritedOfList rest) ++ own

/-- The pairs of a map after it has taken over those of others. -/
def flatten : List (String × Meaning × Meaning) →
    Except ReadError (List Entry × List Entry)
  | [] => .ok ([], [])
  | (tag, key, value) :: rest => do
    if tag == mergeTag then
      let taken ← value.inherited
      let (inherited, own) ← flatten rest
      return (taken ++ inherited, own)
    else
      let keyValue :=
        if tag == valueTag then
          match key.text with
          | some text => .ok (.text text)
          | none => key.value
        else key.value
      let (inherited, own) ← flatten rest
      return (inherited, (keyValue, value.value) :: own)

/-- The value of a map with given pairs. -/
def mapValue (tag : String) (entries : Except ReadError (List Entry)) : Outcome Value :=
  let values := (Outcome.now entries).bind entryValues
  if tag == mapTag then Outcome.later (values.map Value.map)
  else if tag == setTag then Outcome.later (values.map fun _ => Value.set)
  else misfit tag

/-- The value of a scalar with its tag. -/
def scalarOutcome (tag text : String) : Outcome Value :=
  if collectionTags.contains tag then misfit tag else .now (scalarValue tag text)

/-- The tag of a node. -/
def Node.tag : Node → String
  | .scalar tag _ => tag
  | .list tag _ => tag
  | .map tag _ => tag
  | .cycle _ => mapTag

mutual

/-- What is known of a node. -/
def Node.meaning : Node → Meaning
  | .scalar tag text =>
    { value := scalarOutcome tag text
      pairs := none
      inherited := .error .malformed
      text := some text }
  | .list tag items =>
    let meanings := Node.meanings items
    { value := listValue tag meanings
      pairs := none
      inherited := inheritedOfList meanings
      text := none }
  | .map tag pairs =>
    let entries := (flatten (Node.pairMeanings pairs)).map fun (inherited, own) => inherited ++ own
    { value := mapValue tag entries
      pairs := some entries
      inherited := entries
      text := none }
  | .cycle _ =>
    { value := .ok (.map [])
      pairs := some (.ok [])
      inherited := .ok []
      text := none }

/-- What is known of several nodes. -/
def Node.meanings : List Node → List Meaning
  | [] => []
  | node :: rest => node.meaning :: Node.meanings rest

/-- What is known of the pairs of a map, each with the tag of its key. -/
def Node.pairMeanings : List (Node × Node) → List (String × Meaning × Meaning)
  | [] => []
  | (key, value) :: rest => (key.tag, key.meaning, value.meaning) :: Node.pairMeanings rest

end

/-- The value of the only document of a text; an empty text has no value. -/
def Value.ofText : Reading := fun text => do
  match ← Node.ofText text with
  | none => return .null
  | some node => node.meaning.value.mapError LateFault.cause

end ScreenAtlas.Yaml
