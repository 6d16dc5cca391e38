import ScreenAtlas.Json.Basic
import ScreenAtlas.Number.Numeral
import ScreenAtlas.Text.Point
import ScreenAtlas.Text.Scan

/-!
# Reading data text

The reader accepts the usual grammar of data text with three additions: the words
for the infinities and for no number, and whole numbers of any size up to a
digit limit. A name that occurs again replaces the earlier value in place.
Control characters inside texts are refused, and so is anything behind the value.

The mutually recursive readers spend one unit of fuel per call. A value needs one call, and
an opening mark leads to a second one before anything else is read, so twice the length of
the input is enough for any nesting. A limit on the nesting itself, such as a machine's stack
sets, is no part of this reader: texts that are nested too deeply for one are left out.

Texts are made of characters. An escape for half of a pair that stands alone is read as the
replacement character.
-/
namespace ScreenAtlas.Json

/-- Why data text was refused. -/
inductive ReadError where
  | malformed
  | tooManyDigits
  deriving DecidableEq, Repr

/-- The characters that may surround values. -/
def isGap (c : Char) : Bool := c == ' ' || c == '\t' || c == '\n' || c == '\r'

/-- The text after its leading gap. -/
def skipGap (source : List Char) : List Char := source.dropWhile isGap

/-- Four hexadecimal figures and what follows them. -/
def unit? : List Char → Option (Nat × List Char)
  | a :: b :: c :: d :: rest => do
    let a ← Text.hexValue? a
    let b ← Text.hexValue? b
    let c ← Text.hexValue? c
    let d ← Text.hexValue? d
    return (((a * 16 + b) * 16 + c) * 16 + d, rest)
  | _ => none

/-- The character of an escaped unit. Two units that form a pair are one character; half a
pair that stands alone is no character, and the replacement is read in its place. -/
def escapedUnit? (source : List Char) : Option (Char × List Char) := do
  let (high, rest) ← unit? source
  if 0xD800 ≤ high && high ≤ 0xDBFF then
    match rest with
    | '\\' :: 'u' :: behind =>
      match unit? behind with
      | some (low, behind) =>
        if 0xDC00 ≤ low && low ≤ 0xDFFF then
          return (Char.ofNat (0x10000 + (high - 0xD800) * 0x400 + (low - 0xDC00)), behind)
        else return (Text.replacement, rest)
      | none => none
    | _ => return (Text.replacement, rest)
  else return (Text.charAt high, rest)

/-- The character of a one-letter escape. -/
def shortEscape? : Char → Option Char
  | '"' => some '"'
  | '\\' => some '\\'
  | '/' => some '/'
  | 'b' => some '\x08'
  | 'f' => some '\x0c'
  | 'n' => some '\n'
  | 'r' => some '\r'
  | 't' => some '\t'
  | _ => none

/-- Reads a text behind its opening mark; `read` holds what was read, last
character first. -/
def readText? : Nat → List Char → List Char → Option (List Char × List Char)
  | 0, _, _ => none
  | _ + 1, _, [] => none
  | _ + 1, read, '"' :: rest => some (read.reverse, rest)
  | fuel + 1, read, '\\' :: 'u' :: rest => do
    let (c, rest) ← escapedUnit? rest
    readText? fuel (c :: read) rest
  | fuel + 1, read, '\\' :: c :: rest => do
    let c ← shortEscape? c
    readText? fuel (c :: read) rest
  | fuel + 1, read, c :: rest =>
    if c.toNat < 0x20 || c == '\\' then none else readText? fuel (c :: read) rest

/-- Digits behind a point or an exponent mark, with what precedes them; nothing
is read when no digit follows. -/
def fractionPart (source : List Char) : List Char × List Char :=
  match source with
  | '.' :: rest =>
    match rest.takeWhile Char.isDigit with
    | [] => ([], source)
    | digits => (digits, rest.dropWhile Char.isDigit)
  | _ => ([], source)

/-- An exponent, if a complete one follows. -/
def exponentPart (source : List Char) : Option Int × List Char :=
  match source with
  | c :: rest =>
    if c == 'e' || c == 'E' then
      let (negative, digits) := Numeral.splitSign rest
      match digits.takeWhile Char.isDigit with
      | [] => (none, source)
      | figures =>
        let power : Int := Numeral.value figures
        (some (if negative then -power else power), digits.dropWhile Char.isDigit)
    else (none, source)
  | [] => (none, source)

/-- A number behind its sign: a whole number without a fraction or exponent, a
double otherwise. -/
def readNumber (negative : Bool) (source : List Char) : Except ReadError (Json × List Char) :=
  let whole :=
    match source with
    | '0' :: _ => ['0']
    | _ => source.takeWhile Char.isDigit
  if whole.isEmpty then .error .malformed
  else
    let behind := source.drop whole.length
    let hasFraction := match behind with
      | '.' :: c :: _ => c.isDigit
      | _ => false
    let (fraction, behind) := fractionPart behind
    let (power, behind) := exponentPart behind
    if hasFraction || power.isSome then
      let number := Double.ofDecimal negative (Numeral.value (whole ++ fraction))
        (power.getD 0 - fraction.length)
      .ok (.double number, behind)
    else if Numeral.digitLimit < whole.length then .error .tooManyDigits
    else
      let magnitude : Int := Numeral.value whole
      .ok (.int (if negative then -magnitude else magnitude), behind)

/-- A word and the value it stands for. -/
def keywords : List (String × Json) :=
  [("null", .null), ("true", .bool true), ("false", .bool false), ("NaN", .double .notANumber),
    ("Infinity", .double (.infinite false)), ("-Infinity", .double (.infinite true))]

/-- A value that is neither a list, an object nor a text. -/
def readScalar (source : List Char) : Except ReadError (Json × List Char) :=
  match keywords.findSome? fun (word, value) =>
      (Text.after? word.toList source).map fun rest => (value, rest) with
  | some found => .ok found
  | none =>
    match source with
    | '-' :: rest => readNumber true rest
    | _ => readNumber false source

mutual

/-- Reads one value. -/
def readValue : Nat → List Char → Except ReadError (Json × List Char)
  | 0, _ => .error .malformed
  | fuel + 1, source =>
    match source with
    | '"' :: rest =>
      match readText? (rest.length + 1) [] rest with
      | some (content, rest) => .ok (.text (String.ofList content), rest)
      | none => .error .malformed
    | '[' :: rest =>
      match skipGap rest with
      | ']' :: rest => .ok (.list [], rest)
      | rest => readItems fuel [] rest
    | '{' :: rest =>
      match skipGap rest with
      | '}' :: rest => .ok (.object [], rest)
      | rest => readMembers fuel [] rest
    | _ => readScalar source

/-- Reads the items of a list behind its bracket; `read` holds the items read,
last first. -/
def readItems : Nat → List Json → List Char → Except ReadError (Json × List Char)
  | 0, _, _ => .error .malformed
  | fuel + 1, read, source => do
    let (item, rest) ← readValue fuel source
    match skipGap rest with
    | ',' :: rest => readItems fuel (item :: read) (skipGap rest)
    | ']' :: rest => .ok (.list (item :: read).reverse, rest)
    | _ => .error .malformed

/-- Reads the members of an object behind its brace. -/
def readMembers : Nat → Members → List Char → Except ReadError (Json × List Char)
  | 0, _, _ => .error .malformed
  | fuel + 1, read, source =>
    match source with
    | '"' :: rest =>
      match readText? (rest.length + 1) [] rest with
      | none => .error .malformed
      | some (name, rest) =>
        match skipGap rest with
        | ':' :: rest => do
          let (value, rest) ← readValue fuel (skipGap rest)
          let members := Entries.put (String.ofList name) value read
          match skipGap rest with
          | ',' :: rest => readMembers fuel members (skipGap rest)
          | '}' :: rest => .ok (.object members, rest)
          | _ => .error .malformed
        | _ => .error .malformed
    | _ => .error .malformed

end

/-- The fuel that is enough for reading a value. -/
def allowance (source : List Char) : Nat := 2 * source.length + 1

/-- Reads a text that holds one value and nothing else. -/
def read (source : String) : Except ReadError Json :=
  let characters := source.toList
  match readValue (allowance characters) (skipGap characters) with
  | .ok (value, rest) => if (skipGap rest).isEmpty then .ok value else .error .malformed
  | .error cause => .error cause

end ScreenAtlas.Json
