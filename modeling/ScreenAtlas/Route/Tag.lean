import ScreenAtlas.Text.Scan

/-!
# Opening tags in raw text

The scanner finds the end of an opening tag without a parser. Quotation marks
outside braces enclose text that is passed over, braces nest, and the first angle
bracket outside both closes the tag. A tag that is never closed extends to the
end of the text.
-/
namespace ScreenAtlas.Route.Tag

/-- Reads on in a tag. `quote` is the mark of a quoted text being read, `depth`
counts the open braces and `before` is the character before the place reached.
The answer gives the number of characters up to and including the closing
bracket and whether a slash precedes it. -/
def closing? (quote : Option Char) (depth : Nat) (before : Option Char) :
    List Char → Option (Nat × Bool)
  | [] => none
  | c :: rest =>
    let step := fun (next : Option (Nat × Bool)) => next.map fun (n, slash) => (n + 1, slash)
    match quote with
    | some mark => step (closing? (if c == mark then none else quote) depth (some c) rest)
    | none =>
      if depth == 0 && (c == '"' || c == '\'') then step (closing? (some c) depth (some c) rest)
      else if c == '\x7b' then step (closing? none (depth + 1) (some c) rest)
      else if c == '\x7d' then step (closing? none (depth - 1) (some c) rest)
      else if c == '>' && depth == 0 then some (1, before == some '/')
      else step (closing? none depth (some c) rest)

/-- The place behind the tag that opens at `start`, and whether the tag closes
itself. -/
def scan (content : List Char) (start : Nat) : Nat × Bool :=
  match closing? none 0 content[start]? (content.drop (start + 1)) with
  | some (length, slash) => (start + 1 + length, slash)
  | none => (content.length, false)

/-- The character at a place; places below zero count from the end. -/
def charAt? (content : List Char) (index : Int) : Option Char :=
  if index < 0 then
    if content.length < (-index).toNat then none else content[content.length - (-index).toNat]?
  else content[index.toNat]?

/-- The first place at or behind `index` that holds a mark; an index below zero
counts from the end. -/
def findFrom (content : List Char) (mark : Char) (index : Int) : Option Nat :=
  let first := if index < 0 then content.length - (-index).toNat else index.toNat
  ((content.drop first).findIdx? (· == mark)).map (first + ·)

/-- Reads a tag from an index that may count from the end of the text and then
runs on through its beginning. None when the index lies before the text. -/
def scanIndexed (content : List Char) : Nat → Int → Nat → Option (Int × Bool)
  | 0, _, _ => some (content.length, false)
  | fuel + 1, index, depth =>
    if (content.length : Int) ≤ index then some (content.length, false)
    else
      match charAt? content index with
      | none => none
      | some c =>
        if depth == 0 && (c == '"' || c == '\'') then
          match findFrom content c (index + 1) with
          | none => some (content.length, false)
          | some closing => scanIndexed content fuel (closing + 1) depth
        else if c == '\x7b' then scanIndexed content fuel (index + 1) (depth + 1)
        else if c == '\x7d' then scanIndexed content fuel (index + 1) (depth - 1)
        else if c == '>' && depth == 0 then
          (charAt? content (index - 1)).map fun before => (index + 1, before == '/')
        else scanIndexed content fuel (index + 1) depth

/-- The place behind the tag that opens at a given start. A start below zero
counts from the end of the text; none when it lies before the text. -/
def scanFrom (content : List Char) (start : Int) : Option (Int × Bool) :=
  if 0 ≤ start then
    let (stop, slash) := scan content start.toNat
    some (stop, slash)
  else scanIndexed content (2 * content.length + 2) (start + 1) 0

/-- Blanks out everything inside braces, so that only the attributes of the tag
itself remain; the braces stay. -/
def mask (depth : Nat) : List Char → List Char
  | [] => []
  | c :: rest =>
    if c == '\x7b' then c :: mask (depth + 1) rest
    else if c == '\x7d' then c :: mask (depth - 1) rest
    else (if depth == 0 then c else ' ') :: mask depth rest

/-- An attribute's name and equals sign with the blanks behind it. -/
def attribute? (name : String) : Text.Recogniser Unit := fun before text =>
  if Text.outsideWord before then do
    let rest ← Text.literal? name text
    match Text.skipBlanks rest with
    | '=' :: rest => some ((), Text.skipBlanks rest)
    | _ => none
  else none

/-- What follows an attribute's equals sign in a tag. -/
def attributeValue? (name : String) (tag : List Char) : Option (List Char) :=
  (Text.first? (attribute? name) (mask 0 tag)).map fun hit => tag.drop hit.stop

/-- A quoted text up to the same mark, possibly inside a brace. -/
def attributeText? (value : List Char) : Option (List Char) :=
  let inner :=
    match value with
    | c :: rest => if c == '\x7b' then Text.skipBlanks rest else value
    | [] => []
  match inner with
  | mark :: rest =>
    if Text.isQuote mark && rest.contains mark then some (rest.takeWhile (· != mark)) else none
  | [] => none

/-- The name of an element: the angle bracket, blanks and a dotted name. -/
def name? : Text.Recogniser (List Char) := fun _ text =>
  match text with
  | '<' :: rest => Text.dottedName? (Text.skipBlanks rest)
  | _ => none

end ScreenAtlas.Route.Tag
