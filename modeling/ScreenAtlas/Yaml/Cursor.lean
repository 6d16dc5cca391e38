import ScreenAtlas.Text.Utf8
import ScreenAtlas.Yaml.Value

/-!
# Reading a document of settings

A cursor stands at a place of the document and knows its line and column, which
carry meaning in this format. Scans move the cursor forward, and end with an error
when the document is malformed.
-/
namespace ScreenAtlas.Yaml

/-- A place in a document. -/
structure Cursor where
  rest : List Char
  index : Nat := 0
  line : Nat := 0
  column : Nat := 0

/-- A scan moves the cursor forward. -/
abbrev Scan (α : Type) := StateT Cursor (Except ReadError) α

/-- The document is malformed here. -/
def malformed {α : Type} : Scan α := throw .malformed

/-- The character ends a line. -/
def isBreak (c : Char) : Bool :=
  c == '\n' || c == '\r' || c.toNat == 0x85 || c.toNat == 0x2028 || c.toNat == 0x2029

/-- A line ends before this character, or the document ends. -/
def endsLine : Option Char → Bool
  | none => true
  | some c => isBreak c

/-- A space, the end of a line or the end of the document. -/
def endsPart : Option Char → Bool
  | none => true
  | some c => c == ' ' || isBreak c

/-- A space, a tab, the end of a line or the end of the document. -/
def endsWord : Option Char → Bool
  | none => true
  | some c => c == ' ' || c == '\t' || isBreak c

/-- The cursor behind one character. -/
def Cursor.next (cursor : Cursor) (c : Char) (rest : List Char) : Cursor :=
  if isBreak c && !(c == '\r' && rest.head? == some '\n') then
    { rest, index := cursor.index + 1, line := cursor.line + 1, column := 0 }
  else
    { rest, index := cursor.index + 1, line := cursor.line,
      column := if c.toNat == 0xFEFF then cursor.column else cursor.column + 1 }

/-- The character `k` places ahead. -/
def peekAt (k : Nat) : Scan (Option Char) := do return (← get).rest[k]?

/-- The next character. -/
def peek : Scan (Option Char) := peekAt 0

/-- Moves past some characters. -/
def Cursor.skip (cursor : Cursor) : Nat → List Char → Cursor
  | 0, rest => { cursor with rest }
  | _, [] => { cursor with rest := [] }
  | count + 1, c :: rest => (cursor.next c rest).skip count rest

/-- Moves past some characters. -/
def step (count : Nat) : Scan Unit := modify fun cursor => cursor.skip count cursor.rest

/-- Reads characters of a class. -/
def readWhile (belongs : Char → Bool) : Scan (List Char) := do
  let cursor ← get
  let read := cursor.rest.takeWhile belongs
  set (cursor.skip read.length cursor.rest)
  return read

/-- Passes over spaces. -/
def skipSpaces : Scan Unit := do
  let _ ← readWhile (· == ' ')

/-- Reads the end of a line, if a line ends here. -/
def lineBreak : Scan (List Char) := do
  match (← get).rest with
  | '\r' :: '\n' :: _ =>
    step 2
    return ['\n']
  | c :: _ =>
    if isBreak c then
      step 1
      return [if c.toNat == 0x2028 || c.toNat == 0x2029 then c else '\n']
    else return []
  | [] => return []

/-- The marks `---` or `...` of a document stand here. -/
def atSeparator : Scan Bool := do
  match (← get).rest with
  | a :: b :: c :: rest =>
    return ((a, b, c) == ('-', '-', '-') || (a, b, c) == ('.', '.', '.')) && endsWord rest.head?
  | _ => return false

/-- Fails unless a test holds. -/
def require (test : Bool) : Scan Unit := if test then return () else malformed

/-- How many steps a loop over the rest of the document may take. -/
def budget : Scan Nat := do return (← get).rest.length + 1

end ScreenAtlas.Yaml
