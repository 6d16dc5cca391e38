import ScreenAtlas.Script.Tree
import ScreenAtlas.Text.Blank

/-!
# Grammar rules

A rule reads a part of a source at a place and either fails or answers with a
value and the place behind what it read. Rules never skip what follows them:
white space and comments are passed over in front of a token, so the place behind
a rule is the end of its last token and the spans of nodes are exact.

The productions of the grammar refer to each other. They do so through a table of
goals that is handed to every production; the table is tied together at the end,
with a bound on the depth, so that each production is an ordinary definition.
-/
namespace ScreenAtlas.Script.Grammar

/-- A place in a source: what follows it, and how many bytes and rows precede it. -/
structure Place where
  rest : List Char
  offset : Nat
  row : Nat

/-- A rule of the grammar. -/
abbrev Rule (α : Type) := StateT Place Option α

/-- The place behind one more character. -/
def Place.step (place : Place) (c : Char) (rest : List Char) : Place :=
  { rest
    offset := place.offset + c.utf8Size
    row := if c == '\n' then place.row + 1 else place.row }

/-- White space between tokens: the blanks of every script and the invisible
joiners and marks that sources may contain. -/
def isGap (c : Char) : Bool :=
  Text.isBlank c && !(0x1C ≤ c.toNat && c.toNat ≤ 0x1F) ||
    c == '\ufeff' || c == '\u2060' || c == '\u200b'

/-- What the text between two tokens is at the moment. -/
inductive Gap where
  | space
  | lineComment
  | blockComment

/-- Passes over white space and comments. None when a comment is never closed. -/
def skipGap : Gap → Place → List Char → Option Place
  | .blockComment, _, [] => none
  | _, place, [] => some { place with rest := [] }
  | .space, place, '/' :: '/' :: rest =>
    skipGap .lineComment { place with rest, offset := place.offset + 2 } rest
  | .space, place, '/' :: '*' :: rest =>
    skipGap .blockComment { place with rest, offset := place.offset + 2 } rest
  | .space, place, c :: rest =>
    if isGap c then skipGap .space (place.step c rest) rest
    else some { place with rest := c :: rest }
  | .lineComment, place, c :: rest =>
    skipGap (if c == '\n' then .space else .lineComment) (place.step c rest) rest
  | .blockComment, place, '*' :: '/' :: rest =>
    skipGap .space { place with rest, offset := place.offset + 2 } rest
  | .blockComment, place, c :: rest => skipGap .blockComment (place.step c rest) rest

/-- Passes over white space and comments. -/
def skip : Rule Unit := fun place => (skipGap .space place place.rest).map fun next => ((), next)

/-- What follows, behind white space and comments. -/
def ahead : Rule (List Char) := do
  let here ← get
  skip
  let next ← get
  set here
  return next.rest

/-- A line ends before the next token. -/
def breakAhead : Rule Bool := do
  let here ← get
  skip
  let next ← get
  set here
  return here.row < next.row

/-- Reads one character of a class. -/
def oneChar (belongs : Char → Bool) : Rule Char := fun place =>
  match place.rest with
  | c :: rest => if belongs c then some (c, place.step c rest) else none
  | [] => none

/-- The place behind the leading characters of a class. -/
def passWhile (belongs : Char → Bool) (place : Place) : List Char → Place
  | [] => { place with rest := [] }
  | c :: rest =>
    if belongs c then passWhile belongs (place.step c rest) rest
    else { place with rest := c :: rest }

/-- Reads the leading characters of a class. -/
def charsWhile (belongs : Char → Bool) : Rule (List Char) := fun place =>
  some (place.rest.takeWhile belongs, passWhile belongs place place.rest)

/-- Reads the given characters. -/
def exactly : List Char → Rule Unit
  | [] => return ()
  | c :: rest => do
    let _ ← oneChar (· == c)
    exactly rest

/-- Reads a mark behind white space and comments. -/
def mark (text : String) : Rule Unit := do
  skip
  exactly text.toList

/-- A rule that may be left out. -/
def perhaps {α : Type} (rule : Rule α) : Rule (Option α) := (some <$> rule) <|> return none

/-- Reads a mark if it is there. -/
def perhapsMark (text : String) : Rule Bool := (do mark text; return true) <|> return false

/-- The first of several rules that succeeds. -/
def choose {α : Type} : List (Rule α) → Rule α
  | [] => failure
  | rule :: rules => rule <|> choose rules

/-- Repeats a rule until it fails, a bounded number of times. -/
def many {α : Type} (rule : Rule α) : Nat → Rule (List α)
  | 0 => return []
  | limit + 1 => do
    match ← perhaps rule with
    | none => return []
    | some value => return value :: (← many rule limit)

/-- Items between separators; the last item may be followed by a separator. -/
def separated {α : Type} (item : Rule α) (separator : Rule Unit) : Nat → Rule (List α)
  | 0 => return []
  | limit + 1 => do
    match ← perhaps item with
    | none => return []
    | some value =>
      match ← perhaps separator with
      | none => return [value]
      | some _ => return value :: (← separated item separator limit)

/-- Fails unless a test holds. -/
def require (test : Bool) : Rule Unit := if test then return () else failure

/-- Succeeds without reading when a rule fails here. -/
def refuse {α : Type} (rule : Rule α) : Rule Unit := fun place =>
  match rule place with
  | some _ => none
  | none => some ((), place)

/-- Succeeds without reading when a rule succeeds here. -/
def expect {α : Type} (rule : Rule α) : Rule Unit := fun place =>
  (rule place).map fun _ => ((), place)

/-- What lies between two places. -/
def between (start stop : Place) : Span := ⟨start.offset, stop.offset, start.row, stop.row⟩

/-- The place of the next token. -/
def nextToken : Rule Place := do
  skip
  get

/-- A node from a given place to where the rules have read. -/
def nodeFrom (kind : String) (start : Place) (children : List Node) : Rule Node := do
  return .mk kind (between start (← get)) none true children

/-- A node whose children a rule reads. -/
def node (kind : String) (children : Rule (List Node)) : Rule Node := do
  let start ← nextToken
  nodeFrom kind start (← children)

/-- A node without children. -/
def leaf (kind : String) (rule : Rule Unit) : Rule Node := node kind do
  rule
  return []

/-- What can stand in one of the recursive positions of the grammar. -/
inductive Goal where
  | statement
  | block
  | expressions
  | expression
  | operand
  | element
  | type
  | binding
  | parameters
  | classBody

/-- What every production is given: the dialect, a bound for repetitions, and the
rules of the recursive positions. -/
structure Table where
  dialect : Dialect
  limit : Nat
  rule : Goal → Rule Node

end ScreenAtlas.Script.Grammar
