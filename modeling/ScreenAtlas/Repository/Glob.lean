/-!
# Wildcard patterns

In a pattern a star stands for any run of characters, a question mark for any one
character, and a bracket for one character of a set; everything else stands for
itself. A pattern is read into pieces, each of which takes either any run or one
character of a set, so that a character, a question mark and a bracket differ only
in their sets.

The set in a bracket lists characters and ranges. A hyphen makes a range between
the characters around it when both are there and neither belongs to the range
before. A range that runs backwards is empty and vanishes together with its ends.
An exclamation mark in front of what then remains turns the set around. A bracket
that is never closed stands for itself.
-/
namespace ScreenAtlas.Repository

/-- A set of characters: the ranges, or everything outside of them. -/
structure CharSet where
  outside : Bool
  ranges : List (Char × Char)
  deriving DecidableEq, Repr

namespace CharSet

/-- The set has the character. -/
def admits (set : CharSet) (c : Char) : Bool :=
  (set.ranges.any fun (low, high) => low ≤ c && c ≤ high) != set.outside

/-- The set of one character. -/
def only (c : Char) : CharSet := ⟨false, [(c, c)]⟩

/-- The set of all characters. -/
def all : CharSet := ⟨true, []⟩

/-- The parts of a bracket between the hyphens that make ranges. For `wait`
characters no hyphen makes a range; `current` holds the part being read, last
character first. -/
def partsFrom (wait : Nat) (current : List Char) : List Char → List (List Char)
  | [] => [current.reverse]
  | c :: rest =>
    if wait == 0 && c == '-' then current.reverse :: partsFrom 2 [] rest
    else partsFrom (wait - 1) (c :: current) rest

/-- A last hyphen with nothing behind it stands for itself. -/
def closeLast : List (List Char) → List (List Char)
  | [part, []] => [part ++ ['-']]
  | part :: rest => part :: closeLast rest
  | [] => []

/-- Joins the parts around a range that runs backwards, the last such range first. -/
def joinBackward : List (List Char) → List (List Char)
  | [] => []
  | part :: rest =>
    match joinBackward rest with
    | [] => [part]
    | next :: others =>
      match part.getLast?, next.head? with
      | some low, some high =>
        if high < low then (part.dropLast ++ next.tail) :: others else part :: next :: others
      | _, _ => part :: next :: others

/-- The ranges of parts: every character by itself, and from the end of each part
to the start of the next. -/
def rangesOf : List (List Char) → List (Char × Char)
  | [] => []
  | part :: rest =>
    let own := part.map fun c => (c, c)
    let joining :=
      match part.getLast?, rest.head?.bind List.head? with
      | some low, some high => [(low, high)]
      | _, _ => []
    own ++ joining ++ rangesOf rest

/-- The set of a bracket with the given text. An exclamation mark that is left alone
in front of a range leaves the hyphen as a character of its own. -/
def ofBracket (body : List Char) : CharSet :=
  let wait := if body.head? == some '!' then 2 else 1
  match joinBackward (closeLast (partsFrom wait [] body)) with
  | ['!'] :: next :: rest => ⟨true, ('-', '-') :: rangesOf (next :: rest)⟩
  | ('!' :: part) :: rest => ⟨true, rangesOf (part :: rest)⟩
  | parts => ⟨false, rangesOf parts⟩

end CharSet

/-- A piece of a pattern: any run of characters, or one character of a set. -/
inductive Piece where
  | run
  | one (set : CharSet)
  deriving DecidableEq, Repr

namespace Glob

/-- The text of a bracket that was opened before `text`. A closing bracket right at
the start belongs to the set. -/
def bracket? (text : List Char) : Option (List Char) :=
  let lead :=
    match text with
    | '!' :: ']' :: _ => 2
    | '!' :: _ => 1
    | ']' :: _ => 1
    | _ => 0
  let rest := text.drop lead
  if rest.contains ']' then some (text.take lead ++ rest.takeWhile (· != ']')) else none

/-- The pieces of a pattern after `skip` more characters. -/
def piecesFrom (skip : Nat) : List Char → List Piece
  | [] => []
  | c :: rest =>
    match skip with
    | more + 1 => piecesFrom more rest
    | 0 =>
      if c == '*' then .run :: piecesFrom 0 rest
      else if c == '?' then .one .all :: piecesFrom 0 rest
      else if c == '[' then
        match bracket? rest with
        | some body => .one (.ofBracket body) :: piecesFrom (body.length + 1) rest
        | none => .one (.only c) :: piecesFrom 0 rest
      else .one (.only c) :: piecesFrom 0 rest

/-- The pieces of a pattern. -/
def pieces (pattern : List Char) : List Piece := piecesFrom 0 pattern

/-- Whether the pieces match each tail of a text, the whole text first. -/
def matchTails : List Piece → List Char → List Bool
  | [], text => text.map (fun _ => false) ++ [true]
  | .one set :: rest, text =>
    List.zipWith (fun c after => set.admits c && after) text (matchTails rest text).tail ++ [false]
  | .run :: rest, text =>
    (matchTails rest text).foldr (fun here after => (here || after.headD false) :: after) []

end Glob

/-- The pattern matches the whole text. -/
def globMatches (pattern text : List Char) : Bool :=
  (Glob.matchTails (Glob.pieces pattern) text).headD false

end ScreenAtlas.Repository
