import ScreenAtlas.Text.Digit
import ScreenAtlas.Text.Point
import ScreenAtlas.Yaml.Cursor

/-!
# Scalars

A scalar is written plain, in quotation marks, or as a block of lines. Line breaks
inside a scalar are folded into spaces, except in literal blocks.
-/
namespace ScreenAtlas.Yaml

/-- Reads a number of digits of base sixteen. -/
def hexDigits : Nat → Nat → Scan Nat
  | 0, value => return value
  | count + 1, value => do
    match (← peek).bind Text.hexValue? with
    | none => malformed
    | some digit =>
      step 1
      hexDigits count (16 * value + digit)

/-! ## Scalars in quotation marks -/

/-- The line breaks behind the first one of a folded text. -/
def foldedBreaks : Nat → Scan (List Char)
  | 0 => return []
  | limit + 1 => do
    if ← atSeparator then malformed
    let _ ← readWhile fun c => c == ' ' || c == '\t'
    match ← lineBreak with
    | [] => return []
    | found => return found ++ (← foldedBreaks limit)

/-- What a line break with further ones behind it is folded into. -/
def folded (first further : List Char) : List Char :=
  (if first != ['\n'] then first else if further.isEmpty then [' '] else []) ++ further

/-- The blanks inside a quoted scalar; line breaks are folded. -/
def quotedBlanks : Scan (List Char) := do
  let blanks ← readWhile fun c => c == ' ' || c == '\t'
  match ← peek with
  | none => malformed
  | some c =>
    if isBreak c then
      let first ← lineBreak
      let further ← foldedBreaks (← budget)
      return folded first further
    else return blanks

/-- What a letter behind a backslash stands for. -/
def escapes : List (Char × Nat) :=
  [('0', 0), ('a', 0x07), ('b', 0x08), ('t', 0x09), ('\t', 0x09), ('n', 0x0A), ('v', 0x0B),
    ('f', 0x0C), ('r', 0x0D), ('e', 0x1B), (' ', 0x20), ('"', 0x22), ('\\', 0x5C), ('/', 0x2F),
    ('N', 0x85), ('_', 0xA0), ('L', 0x2028), ('P', 0x2029)]

/-- How many digits follow a letter that introduces a code. -/
def codeLengths : List (Char × Nat) := [('x', 2), ('u', 4), ('U', 8)]

/-- The character with a given code. A code for half a pair gives the replacement. -/
def charOfCode (code : Nat) : Scan (List Char) :=
  if 0x80000000 ≤ code then throw .tooLarge
  else if 0x110000 ≤ code then throw .noValue
  else return [Text.charAt code]

/-- An escape behind a backslash. -/
def escape : Scan (List Char) := do
  match ← peek with
  | none => malformed
  | some c =>
    match escapes.lookup c with
    | some code =>
      step 1
      return [Char.ofNat code]
    | none =>
      match codeLengths.lookup c with
      | some length =>
        step 1
        charOfCode (← hexDigits length 0)
      | none =>
        if isBreak c then
          let _ ← lineBreak
          foldedBreaks (← budget)
        else malformed

/-- The characters of a quoted scalar up to a blank or the end. -/
def quotedChars (double : Bool) : Nat → Scan (List Char)
  | 0 => malformed
  | limit + 1 => do
    let plain ← readWhile fun c =>
      !(c == '\'' || c == '"' || c == '\\' || c == ' ' || c == '\t' || isBreak c)
    let rest := (← get).rest
    match double, rest with
    | false, '\'' :: '\'' :: _ =>
      step 2
      return plain ++ '\'' :: (← quotedChars double limit)
    | true, '\'' :: _ =>
      step 1
      return plain ++ '\'' :: (← quotedChars double limit)
    | false, '"' :: _ =>
      step 1
      return plain ++ '"' :: (← quotedChars double limit)
    | false, '\\' :: _ =>
      step 1
      return plain ++ '\\' :: (← quotedChars double limit)
    | true, '\\' :: _ =>
      step 1
      let escaped ← escape
      return plain ++ escaped ++ (← quotedChars double limit)
    | _, _ => return plain

/-- The rest of a quoted scalar behind its first characters. -/
def quotedRest (double : Bool) (closing : Char) : Nat → Scan (List Char)
  | 0 => malformed
  | limit + 1 => do
    if (← peek) == some closing then
      step 1
      return []
    let blanks ← quotedBlanks
    let characters ← quotedChars double (← budget)
    return blanks ++ characters ++ (← quotedRest double closing limit)

/-- A scalar in quotation marks. -/
def quotedScalar (closing : Char) : Scan String := do
  let double := closing == '"'
  step 1
  let first ← quotedChars double (← budget)
  let rest ← quotedRest double closing (← budget)
  return String.ofList (first ++ rest)

/-! ## Blocks of lines -/

/-- What happens to the line breaks at the end of a block. -/
inductive Chomping where
  | strip
  | clip
  | keep
  deriving DecidableEq

/-- The mark for the end of a block, if there is one. -/
def chompingMark : Scan (Option Chomping) := do
  match ← peek with
  | some '+' =>
    step 1
    return some .keep
  | some '-' =>
    step 1
    return some .strip
  | _ => return none

/-- The digit for the indentation of a block, if there is one. -/
def indentationMark : Scan (Option Nat) := do
  match ← peek with
  | none => return none
  | some c =>
    if c.isDigit then
      require (c != '0')
      step 1
      return some (c.toNat - '0'.toNat)
    else return none

/-- The marks behind the start of a block, in either order. -/
def blockMarks : Scan (Chomping × Option Nat) := do
  let marks ← do
    match ← chompingMark with
    | some chomping => pure (chomping, ← indentationMark)
    | none =>
      match ← indentationMark with
      | none => pure (.clip, none)
      | some increment => pure ((← chompingMark).getD .clip, some increment)
  require (endsPart (← peek))
  return marks

/-- The rest of a line that holds nothing but a comment. -/
def ignoredLine : Scan Unit := do
  skipSpaces
  if (← peek) == some '#' then
    let _ ← readWhile fun c => !isBreak c
  require (endsLine (← peek))
  let _ ← lineBreak

/-- Spaces up to a column. -/
def spacesUpTo (column : Nat) : Scan Unit := do
  let cursor ← get
  let spaces := (cursor.rest.takeWhile (· == ' ')).length
  step (min spaces (column - cursor.column))

/-- The empty lines at the start of a block and the largest column that their
spaces, and those of the first line, reach. -/
def blockStart (largest : Nat) : Nat → Scan (List Char × Nat)
  | 0 => return ([], largest)
  | limit + 1 => do
    let spaces ← readWhile (· == ' ')
    let column := (← get).column
    let largest := if spaces.isEmpty then largest else max largest column
    match ← lineBreak with
    | [] => return ([], largest)
    | found =>
      let (more, largest) ← blockStart largest limit
      return (found ++ more, largest)

/-- The empty lines in front of a line of a block. -/
def blockBreaks (indent : Nat) : Nat → Scan (List Char)
  | 0 => return []
  | limit + 1 => do
    spacesUpTo indent
    match ← lineBreak with
    | [] => return []
    | found => return found ++ (← blockBreaks indent limit)

/-- A line of a block starts here. -/
def atBlockLine (indent : Nat) : Scan Bool := do
  return (← get).column == indent && (← peek).isSome

/-- The lines of a block. The breaks in front of the first line are given; the
answer is the text, the last line's break and the breaks behind it. -/
def blockLines (fold : Bool) (indent : Nat) (breaks : List Char) :
    Nat → Scan (List Char × List Char × List Char)
  | 0 => return ([], [], breaks)
  | limit + 1 => do
    if ← atBlockLine indent then
      let leading ← peek
      let line ← readWhile fun c => !isBreak c
      let ending ← lineBreak
      let further ← blockBreaks indent (← budget)
      if ← atBlockLine indent then
        let next ← peek
        let isBlank := fun c : Option Char => c == some ' ' || c == some '\t'
        let joint :=
          if fold && ending == ['\n'] && !isBlank leading && !isBlank next then
            if further.isEmpty then [' '] else []
          else ending
        let (text, last, behind) ← blockLines fold indent further limit
        return (breaks ++ line ++ joint ++ text, last, behind)
      else return (breaks ++ line, ending, further)
    else return ([], [], breaks)

/-- A scalar that is a block of lines, below a given indentation. -/
def blockScalar (fold : Bool) (indent : Int) : Scan String := do
  step 1
  let (chomping, increment) ← blockMarks
  ignoredLine
  let least := (max 1 (indent + 1)).toNat
  let (breaks, column) ←
    match increment with
    | none => do
      let (breaks, largest) ← blockStart 0 (← budget)
      pure (breaks, max least largest)
    | some increment => do
      let column := least + increment - 1
      pure (← blockBreaks column (← budget), column)
  let (text, last, behind) ← blockLines fold column breaks (← budget)
  let ending :=
    match chomping with
    | .strip => []
    | .clip => last
    | .keep => last ++ behind
  return String.ofList (text ++ ending)

/-! ## Plain scalars -/

/-- A plain scalar ends before this character. -/
def endsPlain (inFlow : Bool) (c : Char) (next : Option Char) : Bool :=
  endsWord (some c) ||
    (c == ':' && (endsWord next || (inFlow && [',', '[', ']', '\x7b', '\x7d'].contains
      (next.getD ' ')))) ||
    (inFlow && [',', '?', '[', ']', '\x7b', '\x7d'].contains c)

/-- The leading characters of a plain scalar. -/
def plainRun (inFlow : Bool) : List Char → List Char
  | [] => []
  | c :: rest => if endsPlain inFlow c rest.head? then [] else c :: plainRun inFlow rest

/-- The empty lines and the indentation behind a line of a plain scalar. None when
the document ends. -/
def plainBreaks : Nat → Scan (Option (List Char))
  | 0 => return some []
  | limit + 1 => do
    skipSpaces
    match ← lineBreak with
    | [] => return some []
    | found =>
      if ← atSeparator then return none
      return (← plainBreaks limit).map (found ++ ·)

/-- The blanks behind a part of a plain scalar, and whether a line ended. -/
def plainBlanks : Scan (List Char × Bool) := do
  let spaces ← readWhile (· == ' ')
  match ← lineBreak with
  | [] => return (spaces, false)
  | first =>
    if ← atSeparator then return ([], true)
    match ← plainBreaks (← budget) with
    | none => return ([], true)
    | some further => return (folded first further, true)

/-- The parts of a plain scalar. The blanks in front of a part belong to it only if
the part is there. True is answered beside the text when a line ended last. -/
def plainParts (inFlow : Bool) (indent : Int) (blanks : List Char) (ended : Bool) :
    Nat → Scan (List Char × Bool)
  | 0 => return ([], ended)
  | limit + 1 => do
    let ahead := (← get).rest
    let run := if ahead.head? == some '#' then [] else plainRun inFlow ahead
    if run.isEmpty then return ([], ended)
    step run.length
    let (behind, ended) ← plainBlanks
    let here := blanks ++ run
    if behind.isEmpty || (← peek) == some '#' || (!inFlow && (← get).column < indent) then
      return (here, ended)
    let (rest, ended) ← plainParts inFlow indent behind ended limit
    return (here ++ rest, ended)

/-- A plain scalar below a given indentation, and whether a line ended behind it. -/
def plainScalar (inFlow : Bool) (indent : Int) : Scan (String × Bool) := do
  let (text, ended) ← plainParts inFlow (indent + 1) [] false (← budget)
  return (String.ofList text, ended)

end ScreenAtlas.Yaml
