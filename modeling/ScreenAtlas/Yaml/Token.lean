import ScreenAtlas.Yaml.Scalar

/-!
# Tokens

A document is first cut into tokens. Indentation becomes tokens that open and close
block collections. Whether a scalar is a key is only known when the colon behind it
is met; the place of every possible key is remembered, and the token for the key is
put there afterwards.
-/
namespace ScreenAtlas.Yaml

/-- A token of a document. -/
inductive Token where
  /-- A version of the format that a directive names. -/
  | version (major : Nat)
  /-- A short form for tags that a directive introduces. -/
  | tagForm (handle start : String)
  /-- A directive without meaning. -/
  | otherDirective
  | documentStart
  | documentEnd
  | blockListStart
  | blockMapStart
  | blockEnd
  | flowListStart
  | flowListEnd
  | flowMapStart
  | flowMapEnd
  | flowEntry
  | blockEntry
  | key
  | value
  | alias (name : String)
  | anchor (name : String)
  | tag (handle : Option String) (name : String)
  | scalar (text : String) (plain : Bool)
  deriving DecidableEq, Repr

/-- A place where a key may have started. -/
structure PossibleKey where
  level : Nat
  position : Nat
  required : Bool
  index : Nat
  line : Nat
  column : Nat

/-- The state of cutting a document into tokens. The tokens are kept with the
latest first. -/
structure Lexer where
  cursor : Cursor
  flowLevel : Nat := 0
  indent : Int := -1
  indents : List Int := []
  keyAllowed : Bool := true
  possibleKeys : List PossibleKey := []
  tokens : List Token := []
  count : Nat := 0

/-- A step of cutting a document into tokens. -/
abbrev Lex (α : Type) := StateT Lexer (Except ReadError) α

namespace Lexer

/-- Moves the cursor by a scan. -/
def scan {α : Type} (scan : Scan α) : Lex α := do
  let lexer ← get
  let (value, cursor) ← (scan.run lexer.cursor : Except ReadError (α × Cursor))
  set { lexer with cursor }
  return value

/-- Adds a token. -/
def add (token : Token) : Lex Unit :=
  modify fun lexer => { lexer with tokens := token :: lexer.tokens, count := lexer.count + 1 }

/-- Puts tokens in front of the token at a position. -/
def insertAt (position : Nat) (inserted : List Token) : Lex Unit :=
  modify fun lexer =>
    let behind := lexer.count - position
    { lexer with
      tokens := lexer.tokens.take behind ++ inserted.reverse ++ lexer.tokens.drop behind
      count := lexer.count + inserted.length }

/-- Says whether a key may start next. -/
def allowKey (allowed : Bool) : Lex Unit :=
  modify fun lexer => { lexer with keyAllowed := allowed }

/-- The collection that is being read is written in brackets or braces. -/
def inFlow (lexer : Lexer) : Bool := 0 < lexer.flowLevel

/-- A possible key can no longer be one: its line has ended, or it is too long. -/
def isStale (lexer : Lexer) (key : PossibleKey) : Bool :=
  key.line != lexer.cursor.line || 1024 < lexer.cursor.index - key.index

/-- Forgets possible keys; a key that had to be one is missing its colon. -/
def forget (drop : Lexer → PossibleKey → Bool) : Lex Unit := do
  let lexer ← get
  let dropped := lexer.possibleKeys.filter (drop lexer)
  if dropped.any PossibleKey.required then throw .malformed
  set { lexer with possibleKeys := lexer.possibleKeys.filter fun key => !drop lexer key }

/-- Forgets the possible key of the collection that is being read. -/
def forgetHere : Lex Unit := forget fun lexer key => key.level == lexer.flowLevel

/-- Remembers that a key may start here. -/
def rememberKey : Lex Unit := do
  let lexer ← get
  if lexer.keyAllowed then
    forgetHere
    let key : PossibleKey :=
      { level := lexer.flowLevel
        position := lexer.count
        required := !lexer.inFlow && lexer.indent == lexer.cursor.column
        index := lexer.cursor.index
        line := lexer.cursor.line
        column := lexer.cursor.column }
    modify fun lexer => { lexer with possibleKeys := key :: lexer.possibleKeys }

/-- Closes the block collections that are indented deeper than a column. -/
def unwind (column : Int) : Lex Unit :=
  modify fun lexer =>
    if lexer.inFlow then lexer
    else
      let levels := lexer.indent :: lexer.indents
      let closed := levels.takeWhile fun indent => column < indent
      match levels.drop closed.length with
      | [] => lexer
      | indent :: indents =>
        { lexer with
          indent
          indents
          tokens := closed.map (fun _ => .blockEnd) ++ lexer.tokens
          count := lexer.count + closed.length }

/-- Opens a block collection at a column unless one is open there. -/
def indentTo (column : Nat) : Lex Bool := do
  let lexer ← get
  if lexer.indent < column then
    set { lexer with indent := column, indents := lexer.indent :: lexer.indents }
    return true
  else return false

/-- Opens a block collection at the column of the cursor. -/
def openBlock (token : Token) : Lex Unit := do
  if ← indentTo (← get).cursor.column then add token

/-- Passes over spaces, comments and line breaks. A key may start on a new line
outside brackets and braces. -/
def toNextToken : Nat → Lex Unit
  | 0 => return ()
  | limit + 1 => do
    let cursor := (← get).cursor
    if cursor.index == 0 && (cursor.rest.head?.map Char.toNat) == some 0xFEFF then scan (step 1)
    scan skipSpaces
    if (← scan peek) == some '#' then
      let _ ← scan (readWhile fun c => !isBreak c)
    match ← scan lineBreak with
    | [] => return ()
    | _ =>
      if !(← get).inFlow then allowKey true
      toNextToken limit

/-- A character of an anchor's or a directive's name. -/
def isNameChar (c : Char) : Bool := c.isAlphanum || c == '-' || c == '_'

/-- A name that is not empty. -/
def name : Scan String := do
  let characters ← readWhile isNameChar
  require !characters.isEmpty
  return String.ofList characters

/-- The name of an anchor or an alias behind its mark. -/
def anchorName : Scan String := do
  step 1
  let name ← name
  let next ← peek
  require (endsWord next || ['?', ':', ',', ']', '\x7d', '%', '@', '\x60'].contains (next.getD ' '))
  return name

/-- The bytes that percent signs introduce. -/
def escapedBytes : Nat → Scan (List UInt8)
  | 0 => return []
  | limit + 1 => do
    if (← peek) == some '%' then
      step 1
      let code ← hexDigits 2 0
      return UInt8.ofNat code :: (← escapedBytes limit)
    else return []

/-- A character of a tag. -/
def isTagChar (c : Char) : Bool :=
  c.isAlphanum || "-;/?:@&=+$,_.!~*'()[]".toList.contains c

/-- The characters of a tag. -/
def tagChars : Nat → Scan (List Char)
  | 0 => return []
  | limit + 1 => do
    let plain ← readWhile isTagChar
    if (← peek) == some '%' then
      match Text.decode? (← escapedBytes (← budget)) with
      | none => malformed
      | some escaped => return plain ++ escaped ++ (← tagChars limit)
    else return plain

/-- The name in a tag, which is not empty. -/
def tagName : Scan String := do
  let characters ← tagChars (← budget)
  require !characters.isEmpty
  return String.ofList characters

/-- The handle of a tag: an exclamation mark, or two with a name between them. -/
def tagHandle : Scan String := do
  require ((← peek) == some '!')
  step 1
  if (← peek) == some ' ' then return "!"
  let name ← readWhile isNameChar
  require ((← peek) == some '!')
  step 1
  return String.ofList ('!' :: name ++ ['!'])

/-- A tag. -/
def tagToken : Scan Token := do
  let token ← do
    match ← peekAt 1 with
    | some '<' =>
      step 2
      let name ← tagName
      require ((← peek) == some '>')
      step 1
      pure (.tag none name)
    | next =>
      if endsWord next then
        step 1
        pure (.tag none "!")
      else
        let ahead := ((← get).rest.drop 1).takeWhile fun c => c != ' ' && !isBreak c
        if ahead.contains '!' then
          let handle ← tagHandle
          pure (.tag (some handle) (← tagName))
        else
          step 1
          pure (.tag (some "!") (← tagName))
  require (endsPart (← peek))
  return token

/-- A number in a directive. -/
def directiveNumber : Scan Nat := do
  let digits ← readWhile Char.isDigit
  require !digits.isEmpty
  return digits.foldl (fun value c => 10 * value + (c.toNat - '0'.toNat)) 0

/-- What follows the name of a directive. -/
def directiveToken : Scan Token := do
  step 1
  let name ← name
  require (endsPart (← peek))
  let token ←
    if name == "YAML" then do
      skipSpaces
      let major ← directiveNumber
      require ((← peek) == some '.')
      step 1
      let _ ← directiveNumber
      require (endsPart (← peek))
      pure (.version major)
    else if name == "TAG" then do
      skipSpaces
      let handle ← tagHandle
      require ((← peek) == some ' ')
      skipSpaces
      let start ← tagName
      require (endsPart (← peek))
      pure (.tagForm handle start)
    else do
      let _ ← readWhile fun c => !isBreak c
      pure .otherDirective
  ignoredLine
  return token

/-- A token after which no key is open: a directive or a mark of a document. -/
def documentToken (token : Scan Token) : Lex Unit := do
  unwind (-1)
  forgetHere
  allowKey false
  add (← scan token)

/-- A token that could start a key. -/
def contentToken (token : Lex Token) : Lex Unit := do
  rememberKey
  allowKey false
  add (← token)

/-- An opening bracket or brace. -/
def openFlow (token : Token) : Lex Unit := do
  rememberKey
  modify fun lexer => { lexer with flowLevel := lexer.flowLevel + 1, keyAllowed := true }
  scan (step 1)
  add token

/-- A closing bracket or brace. -/
def closeFlow (token : Token) : Lex Unit := do
  forgetHere
  let lexer ← get
  if lexer.flowLevel == 0 then throw .malformed
  set { lexer with flowLevel := lexer.flowLevel - 1, keyAllowed := false }
  scan (step 1)
  add token

/-- A comma in brackets or braces. -/
def flowEntryToken : Lex Unit := do
  allowKey true
  forgetHere
  scan (step 1)
  add .flowEntry

/-- A collection that starts with a mark of its own may only stand where a key
may. -/
def openMarked (token : Token) : Lex Unit := do
  let lexer ← get
  if !lexer.inFlow then
    if !lexer.keyAllowed then throw .malformed
    openBlock token

/-- A dash in front of an item. -/
def blockEntryToken : Lex Unit := do
  openMarked .blockListStart
  allowKey true
  forgetHere
  scan (step 1)
  add .blockEntry

/-- A question mark in front of a key. -/
def keyToken : Lex Unit := do
  openMarked .blockMapStart
  allowKey (!(← get).inFlow)
  forgetHere
  scan (step 1)
  add .key

/-- A colon in front of a value. If a key may have started before, it is one. -/
def valueToken : Lex Unit := do
  let lexer ← get
  match lexer.possibleKeys.find? fun key => key.level == lexer.flowLevel with
  | some key =>
    modify fun lexer =>
      { lexer with possibleKeys := lexer.possibleKeys.filter fun other => other.level != key.level }
    let opens ← if lexer.inFlow then pure false else indentTo key.column
    insertAt key.position (if opens then [.blockMapStart, .key] else [.key])
    allowKey false
  | none =>
    openMarked .blockMapStart
    allowKey (!lexer.inFlow)
    forgetHere
  scan (step 1)
  add .value

/-- A block of lines. -/
def blockScalarToken (fold : Bool) : Lex Unit := do
  allowKey true
  forgetHere
  let text ← scan (blockScalar fold (← get).indent)
  add (.scalar text false)

/-- A plain scalar. A key may start behind it when its line has ended. -/
def plainToken : Lex Unit := do
  rememberKey
  let lexer ← get
  let (text, ended) ← scan (plainScalar lexer.inFlow lexer.indent)
  allowKey ended
  add (.scalar text true)

/-- Marks that no plain scalar starts with. -/
def indicators : List Char :=
  ['-', '?', ':', ',', '[', ']', '\x7b', '\x7d', '#', '&', '*', '!', '|', '>', '\'', '"', '%', '@',
    '\x60']

/-- A plain scalar can start with a character that another one follows. -/
def startsPlain (inFlow : Bool) (c : Char) (next : Option Char) : Bool :=
  (!endsWord (some c) && !indicators.contains c) ||
    (!endsWord next && (c == '-' || (!inFlow && (c == '?' || c == ':'))))

/-- Reads the token that starts with the next character. -/
def token (c : Char) (next : Option Char) : Lex Unit := do
  let lexer ← get
  let inFlow := lexer.inFlow
  let atStart := lexer.cursor.column == 0
  let separator ← scan atSeparator
  if c == '%' && atStart then documentToken directiveToken
  else if c == '-' && atStart && separator then
    documentToken (do step 3; return .documentStart)
  else if c == '.' && atStart && separator then
    documentToken (do step 3; return .documentEnd)
  else if c == '[' then openFlow .flowListStart
  else if c == '\x7b' then openFlow .flowMapStart
  else if c == ']' then closeFlow .flowListEnd
  else if c == '\x7d' then closeFlow .flowMapEnd
  else if c == ',' then flowEntryToken
  else if c == '-' && endsWord next then blockEntryToken
  else if c == '?' && (inFlow || endsWord next) then keyToken
  else if c == ':' && (inFlow || endsWord next) then valueToken
  else if c == '*' then contentToken (scan (Token.alias <$> anchorName))
  else if c == '&' then contentToken (scan (Token.anchor <$> anchorName))
  else if c == '!' then contentToken (scan tagToken)
  else if c == '|' && !inFlow then blockScalarToken false
  else if c == '>' && !inFlow then blockScalarToken true
  else if c == '\'' || c == '"' then
    contentToken (scan do return .scalar (← quotedScalar c) false)
  else if startsPlain inFlow c next then plainToken
  else throw .malformed

/-- Reads tokens up to the end of the document. -/
def tokensToEnd : Nat → Lex Unit
  | 0 => throw .malformed
  | limit + 1 => do
    toNextToken (← scan budget)
    forget isStale
    unwind (← get).cursor.column
    match (← get).cursor.rest with
    | [] =>
      unwind (-1)
      forgetHere
    | c :: rest =>
      token c rest.head?
      tokensToEnd limit

end Lexer

/-- A character that a document may hold. -/
def isAllowed (c : Char) : Bool :=
  let code := c.toNat
  code == 0x09 || code == 0x0A || code == 0x0D || (0x20 ≤ code && code ≤ 0x7E) || code == 0x85 ||
    (0xA0 ≤ code && code ≤ 0xD7FF) || (0xE000 ≤ code && code ≤ 0xFFFD) || 0x10000 ≤ code

/-- The tokens of a document. -/
def tokens (document : List Char) : Except ReadError (List Token) :=
  if document.all isAllowed then
    match (Lexer.tokensToEnd (document.length + 1)).run { cursor := { rest := document } } with
    | .ok (_, lexer) => .ok lexer.tokens.reverse
    | .error cause => .error cause
  else .error .malformed

end ScreenAtlas.Yaml
