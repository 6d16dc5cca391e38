import ScreenAtlas.Script.Grammar.Rule

/-!
# Names, numbers and quoted texts

A name may hold any character that is no punctuation, white space or control, so
letters of every script and pictographs are allowed. Quoted texts end at the same
mark on the same line unless the line break is escaped.
-/
namespace ScreenAtlas.Script.Grammar

/-- Punctuation that ends a name. -/
def punctuation : List Char :=
  [':', ';', '\x60', '"', '\'', '@', '#', '.', ',', '|', '^', '&', '<', '=', '>', '+', '-', '*',
    '/', '\\', '%', '?', '!', '~', '(', ')', '[', ']', '\x7b', '\x7d']

/-- The character can be part of a name. -/
def isNamePart (c : Char) : Bool :=
  if c.toNat < 128 then c.isAlphanum || c == '_' || c == '$' || c == '\x7f'
  else !isGap c && c != ' ' && c != ' '

/-- The character can start a name. -/
def isNameStart (c : Char) : Bool := isNamePart c && !c.isDigit

/-- A digit of base sixteen. -/
def isHexDigit (c : Char) : Bool :=
  c.isDigit || ('a'.toNat ≤ c.toNat && c.toNat ≤ 'f'.toNat) ||
    ('A'.toNat ≤ c.toNat && c.toNat ≤ 'F'.toNat)

/-- A character of a name that is written as an escape. -/
def escapedNamePart : Rule (List Char) := do
  exactly ['\\', 'u']
  (do
    exactly ['\x7b']
    let digits ← charsWhile isHexDigit
    require !digits.isEmpty
    exactly ['\x7d']
    return '\\' :: 'u' :: '\x7b' :: (digits ++ ['\x7d'])) <|>
  (do
    let a ← oneChar isHexDigit
    let b ← oneChar isHexDigit
    let c ← oneChar isHexDigit
    let d ← oneChar isHexDigit
    return ['\\', 'u', a, b, c, d])

/-- A name that starts right here. -/
def nameHere (limit : Nat) : Rule (List Char) := do
  let first ← (do return [← oneChar isNameStart]) <|> escapedNamePart
  let rest ← charsWhile isNamePart
  let more ← many (do
    let part ← escapedNamePart
    return part ++ (← charsWhile isNamePart)) limit
  return first ++ rest ++ more.flatten

/-- A name behind white space, reserved or not. -/
def anyName (limit : Nat) : Rule String := do
  skip
  return String.ofList (← nameHere limit)

/-- Words that cannot name a variable. -/
def reserved : List String :=
  ["break", "case", "catch", "class", "const", "continue", "debugger", "default", "delete", "do",
    "else", "enum", "export", "extends", "false", "finally", "for", "function", "if", "import",
    "in", "instanceof", "new", "null", "return", "super", "switch", "this", "throw", "true", "try",
    "typeof", "var", "void", "while", "with"]

/-- A name that is not reserved. -/
def freeName (limit : Nat) : Rule String := do
  let name ← anyName limit
  require !(reserved.contains name)
  return name

/-- A given word, with nothing of a name behind it. -/
def word (text : String) : Rule Unit := do
  mark text
  let here ← get
  require ((here.rest.head?.map fun c => !isNamePart c).getD true)

/-- One of several words. -/
def anyWord (texts : List String) : Rule Unit := choose (texts.map word)

/-- A word if it is there. -/
def perhapsWord (text : String) : Rule Bool := (do word text; return true) <|> return false

/-- A word on the same line as what precedes it. -/
def wordOnLine (text : String) : Rule Unit := do
  require !(← breakAhead)
  word text

/-- A variable's name as a node. -/
def identifier (g : Table) : Rule Node := leaf "identifier" do
  let _ ← freeName g.limit

/-- A member's name as a node; any name will do. -/
def propertyName (g : Table) : Rule Node := leaf "property_identifier" do
  let _ ← anyName g.limit

/-- A private member's name. -/
def privateName (g : Table) : Rule Node := leaf "private_property_identifier" do
  mark "#"
  let _ ← nameHere g.limit

/-- Digits of a base with underscores between them. -/
def digitsOf (belongs : Char → Bool) : Rule Unit := do
  let digits ← charsWhile fun c => belongs c || c == '_'
  require !digits.isEmpty

/-- The exponent of a decimal number. -/
def exponentPart : Rule Unit := do
  let _ ← oneChar fun c => c == 'e' || c == 'E'
  let _ ← perhaps (oneChar fun c => c == '+' || c == '-')
  digitsOf Char.isDigit

/-- The body of a number in any base. -/
def numberBody : Rule Unit := choose [
  do
    exactly ['0']
    let _ ← oneChar fun c => "xXoObB".toList.contains c
    digitsOf Char.isAlphanum,
  do
    digitsOf Char.isDigit
    let _ ← perhaps (do
      exactly ['.']
      let _ ← charsWhile fun c => c.isDigit || c == '_')
    let _ ← perhaps exponentPart,
  do
    exactly ['.']
    digitsOf Char.isDigit
    let _ ← perhaps exponentPart]

/-- A number. -/
def number : Rule Node := leaf "number" do
  numberBody
  let _ ← perhaps (oneChar (· == 'n'))

/-- What a backslash escapes: a character by its code, a line break, which may be
of two characters, or any other character that introduces no code. -/
def escaped : Rule Unit := choose [
  do let _ ← escapedNamePart,
  do
    exactly ['\\', 'x']
    let _ ← oneChar isHexDigit
    let _ ← oneChar isHexDigit,
  exactly ['\\', '\r', '\n'],
  do
    exactly ['\\']
    let _ ← oneChar fun c => c != 'x' && c != 'u']

/-- The rest of a quoted text up to its mark. -/
def quotedRest (closing : Char) : Nat → Rule Unit
  | 0 => failure
  | limit + 1 => do
    let _ ← charsWhile fun c => c != closing && c != '\\' && c != '\n' && c != '\r'
    (exactly [closing]) <|> (do
      escaped
      quotedRest closing limit)

/-- A quoted text. -/
def quotedText (g : Table) : Rule Node := leaf "string" do
  let closing ← oneChar fun c => c == '"' || c == '\''
  quotedRest closing (g.limit + 1)

/-- A template; `inner` reads what stands in a substitution. -/
def templateParts (inner : Rule Node) : Nat → Rule (List Node)
  | 0 => failure
  | limit + 1 => do
    let _ ← charsWhile fun c => c != '\x60' && c != '\\' && c != '$'
    choose [
      do
        exactly ['\x60']
        return [],
      do
        escaped
        templateParts inner limit,
      do
        let start ← get
        exactly ['$', '\x7b']
        let content ← inner
        mark "\x7d"
        let substitution ← nodeFrom "template_substitution" start [content]
        return substitution :: (← templateParts inner limit),
      do
        exactly ['$']
        require ((← get).rest.head? != some '\x7b')
        templateParts inner limit]

/-- A template text with substitutions. -/
def template (g : Table) (inner : Rule Node) (kind : String) : Rule Node := node kind do
  exactly ['\x60']
  templateParts inner (g.limit + 1)

/-- The rest of a pattern literal; `inClass` is set inside square brackets. -/
def patternRest (inClass : Bool) : Nat → Rule Unit
  | 0 => failure
  | limit + 1 => do
    let c ← oneChar fun c => c != '\n' && c != '\r'
    if c == '\\' then
      let _ ← oneChar fun c => c != '\n' && c != '\r'
      patternRest inClass limit
    else if c == '[' then patternRest true limit
    else if c == ']' then patternRest false limit
    else if c == '/' && !inClass then return ()
    else patternRest inClass limit

/-- A pattern literal between slashes. -/
def patternLiteral (g : Table) : Rule Node := leaf "regex" do
  exactly ['/']
  expect (oneChar fun c => c != '/' && c != '*')
  patternRest false (g.limit + 1)
  let _ ← charsWhile isNamePart

/-- The end of a statement: a semicolon, or a place where none is needed. -/
def statementEnd : Rule Unit := do
  if ← perhapsMark ";" then return ()
  let rest ← ahead
  require (rest.isEmpty || rest.head? == some '\x7d' || (← breakAhead))

end ScreenAtlas.Script.Grammar
