import ScreenAtlas.Flow.Basic
import ScreenAtlas.Text.Case
import ScreenAtlas.Text.Scan

/-!
# Flows recognised line by line

Every line of a source is looked at on its own for event handlers, handler
functions, requests, table accesses and raw queries. Of requests, accesses and
queries the first of a line counts.
-/
namespace ScreenAtlas.Flow

open ScreenAtlas.Text

/-- What follows a mark behind blanks. -/
def behindMark? (mark : Char) (text : List Char) : Option (List Char) :=
  match skipBlanks text with
  | c :: rest => if c == mark then some rest else none
  | [] => none

/-- An event attribute that is given a value in braces. -/
def eventAttribute? : Recogniser String := fun before text =>
  if outsideWord before then do
    let (event, rest) ← oneOf? eventAttributes text
    let rest ← behindMark? '=' rest
    let rest ← behindMark? '\x7b' rest
    some (event, rest)
  else none

/-- A name that starts with a given word and a capital letter. -/
def handlerName? (start : String) (text : List Char) : Option (List Char × List Char) := do
  match ← literal? start text with
  | [] => none
  | c :: rest =>
    if c.isUpper then
      some (start.toList ++ c :: rest.takeWhile isWord, rest.dropWhile isWord)
    else none

/-- The parenthesis that opens a function's parameters, possibly behind the word
for asynchronous functions. -/
def openingParenthesis? (text : List Char) : Option (List Char) :=
  match literal? "async" (skipBlanks text) with
  | some rest => behindMark? '(' rest
  | none => behindMark? '(' text

/-- A declaration of a handler function. -/
def handlerFunction? : Recogniser (List Char) := fun _ text => do
  let (_, rest) ← oneOf? ["const", "let", "var", "function"] text
  let (_, rest) ← run? isBlank rest
  let (name, rest) ← (handlerName? "handle" rest).or (handlerName? "on" rest)
  let rest ← openingParenthesis? (skipMark '=' (skipBlanks rest))
  some (name, rest)

/-- A quoted text behind blanks and an opening mark. -/
def quotedBehind? (mark : Char) (text : List Char) : Option (List Char × List Char) := do
  let rest ← behindMark? mark text
  quoted? (skipBlanks rest)

/-- A request: the method of the client that sends it, if it has one, and the
address. -/
structure Request where
  verb : Option (List Char)
  address : List Char

/-- A request with a literal address. -/
def request? : Recogniser Request := fun before text =>
  if outsideWord before then
    match literal? "fetch" text with
    | some rest => (quotedBehind? '(' rest).map fun (address, rest) => (⟨none, address⟩, rest)
    | none => do
      let rest ← literal? "axios." text
      let (verb, rest) ← run? isWord rest
      let (address, rest) ← quotedBehind? '(' rest
      some (⟨some verb, address⟩, rest)
  else none

/-- A member that names the method of a request. -/
def methodMember? : Recogniser (List Char) := fun before text =>
  if outsideWord before then do
    let rest ← literal? "method" text
    let rest ← behindMark? ':' rest
    match skipBlanks rest with
    | [] => none
    | c :: rest =>
      if isQuote c then
        match run? isWord rest with
        | some (name, closing :: rest) => if isQuote closing then some (name, rest) else none
        | _ => none
      else none
  else none

/-- The methods of a client that are named after the method of the request. -/
def verbs : List String := ["get", "post", "put", "patch", "delete", "head", "options"]

/-- A client's method is named after the method of the request. -/
def isVerb (name : List Char) : Bool := verbs.contains (String.ofList (small name))

/-- The method and the address of a line's first request. A method that the line
names wins over the client's. -/
def requestName? (line : List Char) : Option String := do
  let request := (← first? request? line).value
  let isRequest :=
    match request.verb with
    | none => true
    | some verb => isVerb verb || String.ofList verb == "request"
  if isRequest then
    let method :=
      match first? methodMember? line with
      | some named => capital named.value
      | none =>
        match request.verb with
        | some verb => if isVerb verb then capital verb else "GET".toList
        | none => "GET".toList
    some (String.ofList (method ++ ' ' :: request.address))
  else none

/-- A table that is accessed by its literal name. -/
def tableAccess? : Recogniser (List Char) := fun before text =>
  if outsideWord before then do
    let (_, rest) ← run? isWord text
    let rest ← literal? ".from" rest
    let (table, rest) ← quotedBehind? '(' rest
    let rest ← behindMark? ')' rest
    some (table, rest)
  else none

/-- The operations on a table with their names in a query, in the order in which
they are looked for. -/
def tableOperations : List (String × String) :=
  [("insert", "INSERT"), ("upsert", "INSERT"), ("update", "UPDATE"), ("delete", "DELETE"),
    ("select", "SELECT")]

/-- A call of an operation behind a point. -/
def operationCall? (operation : String) : Recogniser Unit := fun _ text => do
  let rest ← literal? "." text
  let rest ← literal? operation rest
  let rest ← behindMark? '(' rest
  some ((), rest)

/-- The operation on a line's first accessed table. -/
def tableName? (line : List Char) : Option String := do
  let access ← first? tableAccess? line
  let chain := line.drop access.stop
  let operation := tableOperations.findSome? fun (call, name) =>
    if (first? (operationCall? call) chain).isSome then some name else none
  some (operation.getD "SELECT" ++ " " ++ String.ofList access.value)

/-- A query that is given as a text. -/
def rawQuery? : Recogniser (List Char) := fun _ text => do
  let rest ← literal? "." text
  let (_, rest) ← oneOf? ["query", "execute"] rest
  quotedBehind? '(' rest

/-- How much of a query's text names its flow. -/
def queryLength : Nat := 60

/-- The flows of one line. -/
def ofLine (path : String) (number : Int) (line : List Char) : List Flow :=
  let flow := onLine path number (String.ofList (trim line))
  let events := (hits eventAttribute? line).map fun hit =>
    flow ("event:" ++ hit.value) uiEvent hit.value
  let handlers := (first? handlerFunction? line).toList.map fun hit =>
    let name := String.ofList hit.value
    flow ("function:" ++ name) functionCall name
  let requests := (requestName? line).toList.map fun name => flow "api" apiCall name
  let tables := (tableName? line).toList.map fun name => flow "db" dbQuery name
  let queries := (first? rawQuery? line).toList.map fun hit =>
    flow "sql" dbQuery (String.ofList (hit.value.take queryLength))
  events ++ handlers ++ requests ++ tables ++ queries

/-- The lines of a source; only a line feed ends a line. -/
def sourceLines (content : String) : List (List Char) := content.toList.splitOn '\n'

/-- The flows of lines that are counted from `number` on. -/
def ofLines (path : String) (number : Int) : List (List Char) → List Flow
  | [] => []
  | line :: rest => ofLine path number line ++ ofLines path (number + 1) rest

/-- The flows that the lines of a source spell out. -/
def spelled (path content : String) : List Flow :=
  unique (ofLines path 1 (sourceLines content))

end ScreenAtlas.Flow
