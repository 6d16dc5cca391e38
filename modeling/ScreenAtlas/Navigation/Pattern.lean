import ScreenAtlas.Navigation.Target

/-!
# Links recognised by their spelling

Where a source cannot be parsed, its links are read off the text: calls of the
navigation functions with a literal target, and link attributes. Each pattern
captures the quoted target. All captures together are ordered by the place of the
target, so the order of the patterns has no influence.
-/
namespace ScreenAtlas.Navigation

open ScreenAtlas.Text

/-- A quoted first argument behind an opening parenthesis. -/
def quotedArgument? (text : List Char) : Option (List Char × List Char) :=
  match skipBlanks text with
  | '(' :: rest => quoted? (skipBlanks rest)
  | _ => none

/-- A call of one of a receiver's two navigation methods. -/
def methodCall? (receiver : String) : Recogniser (List Char) := fun _ text => do
  let rest ← literal? receiver text
  let (_, rest) ← oneOf? ["push", "replace"] rest
  quotedArgument? rest

/-- A call of a navigation function. -/
def functionCall? (name : String) : Recogniser (List Char) := fun before text =>
  if outsideWord before then do
    let rest ← literal? name text
    quotedArgument? rest
  else none

/-- A quoted value behind an equals sign, possibly in braces. -/
def quotedValue? (text : List Char) : Option (List Char × List Char) :=
  quoted? (skipBlanks (skipMark '\x7b' text))

/-- An attribute that holds an address. -/
def addressAttribute? : Recogniser (List Char) := fun _ text => do
  let rest ← literal? "href=" text
  quotedValue? rest

/-- The nearest `to` attribute with a quoted value, before the tag ends. -/
def nearestTarget? : List Char → Option (List Char × List Char)
  | [] => none
  | c :: rest =>
    let here := if isBlank c then (literal? "to=" rest).bind quotedValue? else none
    match here with
    | some found => some found
    | none => if c == '>' then none else nearestTarget? rest

/-- A link element with a quoted target. -/
def linkElement? : Recogniser (List Char) := fun _ text => do
  let (_, rest) ← oneOf? ["<NavLink", "<Link"] text
  if outsideWord rest.head? then nearestTarget? rest else none

/-- The seven ways to spell a link. -/
def patterns : List (Recogniser (List Char)) :=
  [methodCall? "router.", methodCall? "history.", functionCall? "navigate",
    functionCall? "navigateTo", functionCall? "redirect", addressAttribute?, linkElement?]

/-- A captured target and the place where it starts. -/
structure Capture where
  start : Nat
  target : List Char

/-- The captures of one pattern. A capture ends just before the quotation mark
that ends the hit. -/
def capturesOf (pattern : Recogniser (List Char)) (content : List Char) : List Capture :=
  (hits pattern content).map fun hit => ⟨hit.stop - 1 - hit.value.length, hit.value⟩

/-- The captures of all patterns in the order of their places. -/
def captures (content : List Char) : List Capture :=
  (patterns.flatMap fun pattern => capturesOf pattern content).mergeSort
    fun left right => left.start ≤ right.start

/-- The links that a text spells out: literal, internal and each once. -/
def spelledLinks (content : String) : List String :=
  internalTargets (((captures content.toList).filter fun capture =>
    !holds "$\x7b" capture.target).map fun capture => String.ofList capture.target)

end ScreenAtlas.Navigation
