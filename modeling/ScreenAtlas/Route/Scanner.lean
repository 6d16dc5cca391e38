import ScreenAtlas.Route.Resolution
import ScreenAtlas.Route.Tag

/-!
# Routes in raw text

When a file does not parse, its routes are read off the text. Every `Route` tag
with a literal path is a declaration; its span runs to the matching closing tag,
found by counting `Route` tags. Flat route objects and the router's basename are
recognised by their spelling.
-/
namespace ScreenAtlas.Route

open ScreenAtlas.Text

/-- The opening of a `Route` tag. -/
def routeOpening? : Recogniser Unit := fun _ text => do
  let rest ← literal? "<Route" text
  if outsideWord rest.head? then some ((), rest) else none

/-- The closing of a `Route` element. -/
def routeClosing? : Recogniser Unit := fun _ text => do
  let rest ← literal? "</Route" text
  match skipBlanks rest with
  | '>' :: rest => some ((), rest)
  | _ => none

/-- The place behind the closing tag that brings `depth` back to zero, or the end
of the text. `offset` is the place of the remaining text. -/
def elementEnd (depth offset : Nat) (text : List Char) : Nat :=
  match depth, text with
  | 0, _ => offset
  | _, [] => offset
  | depth + 1, c :: rest =>
    let opening := first? routeOpening? (c :: rest)
    let closing := first? routeClosing? (c :: rest)
    let onOpening := fun (hit : Hit Unit) =>
      let (stop, selfClosing) := Tag.scan (c :: rest) hit.start
      elementEnd (if selfClosing then depth + 1 else depth + 2) (offset + max stop 1)
        (rest.drop (stop - 1))
    match opening, closing with
    | none, none => offset + (c :: rest).length
    | some open_, none => onOpening open_
    | none, some close => elementEnd depth (offset + max close.stop 1) (rest.drop (close.stop - 1))
    | some open_, some close =>
      if close.start < open_.start then
        elementEnd depth (offset + max close.stop 1) (rest.drop (close.stop - 1))
      else onOpening open_
termination_by text.length
decreasing_by all_goals (simp only [List.length_drop, List.length_cons]; omega)

/-- The end of the declaration whose tag opens at `start`. -/
def declarationEnd (content : List Char) (start : Nat) : Nat :=
  let (stop, selfClosing) := Tag.scan content start
  if selfClosing then stop else elementEnd 1 stop (content.drop stop)

/-- The name of the element in an attribute's braces, possibly in parentheses,
and the text behind the element's angle bracket. -/
def elementName? (value : List Char) : Option (List Char × List Char) :=
  match value with
  | c :: rest =>
    if c == '\x7b' then
      match skipBlanks (skipMark '(' (skipBlanks rest)) with
      | '<' :: behind => (dottedName? (skipBlanks behind)).map fun (name, _) => (name, behind)
      | _ => none
    else none
  | [] => none

/-- The names of a tag's element and of the first element inside that. `text` is
the content from the tag on and `length` the length of the tag. -/
def elementNames (text : List Char) (length : Nat) : Option String × Option String :=
  let tag := text.take length
  match (Tag.attributeValue? "element" tag).bind elementName? with
  | none => (none, none)
  | some (top, behind) =>
    let start := length - behind.length - 1
    let (stop, selfClosing) := Tag.scan text start
    let inner :=
      if selfClosing || length ≤ stop then none
      else (first? Tag.name? (tag.drop stop)).map fun hit => String.ofList hit.value
    (some (String.ofList top), inner)

/-- The declaration that opens at a place, if its path is a literal. -/
def declarationAt? (layouts : List String) (content : List Char) (start : Nat) :
    Option Declaration := do
  let (stop, _) := Tag.scan content start
  let text := content.drop start
  let value ← Tag.attributeValue? "path" (text.take (stop - start))
  let path ← Tag.attributeText? value
  let (top, inner) := elementNames text (stop - start)
  let (component, skip) := classify top inner layouts
  return {
    rawPath := String.ofList (trim path)
    start := start
    stop := declarationEnd content start
    component
    skip }

/-- The declarations of a text, found without a parser. -/
def scanDeclarations (layouts : List String) (content : List Char) : List Declaration :=
  (hits routeOpening? content).filterMap fun hit => declarationAt? layouts content hit.start

/-- A route object as spelled in a flat list: its path, the name of its element
and the text behind that element's angle bracket. -/
structure FlatObject where
  path : List Char
  element : List Char
  behind : List Char

/-- A member's name with the colon and blanks around it. -/
def memberName? (name : String) (text : List Char) : Option (List Char) := do
  let rest ← literal? name text
  match skipBlanks rest with
  | ':' :: rest => some (skipBlanks rest)
  | _ => none

/-- A brace, a literal path and an element, in this order. -/
def flatObject? : Recogniser FlatObject := fun _ text =>
  match text with
  | c :: rest =>
    if c == '\x7b' then do
      let rest ← memberName? "path" (skipBlanks rest)
      let (path, rest) ← quoted? rest
      match skipBlanks rest with
      | ',' :: rest =>
        let rest ← memberName? "element" (skipBlanks rest)
        match skipBlanks (skipMark '(' rest) with
        | '<' :: behind =>
          let (element, rest) ← dottedName? (skipBlanks behind)
          some (⟨path, element, behind⟩, rest)
        | _ => none
      | _ => none
    else none
  | [] => none

/-- The first element inside the one whose angle bracket `behind` follows. -/
def firstInside (behind : List Char) : Option String :=
  let (stop, selfClosing) := Tag.scan ('<' :: behind) 0
  if selfClosing then none
  else (first? Tag.name? (('<' :: behind).drop stop)).map fun hit => String.ofList hit.value

/-- The route of a flat object, unless it is left out. -/
def flatTarget? (layouts : List String) (basename : Option String) (flat : FlatObject) :
    Option Target :=
  if trim flat.path == ['*'] then none
  else
    let element := String.ofList flat.element
    let inner := if deferredWrappers.contains element then firstInside flat.behind else none
    let (component, skip) := classify (some element) inner layouts
    if skip then none
    else
      let path := withoutSplat (String.ofList (normalizeChars flat.path))
      some { path := underBasename basename path, component }

/-- The routes of the flat route objects in a text. -/
def flatTargets (layouts : List String) (basename : Option String) (content : List Char) :
    List Target :=
  distinct ((hits flatObject? content).filterMap fun hit => flatTarget? layouts basename hit.value)

/-- A quoted basename behind its name and the given mark. -/
def basenameAt? (mark : Char) (brace : Bool) (before : Option Char) (text : List Char) :
    Option (List Char × List Char) :=
  if outsideWord before then do
    let rest ← literal? "basename" text
    match skipBlanks rest with
    | c :: rest =>
      if c == mark then
        let rest := skipBlanks rest
        quoted? (if brace then skipBlanks (skipMark '\x7b' rest) else rest)
      else none
    | [] => none
  else none

/-- The first basename attribute before the tag's closing bracket. -/
def basenameInTag? (before : Option Char) : List Char → Option (List Char × List Char)
  | [] => none
  | c :: rest =>
    match basenameAt? '=' true before (c :: rest) with
    | some found => some found
    | none => if c == '>' then none else basenameInTag? (some c) rest

/-- A router tag with a basename. -/
def routerBasename? : Recogniser (List Char) := fun _ text =>
  match text with
  | '<' :: rest => do
    let (name, rest) ← oneOf? ["BrowserRouter", "HashRouter", "Router"] rest
    if outsideWord rest.head? then basenameInTag? name.toList.getLast? rest else none
  | _ => none

/-- The basename that a file gives its router. -/
def findBasename (content : List Char) : Option String :=
  match first? routerBasename? content with
  | some hit => some (String.ofList hit.value)
  | none =>
    if holds "createBrowserRouter" content || holds "createHashRouter" content then
      (first? (basenameAt? ':' false) content).map fun hit => String.ofList hit.value
    else none

end ScreenAtlas.Route
