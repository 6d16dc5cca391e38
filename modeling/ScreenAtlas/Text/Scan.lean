import ScreenAtlas.Text.Blank
import ScreenAtlas.Text.Case
import ScreenAtlas.Text.Word

/-!
# Recognisers over running text

A recogniser looks at one place of a text: it is given the character before the
place, if there is one, and everything after it, and answers with a value and
the text that follows what it recognised, or with nothing. Every recogniser here
is deterministic. Searching tries the places from left to right; after a hit the
search goes on behind the recognised text, so hits never overlap.

Searching recurses on the text itself. A hit is skipped by counting off its
length, which keeps the recursion structural and makes every search total
without a measure.
-/
namespace ScreenAtlas.Text

/-- What follows `word` at the start of a text. -/
def after? : List Char → List Char → Option (List Char)
  | [], text => some text
  | _ :: _, [] => none
  | w :: word, c :: text => if w == c then after? word text else none

/-- What follows a literal at the start of a text. -/
def literal? (word : String) (text : List Char) : Option (List Char) := after? word.toList text

/-- What follows one of the given words, together with that word; earlier words
are preferred. -/
def oneOf? (choices : List String) (text : List Char) : Option (String × List Char) :=
  choices.findSome? fun word => (literal? word text).map fun rest => (word, rest)

/-- What follows `word` when the case of letters is disregarded. -/
def afterAnyCase? : List Char → List Char → Option (List Char)
  | [], text => some text
  | _ :: _, [] => none
  | w :: word, c :: text => if sameLetter w c then afterAnyCase? word text else none

/-- What follows one of the given words in any case of letters. -/
def oneOfAnyCase? (choices : List String) (text : List Char) : Option (List Char) :=
  choices.findSome? fun word => afterAnyCase? word.toList text

/-- What follows an optional character. -/
def skipMark (mark : Char) : List Char → List Char
  | c :: rest => if c == mark then rest else c :: rest
  | [] => []

/-- A text starts with a letter, an underscore or a dollar sign. -/
def startsName (c : Char) : Bool := c.isAlpha || c == '_' || c == '$'

/-- One of the three quotation marks of source text. -/
def isQuote (c : Char) : Bool := c == '"' || c == '\'' || c == '`'

/-- A non-empty run of a class, and what follows it. -/
def run? (belongs : Char → Bool) (text : List Char) : Option (List Char × List Char) :=
  match text.takeWhile belongs with
  | [] => none
  | run => some (run, text.dropWhile belongs)

/-- A quoted text between any two quotation marks: the marks need not agree, and
the quoted part is not empty and holds no quotation mark. -/
def quoted? : List Char → Option (List Char × List Char)
  | [] => none
  | c :: text =>
    if isQuote c then
      match run? (fun d => !isQuote d) text with
      | some (content, _ :: rest) => some (content, rest)
      | _ => none
    else none

/-- A name: a letter, underscore or dollar sign and then every following
character of the class. -/
def nameOf? (continues : Char → Bool) : List Char → Option (List Char × List Char)
  | [] => none
  | c :: text =>
    if startsName c then some (c :: text.takeWhile continues, text.dropWhile continues) else none

/-- A dotted name such as a component's. -/
def dottedName? (text : List Char) : Option (List Char × List Char) :=
  nameOf? (fun c => isWord c || c == '.' || c == '$') text

/-- A hit of a search: where it starts, how long it is and what it holds. -/
structure Hit (α : Type) where
  start : Nat
  length : Nat
  value : α

/-- The place just behind the hit. -/
def Hit.stop {α : Type} (hit : Hit α) : Nat := hit.start + hit.length

/-- A recogniser: from the character before a place and the text behind it to a
value and what follows the recognised text. -/
abbrev Recogniser (α : Type) := Option Char → List Char → Option (α × List Char)

/-- All hits from left to right. `skip` characters are passed over first,
`offset` is the place reached and `before` the character before it. -/
def hitsFrom {α : Type} (recognise : Recogniser α) (skip offset : Nat) (before : Option Char) :
    List Char → List (Hit α)
  | [] => []
  | c :: text =>
    match skip with
    | skip + 1 => hitsFrom recognise skip (offset + 1) (some c) text
    | 0 =>
      match recognise before (c :: text) with
      | some (value, rest) =>
        let length := (c :: text).length - rest.length
        ⟨offset, length, value⟩ :: hitsFrom recognise (length - 1) (offset + 1) (some c) text
      | none => hitsFrom recognise 0 (offset + 1) (some c) text

/-- All hits of a recogniser in a text, from left to right and without overlap. -/
def hits {α : Type} (recognise : Recogniser α) (text : List Char) : List (Hit α) :=
  hitsFrom recognise 0 0 none text

/-- The first hit at or behind a place. -/
def firstFrom {α : Type} (recognise : Recogniser α) (offset : Nat) (before : Option Char) :
    List Char → Option (Hit α)
  | [] => none
  | c :: text =>
    match recognise before (c :: text) with
    | some (value, rest) => some ⟨offset, (c :: text).length - rest.length, value⟩
    | none => firstFrom recognise (offset + 1) (some c) text

/-- The first hit of a recogniser in a text. -/
def first? {α : Type} (recognise : Recogniser α) (text : List Char) : Option (Hit α) :=
  firstFrom recognise 0 none text

/-- A text holds a word somewhere. -/
def holds (word : String) (text : List Char) : Bool :=
  (first? (fun _ rest => (literal? word rest).map fun behind => ((), behind)) text).isSome

/-- Replaces every hit: `skip` characters are passed over first. -/
def substituteFrom (recognise : Recogniser (List Char)) (skip : Nat) (before : Option Char) :
    List Char → List Char
  | [] => []
  | c :: text =>
    match skip with
    | skip + 1 => substituteFrom recognise skip (some c) text
    | 0 =>
      match recognise before (c :: text) with
      | some (replacement, rest) =>
        replacement ++
          substituteFrom recognise ((c :: text).length - rest.length - 1) (some c) text
      | none => c :: substituteFrom recognise 0 (some c) text

/-- The text with every hit replaced by the value found there. -/
def substitute (recognise : Recogniser (List Char)) (text : List Char) : List Char :=
  substituteFrom recognise 0 none text

/-- Splits off one line break at the very end of a text. -/
def finalBreak (text : List Char) : List Char × List Char :=
  match text.reverse with
  | '\n' :: reversed => (reversed.reverse, ['\n'])
  | _ => (text, [])

/-- What precedes `ending` at the end of a text. -/
def before? (ending : List Char) (text : List Char) : Option (List Char) :=
  (after? ending.reverse text.reverse).map List.reverse

/-- What precedes one of the given endings, each ending tried in turn. -/
def beforeOneOf? (endings : List String) (text : List Char) : Option (List Char) :=
  endings.findSome? fun ending => before? ending.toList text

/-- A text with one of the given words removed from its end; a single line break
behind the word stays in place. -/
def withoutFinal (endings : List String) (text : List Char) : List Char :=
  let (body, tail) := finalBreak text
  match beforeOneOf? endings body with
  | some kept => kept ++ tail
  | none => text

end ScreenAtlas.Text
