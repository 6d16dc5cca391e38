import ScreenAtlas.Fault
import ScreenAtlas.Number.Decimal
import ScreenAtlas.Number.Numeral
import ScreenAtlas.Settings.Basic
import ScreenAtlas.Text.Case
import ScreenAtlas.Yaml.Value

/-!
# Reading settings

Settings are read leniently: a value of the wrong type leaves the usual setting in
place and has no influence on the others. Only a whole number with too many digits is
refused, where its text is asked for.
-/
namespace ScreenAtlas.Settings

open ScreenAtlas.Yaml

/-- The pairs of a map; anything else has none. -/
def pairsOf : Option Value → List (Value × Value)
  | some (.map pairs) => pairs
  | _ => []

/-- The text of a text or a number; none of other values. A whole number with too many
digits is a fault. -/
def textOf : Value → Except Fault (Option String)
  | .text text => .ok (some text)
  | .int n =>
    if Double.tenTo Numeral.digitLimit ≤ n.natAbs then .error .malformedNumber
    else .ok (some (toString n))
  | .double number => .ok (some (number.render Double.plainWords))
  | _ => .ok none

/-- The text of a text, a number or a truth value in a list. -/
def itemText : Value → Except Fault (Option String)
  | .bool value => .ok (some (if value then "True" else "False"))
  | value => textOf value

/-- A whole number, or a text that is one. -/
def intOf? : Value → Option Int
  | .int n => some n
  | .text text => Numeral.readInt? text.toList
  | _ => none

/-- A truth value, or a text that is one. -/
def boolOf? : Value → Option Bool
  | .bool value => some value
  | .text text =>
    let word := String.ofList (Text.small (Text.trim text.toList))
    if ["true", "yes", "1"].contains word then some true
    else if ["false", "no", "0"].contains word then some false
    else none
  | _ => none

/-- A list of texts: a single text, the items of a list that have one, or the
numbers of bytes. -/
def textsOf : Option Value → Except Fault (List String)
  | some (.text text) => .ok [text]
  | some (.list items) => (items.mapM itemText).map fun texts => texts.filterMap id
  | some (.bytes bytes) => .ok (bytes.map fun byte => toString byte.toNat)
  | _ => .ok []

/-- A number that is not negative, or the usual one. -/
def limitOr (usual : Int) (value : Option Value) : Int :=
  match value.bind intOf? with
  | some n => if 0 ≤ n then n else usual
  | none => usual

/-- An ending in small letters and without leading points. -/
def extensionOf (text : String) : String :=
  String.ofList ((Text.small text.toList).dropWhile (· == '.'))

/-- The text of a member of a route. -/
def memberText (pairs : List (Value × Value)) (name : String) : Except Fault (Option String) :=
  match Value.get? pairs name with
  | some value => textOf value
  | none => .ok none

/-- A route, if a value has a path and a name for one. -/
def routeOf (value : Value) : Except Fault (Option FallbackRoute) := do
  let pairs := pairsOf (some value)
  let path ← memberText pairs "path"
  let name ← memberText pairs "name"
  match path, name with
  | some path, some name =>
    return if path.isEmpty || name.isEmpty then none else some { path, name }
  | _, _ => return none

/-- The routes of a list. -/
def routesOf : Option Value → Except Fault (List FallbackRoute)
  | some (.list items) => (items.mapM routeOf).map fun routes => routes.filterMap id
  | _ => .ok []

/-- The settings in the pairs of a document. -/
def ofPairs (pairs : List (Value × Value)) : Except Fault Settings := do
  let usual : Settings := {}
  let analysis := pairsOf (Value.get? pairs "analysis")
  let extensions ← textsOf (Value.get? analysis "supported_extensions")
  let layoutWrappers ← textsOf (Value.get? analysis "layout_wrappers")
  let fallbackRoutes ← routesOf (Value.get? pairs "fallback_routes")
  let excludePaths ← textsOf (Value.get? pairs "exclude_paths")
  return {
    fileLimit := limitOr usual.fileLimit (Value.get? analysis "file_limit")
    progressEvery := limitOr usual.progressEvery (Value.get? analysis "progress_log_every")
    singlePageFallback :=
      ((Value.get? analysis "single_page_fallback").bind boolOf?).getD usual.singlePageFallback
    supportedExtensions :=
      if extensions.isEmpty then usual.supportedExtensions else extensions.map extensionOf
    layoutWrappers
    fallbackRoutes
    excludePaths }

/-- The fault that a document which cannot be read is reported as. -/
def faultOf : ReadError → Fault
  | .malformed => .settings .malformed
  | .noValue => .malformedNumber
  | .tooLarge => .numberTooLarge
  | .noCharacters => .emptyNumber
  | .noTruthValue => .unknownWord
  | .noDate => .malformedDate

/-- The settings of a document, under a reading of documents. A blank document is not read
at all and sets nothing. -/
def ofText (reading : Yaml.Reading) (text : List Char) : Except Fault Settings :=
  if (Text.trim text).isEmpty then .ok {}
  else
    match reading text with
    | .error cause => .error (faultOf cause)
    | .ok .null => .ok {}
    | .ok (.map pairs) => ofPairs pairs
    | .ok _ => .error (.settings .noMapping)

end ScreenAtlas.Settings
