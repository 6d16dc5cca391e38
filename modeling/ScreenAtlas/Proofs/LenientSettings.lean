import ScreenAtlas.Proofs.SmallLetters
import ScreenAtlas.Settings.File

/-!
# Settings are read one by one

Every setting has one key, and its value follows from what a document holds under that
key and from nothing else (`ofPairs_eq_ok_iff`). A value of a type that the key does not
take is the same as no value. A document in which some keys hold such values is
therefore read as before in all the other keys. Whatever is read is sound: no limit is
negative, and the endings are in small letters, without a point in front and at least
one.
-/
namespace ScreenAtlas.Settings

open ScreenAtlas.Yaml

/-! ## Types of values -/

/-- The value is a whole number, or a text that is one. -/
def IsNumber : Value → Prop
  | .int _ => True
  | .text text => (Numeral.readInt? text.toList).isSome
  | _ => False

/-- The value is a truth value, or a text that is one. -/
def IsTruth : Value → Prop
  | .bool _ => True
  | .text text =>
    String.ofList (Text.small (Text.trim text.toList)) ∈ ["true", "yes", "1", "false", "no", "0"]
  | _ => False

/-- The value is a text, or a sequence of values. -/
def HoldsTexts : Value → Prop
  | .text _ | .list _ | .bytes _ => True
  | _ => False

/-- The value is a sequence of values that can be routes. -/
def HoldsRoutes : Value → Prop
  | .list _ => True
  | _ => False

variable {value : Value}

/-- A value that is neither a whole number nor the text of one is not read as a number. Truth
values are among these, since the program excludes them. -/
theorem intOf?_eq_none (unfit : ¬ IsNumber value) : intOf? value = none := by
  cases value with
  | int n => exact absurd trivial unfit
  | text text => simpa [IsNumber, intOf?] using unfit
  | _ => rfl

/-- A value that is neither a truth value nor one of the six words for one is not read as a truth
value. -/
theorem boolOf?_eq_none (unfit : ¬ IsTruth value) : boolOf? value = none := by
  cases value with
  | bool truth => exact absurd trivial unfit
  | text text =>
    simp only [IsTruth, List.mem_cons, List.not_mem_nil, or_false, not_or] at unfit
    simp [boolOf?, unfit]
  | _ => rfl

/-- A value that is neither a text nor a sequence is read as no texts at all, without a fault. -/
theorem textsOf_eq_nil (unfit : ¬ HoldsTexts value) : textsOf (some value) = .ok [] := by
  cases value with
  | text text => exact absurd trivial unfit
  | list items => exact absurd trivial unfit
  | bytes bytes => exact absurd trivial unfit
  | _ => rfl

/-- A value that is no sequence is read as no routes at all, without a fault. -/
theorem routesOf_eq_nil (unfit : ¬ HoldsRoutes value) : routesOf (some value) = .ok [] := by
  cases value with
  | list items => exact absurd trivial unfit
  | _ => rfl

/-! ## Keys -/

/-- What can be set in a document, one key for each setting. -/
inductive Key where
  | fileLimit
  | progressEvery
  | singlePageFallback
  | supportedExtensions
  | layoutWrappers
  | fallbackRoutes
  | excludePaths
  deriving DecidableEq, Repr

namespace Key

/-- The key as it is written in a document. -/
def name : Key → String
  | fileLimit => "file_limit"
  | progressEvery => "progress_log_every"
  | singlePageFallback => "single_page_fallback"
  | supportedExtensions => "supported_extensions"
  | layoutWrappers => "layout_wrappers"
  | fallbackRoutes => "fallback_routes"
  | excludePaths => "exclude_paths"

/-- The key stands in the part of a document that is about the analysis. -/
def isInner : Key → Bool
  | fallbackRoutes | excludePaths => false
  | _ => true

/-- The values that the setting of a key can have. -/
def Setting : Key → Type
  | fileLimit | progressEvery => Int
  | singlePageFallback => Bool
  | supportedExtensions | layoutWrappers | excludePaths => List String
  | fallbackRoutes => List FallbackRoute

/-- The value of the setting of a key among all settings. -/
def of : (key : Key) → Settings → key.Setting
  | fileLimit => Settings.fileLimit
  | progressEvery => Settings.progressEvery
  | singlePageFallback => Settings.singlePageFallback
  | supportedExtensions => Settings.supportedExtensions
  | layoutWrappers => Settings.layoutWrappers
  | fallbackRoutes => Settings.fallbackRoutes
  | excludePaths => Settings.excludePaths

/-- The value that a setting has when nothing is set. -/
def usual (key : Key) : key.Setting := key.of {}

/-- What a document holds under a key, in the part where the key belongs. -/
def given (key : Key) (pairs : List (Value × Value)) : Option Value :=
  if key.isInner then Value.get? (pairsOf (Value.get? pairs "analysis")) key.name
  else Value.get? pairs key.name

/-- The value is of a type that the key takes. -/
def Admits : Key → Value → Prop
  | fileLimit | progressEvery => IsNumber
  | singlePageFallback => IsTruth
  | supportedExtensions | layoutWrappers | excludePaths => HoldsTexts
  | fallbackRoutes => HoldsRoutes

/-- The value of a setting, read from what stands under its key. -/
def readFrom : (key : Key) → Option Value → Except Fault key.Setting
  | fileLimit, value => .ok (limitOr (usual fileLimit) value)
  | progressEvery, value => .ok (limitOr (usual progressEvery) value)
  | singlePageFallback, value => .ok ((value.bind boolOf?).getD (usual singlePageFallback))
  | supportedExtensions, value =>
    (textsOf value).map fun texts =>
      if texts.isEmpty then usual supportedExtensions else texts.map extensionOf
  | layoutWrappers, value | excludePaths, value => textsOf value
  | fallbackRoutes, value => routesOf value

end Key

/-- The settings with given values, one for each key. -/
def build (value : (key : Key) → key.Setting) : Settings where
  fileLimit := value .fileLimit
  progressEvery := value .progressEvery
  singlePageFallback := value .singlePageFallback
  supportedExtensions := value .supportedExtensions
  layoutWrappers := value .layoutWrappers
  fallbackRoutes := value .fallbackRoutes
  excludePaths := value .excludePaths

/-- Settings that are built from values have these values under their keys. -/
@[simp] theorem of_build (value : (key : Key) → key.Setting) (key : Key) :
    key.of (build value) = value key := by
  cases key <;> rfl

/-- Settings that agree in every key are the same, since there is nothing else in them. -/
theorem eq_of_keys {left right : Settings} (same : ∀ key : Key, key.of left = key.of right) :
    left = right := by
  cases left
  cases right
  rw [Settings.mk.injEq]
  exact ⟨same .fileLimit, same .progressEvery, same .singlePageFallback,
    same .supportedExtensions, same .layoutWrappers, same .fallbackRoutes, same .excludePaths⟩

/-! ## Reading -/

/-- A sequence of two readings succeeds exactly if the first gives a value with which the second
succeeds. -/
theorem bind_eq_ok_iff {α β : Type} {first : Except Fault α} {next : α → Except Fault β}
    {result : β} :
    (first >>= next) = .ok result ↔ ∃ value, first = .ok value ∧ next value = .ok result := by
  cases first <;> simp [bind, Except.bind]

/-- What is read as a setting is read from what stands under its own key, and so no other part of
the document has a say in it. -/
theorem readFrom_of_ofPairs {pairs : List (Value × Value)} {settings : Settings}
    (read : ofPairs pairs = .ok settings) (key : Key) :
    key.readFrom (key.given pairs) = .ok (key.of settings) := by
  unfold ofPairs at read
  obtain ⟨extensions, extensionsRead, read⟩ := bind_eq_ok_iff.mp read
  obtain ⟨wrappers, wrappersRead, read⟩ := bind_eq_ok_iff.mp read
  obtain ⟨routes, routesRead, read⟩ := bind_eq_ok_iff.mp read
  obtain ⟨paths, pathsRead, read⟩ := bind_eq_ok_iff.mp read
  obtain rfl := Except.ok.inj read
  cases key with
  | fileLimit => rfl
  | progressEvery => rfl
  | singlePageFallback => rfl
  | supportedExtensions => exact congrArg (Except.map _) extensionsRead
  | layoutWrappers => exact wrappersRead
  | fallbackRoutes => exact routesRead
  | excludePaths => exact pathsRead

/-- A document is read as settings exactly if each of them is read from what stands
under its own key. -/
theorem ofPairs_eq_ok_iff {pairs : List (Value × Value)} {settings : Settings} :
    ofPairs pairs = .ok settings ↔
      ∀ key : Key, key.readFrom (key.given pairs) = .ok (key.of settings) := by
  constructor
  · exact readFrom_of_ofPairs
  · intro each
    -- Nothing but the four readings can fail, and what comes out is fixed key by key.
    obtain ⟨extensions, extensionsRead, _⟩ := bind_eq_ok_iff.mp (each .supportedExtensions)
    have accepted : ∃ other, ofPairs pairs = .ok other :=
      ⟨_, bind_eq_ok_iff.mpr ⟨extensions, extensionsRead,
        bind_eq_ok_iff.mpr ⟨_, each .layoutWrappers,
          bind_eq_ok_iff.mpr ⟨_, each .fallbackRoutes,
            bind_eq_ok_iff.mpr ⟨_, each .excludePaths, rfl⟩⟩⟩⟩⟩
    obtain ⟨other, read⟩ := accepted
    have same : other = settings := eq_of_keys fun key =>
      Except.ok.inj ((readFrom_of_ofPairs read key).symm.trans (each key))
    rw [read, same]

/-- Without a value of a type that the key takes, a setting is the usual one. This covers a key
that is missing and one that holds something else. -/
theorem Key.readFrom_of_not_admits {key : Key} {held : Option Value}
    (unfit : ∀ value ∈ held, ¬ key.Admits value) : key.readFrom held = .ok key.usual := by
  cases held with
  | none => cases key <;> rfl
  | some value =>
    have refused := unfit value rfl
    cases key with
    | fileLimit => simp [readFrom, limitOr, intOf?_eq_none refused]
    | progressEvery => simp [readFrom, limitOr, intOf?_eq_none refused]
    | singlePageFallback =>
      simp only [readFrom, Option.bind_some, boolOf?_eq_none refused]
      rfl
    | supportedExtensions =>
      simp only [readFrom, textsOf_eq_nil refused]
      rfl
    | layoutWrappers => exact textsOf_eq_nil refused
    | fallbackRoutes => exact routesOf_eq_nil refused
    | excludePaths => exact textsOf_eq_nil refused

/-- A document that holds the same as another one under some keys, and under the others
nothing that they take, is read like it in those keys and as usual in the others. -/
theorem exists_ofPairs_of_not_admits {pairs changed : List (Value × Value)} {settings : Settings}
    (read : ofPairs pairs = .ok settings) (kept : Key → Bool)
    (same : ∀ key, kept key = true → key.given changed = key.given pairs)
    (unfit : ∀ key, kept key = false → ∀ value ∈ key.given changed, ¬ key.Admits value) :
    ∃ other, ofPairs changed = .ok other ∧ ∀ key : Key,
      key.of other = if kept key then key.of settings else key.usual := by
  refine ⟨build fun key => if kept key then key.of settings else key.usual, ?_, of_build _⟩
  rw [ofPairs_eq_ok_iff]
  intro key
  rw [of_build]
  cases keeps : kept key with
  | true =>
    rw [same key keeps]
    exact ofPairs_eq_ok_iff.mp read key
  | false => exact Key.readFrom_of_not_admits (unfit key keeps)

/-- A document differs from another one at most in one key, under which it holds
nothing of a type that the key takes. -/
structure Spoils (key : Key) (pairs changed : List (Value × Value)) : Prop where
  others : ∀ other : Key, other ≠ key → other.given changed = other.given pairs
  unfit : ∀ value ∈ key.given changed, ¬ key.Admits value

/-- A document differs from another one at most in the part about the analysis, which
is no map. -/
structure SpoilsAnalysis (pairs changed : List (Value × Value)) : Prop where
  others : ∀ key : Key, key.isInner = false → key.given changed = key.given pairs
  unfit : ∀ inner, Value.get? changed "analysis" ≠ some (.map inner)

/-- A pair at the end of a map counts before all others of its name, as later pairs replace
earlier ones. -/
theorem get?_append (pairs : List (Value × Value)) (written name : String) (value : Value) :
    Value.get? (pairs ++ [(.text written, value)]) name =
      if written = name then some value else Value.get? pairs name := by
  by_cases same : written = name
  · simp [Value.get?, same]
  · simp [Value.get?, same]

namespace Key

/-- Different keys are written differently, so a pair belongs to one key at most. -/
theorem name_injective {left right : Key} (same : left.name = right.name) : left = right := by
  revert same
  cases left <;> cases right <;> decide

/-- No key is written like the part about the analysis, so that setting a key does not hide this
part. -/
theorem name_ne_analysis (key : Key) : "analysis" ≠ key.name := by
  cases key <;> decide

/-- A document with a value put under a key. -/
def put (key : Key) (value : Value) (pairs : List (Value × Value)) : List (Value × Value) :=
  if key.isInner then
    let inner := pairsOf (Value.get? pairs "analysis")
    pairs ++ [(.text "analysis", .map (inner ++ [(.text key.name, value)]))]
  else pairs ++ [(.text key.name, value)]

/-- After a value has been put under a key, the document holds it there, and it holds what it held
before under all other keys. -/
theorem given_put (key other : Key) (value : Value) (pairs : List (Value × Value)) :
    other.given (key.put value pairs) = if key = other then some value else other.given pairs := by
  have names : key.name = other.name ↔ key = other := ⟨name_injective, congrArg name⟩
  have distinct (apart : key.isInner ≠ other.isInner) : key ≠ other :=
    fun same => apart (congrArg isInner same)
  unfold given put
  cases within : key.isInner <;> cases there : other.isInner
  · simp [get?_append, names]
  · simp [get?_append, Ne.symm (name_ne_analysis key), distinct (by simp [within, there])]
  · simp [get?_append, name_ne_analysis other, distinct (by simp [within, there])]
  · simp [get?_append, pairsOf, names]

/-- A value of the wrong type that is put under a key spoils the document in this key only,
whichever part the key belongs to. -/
theorem spoils_put {key : Key} {value : Value} (unfit : ¬ key.Admits value)
    (pairs : List (Value × Value)) : Spoils key pairs (key.put value pairs) where
  others other distinct := by rw [given_put, if_neg (Ne.symm distinct)]
  unfit held member := by
    rw [given_put, if_pos rfl] at member
    exact Option.some.inj member ▸ unfit

end Key

section

variable {key : Key} {pairs changed : List (Value × Value)} {settings : Settings}

/-- A value of the wrong type is accepted and leaves all other settings as they are; the setting
of its key is the usual one. -/
theorem Spoils.exists_ofPairs (spoils : Spoils key pairs changed)
    (read : ofPairs pairs = .ok settings) :
    ∃ other, ofPairs changed = .ok other ∧ key.of other = key.usual ∧
      ∀ rest : Key, rest ≠ key → rest.of other = rest.of settings := by
  obtain ⟨other, accepted, each⟩ := exists_ofPairs_of_not_admits read (· != key)
    (fun rest kept => spoils.others rest (bne_iff_ne.mp kept))
    (fun rest spoilt => by
      obtain rfl : rest = key := by simpa using spoilt
      exact spoils.unfit)
  refine ⟨other, accepted, ?_, ?_⟩
  · simpa using each key
  · intro rest distinct
    simpa [distinct] using each rest

/-- Without a map about the analysis, its settings are the usual ones and the others
stay as they are. -/
theorem SpoilsAnalysis.exists_ofPairs (spoils : SpoilsAnalysis pairs changed)
    (read : ofPairs pairs = .ok settings) :
    ∃ other, ofPairs changed = .ok other ∧ ∀ key : Key,
      key.of other = if key.isInner then key.usual else key.of settings := by
  have inner : pairsOf (Value.get? changed "analysis") = [] := by
    unfold pairsOf
    split
    · next pairs found => exact absurd found (spoils.unfit pairs)
    · rfl
  obtain ⟨other, accepted, each⟩ := exists_ofPairs_of_not_admits read (fun key => !key.isInner)
    (fun key kept => spoils.others key (by simpa using kept))
    (fun key spoilt value held => by
      have within : key.isInner = true := by simpa using spoilt
      have absent : key.given changed = none := by
        rw [Key.given, if_pos within, inner]
        rfl
      simp [absent] at held)
  refine ⟨other, accepted, ?_⟩
  intro key
  rw [each key]
  cases key.isInner <;> rfl

end

/-! ## Sound settings -/

/-- What holds of all settings that are read, whatever the document. -/
structure Sound (settings : Settings) : Prop where
  limit : 0 ≤ settings.fileLimit
  progress : 0 ≤ settings.progressEvery
  endings : settings.supportedExtensions ≠ []
  small : ∀ ending ∈ settings.supportedExtensions, Text.small ending.toList = ending.toList
  plain : ∀ ending ∈ settings.supportedExtensions, ending.toList.head? ≠ some '.'

/-- The number that is read as a limit is one that is given and not negative, or the
usual one. -/
theorem limitOr_eq (usual : Int) (held : Option Value) :
    limitOr usual held = ((held.bind intOf?).filter (0 ≤ ·)).getD usual := by
  unfold limitOr
  cases held.bind intOf? with
  | none => rfl
  | some n => by_cases positive : 0 ≤ n <;> simp [Option.filter, positive]

/-- A limit that is read is not negative, if the usual one is not: negative numbers are passed
over. -/
theorem limitOr_nonneg {usual : Int} (positive : 0 ≤ usual) (held : Option Value) :
    0 ≤ limitOr usual held := by
  rw [limitOr_eq]
  cases found : (held.bind intOf?).filter (0 ≤ ·) with
  | none => exact positive
  | some n => simpa using (Option.filter_eq_some_iff.mp found).2

/-- The limit on files is the number under its key unless this is negative, and 200 if there is
none. -/
theorem fileLimit_of_ofPairs {pairs : List (Value × Value)} {settings : Settings}
    (read : ofPairs pairs = .ok settings) :
    settings.fileLimit =
      (((Key.given .fileLimit pairs).bind intOf?).filter (0 ≤ ·)).getD 200 := by
  have own : limitOr 200 (Key.given .fileLimit pairs) = settings.fileLimit :=
    Except.ok.inj (readFrom_of_ofPairs read .fileLimit)
  rw [← own, limitOr_eq]

/-- An ending that is read is in small letters, since it is written in them before points are
taken away. -/
theorem small_extensionOf (text : String) :
    Text.small (extensionOf text).toList = (extensionOf text).toList := by
  rw [extensionOf, String.toList_ofList]
  exact Text.small_eq_self_of_subset (List.dropWhile_subset _)

/-- An ending that is read does not begin with a point, however many points stood in front. -/
theorem head?_extensionOf (text : String) : (extensionOf text).toList.head? ≠ some '.' := by
  rw [extensionOf, String.toList_ofList]
  intro point
  have kept := List.head?_dropWhile_not (· == '.') (Text.small text.toList)
  rw [point] at kept
  exact absurd kept (by decide)

/-- Settings that are read from any document are sound: each setting is sound whatever stands
under its key. -/
theorem sound_of_ofPairs {pairs : List (Value × Value)} {settings : Settings}
    (read : ofPairs pairs = .ok settings) : settings.Sound := by
  have each := readFrom_of_ofPairs read
  have limit : limitOr 200 _ = settings.fileLimit := Except.ok.inj (each .fileLimit)
  have progress : limitOr 25 _ = settings.progressEvery := Except.ok.inj (each .progressEvery)
  obtain ⟨texts, _, kept⟩ := bind_eq_ok_iff.mp (each .supportedExtensions)
  have endings : (if texts.isEmpty then ["ts", "tsx", "js", "jsx", "vue"]
      else texts.map extensionOf) = settings.supportedExtensions := Except.ok.inj kept
  have ending (text : String) (member : text ∈ settings.supportedExtensions) :
      Text.small text.toList = text.toList ∧ text.toList.head? ≠ some '.' := by
    rw [← endings] at member
    split at member
    · revert text
      decide +kernel
    · obtain ⟨source, _, rfl⟩ := List.mem_map.mp member
      exact ⟨small_extensionOf source, head?_extensionOf source⟩
  constructor
  · exact limit ▸ limitOr_nonneg (by decide) _
  · exact progress ▸ limitOr_nonneg (by decide) _
  · rw [← endings]
    split
    · decide
    · next nonempty => simpa using nonempty
  · exact fun text member => (ending text member).1
  · exact fun text member => (ending text member).2

/-! ## Documents -/

/-- The pairs of a document, under a reading of documents. A blank document and one that
holds nothing have none. -/
def pairsIn (reading : Reading) (text : List Char) : Except Fault (List (Value × Value)) :=
  if (Text.trim text).isEmpty then .ok []
  else
    match reading text with
    | .error cause => .error (faultOf cause)
    | .ok .null => .ok []
    | .ok (.map pairs) => .ok pairs
    | .ok _ => .error (.settings .noMapping)

/-- The pairs of a settings file. A missing file has none. -/
def pairsAt (reading : Reading) (tree : FileTree) (location : Location) :
    Except Fault (List (Value × Value)) :=
  if tree.holds location then
    match tree.readText location with
    | .ok text => pairsIn reading text.toList
    | .error _ => .error (.settings .unreadable)
  else .ok []

/-- The settings of a document are those of its pairs, under any reading of documents. The faults
of the document come before those of its values. -/
theorem ofText_eq (reading : Reading) (text : List Char) :
    ofText reading text = pairsIn reading text >>= ofPairs := by
  unfold ofText pairsIn
  split
  · rfl
  · cases reading text with
    | error cause => rfl
    | ok value => cases value <;> rfl

/-- The settings of a file are those of its pairs, under any reading of documents; a missing file
is read as a document without pairs. -/
theorem read_eq (reading : Reading) (tree : FileTree) (location : Location) :
    read reading tree location = pairsAt reading tree location >>= ofPairs := by
  unfold read pairsAt
  split
  · cases tree.readText location with
    | ok text => exact ofText_eq reading text.toList
    | error obstacle => rfl
  · rfl

end ScreenAtlas.Settings
