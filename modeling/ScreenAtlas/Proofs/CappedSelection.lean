import ScreenAtlas.Command.Execution
import ScreenAtlas.Proofs.FileSelection
import ScreenAtlas.Proofs.JournalAnswers
import ScreenAtlas.Proofs.LenientSettings
import ScreenAtlas.Yaml.Meaning

/-!
# The limit on files holds

Whatever a settings file holds and whatever limit is asked for, the settings that an
analysis works with are sound, and so the selection is what the limit says: the manifest
if it is listed, and behind it the first supported files, as many as the limit allows.
A negative limit is refused before anything is read. A value of the wrong type changes
nothing but the setting under its own key.
-/
namespace ScreenAtlas

open ScreenAtlas.Yaml

/-! ## The settings of a request -/

namespace Command

/-- The pairs of the settings file for a folder, which has to have a path without forbidden
characters. -/
def documentFor (documents : Yaml.Reading) (tree : FileTree) (root : Location) :
    Except Fault (List (Value × Value)) :=
  if root.text.toList.any Location.isForbidden then .error .malformedPath
  else Settings.pairsAt documents tree (Settings.locate tree [] root.text)

/-- The settings with a limit that was asked for. -/
def withLimit (settings : Settings) (limit : Option Int) : Settings :=
  { settings with fileLimit := limit.getD settings.fileLimit }

/-- The settings for a folder are those that its document gives, with the limit that was asked for
in place of the one there. -/
theorem settingsFor_eq (documents : Yaml.Reading) (tree : FileTree) (root : Location)
    (limit : Option Int) :
    settingsFor documents tree root limit =
      documentFor documents tree root >>= fun pairs =>
        Settings.ofPairs pairs >>= fun loaded => .ok (withLimit loaded limit) := by
  unfold settingsFor Settings.load documentFor
  split
  · rfl
  · simp only [Settings.read_eq]
    cases Settings.pairsAt documents tree (Settings.locate tree [] root.text) with
    | error fault => rfl
    | ok pairs =>
      simp only [bind, Except.bind]
      cases Settings.ofPairs pairs with
      | error fault => rfl
      | ok loaded => cases limit <;> rfl

/-- Sound settings stay sound under a limit that is not negative, as nothing but the limit
changes. -/
theorem sound_withLimit {settings : Settings} (sound : settings.Sound) {limit : Option Int}
    (accepted : ∀ n ∈ limit, 0 ≤ n) : (withLimit settings limit).Sound where
  limit := by
    cases limit with
    | none => exact sound.limit
    | some n => exact accepted n rfl
  progress := sound.progress
  endings := sound.endings
  small := sound.small
  plain := sound.plain

/-- A negative limit is refused before anything is read, so the answer is the same whatever is on
the disk. -/
theorem answers_negativeLimit (reading : Script.Reading) (documents : Yaml.Reading)
    (surroundings : Surroundings) (path branch : String) {limit : Int} (negative : limit < 0)
    (store : Option String) (json : Bool) :
    (carryOut reading documents surroundings
      (.analyze path branch (some limit) store json)).Answers (.error .negativeLimit) := by
  unfold carryOut
  simp only [Option.any_some, negative, decide_true, ↓reduceIte]
  exact (Journal.answers_throw _).bind_error _

end Command

/-! ## The selection -/

namespace Analysis

/-- The path is not that of the manifest, and its form in small letters ends with a
point and one of the supported endings. -/
def Counts (settings : Settings) (path : String) : Prop :=
  path ≠ Manifest.path ∧
    ∃ ending ∈ settings.supportedExtensions, '.' :: ending.toList <:+ Text.small path.toList

instance (settings : Settings) (path : String) : Decidable (Counts settings path) :=
  inferInstanceAs (Decidable (_ ∧ _))

/-- The paths that the selection counts are those whose small form ends in a supported ending.
Sound settings have their endings in small letters. -/
theorem isSource_eq {settings : Settings} (sound : settings.Sound) (path : String) :
    isSource settings path = decide (Counts settings path) := by
  have endings : isSupported settings.supportedExtensions path = true ↔
      ∃ ending ∈ settings.supportedExtensions, '.' :: ending.toList <:+ Text.small path.toList := by
    simp only [isSupported, List.any_eq_true, List.isSuffixOf_iff_suffix]
    constructor
    · rintro ⟨ending, member, suffix⟩
      exact ⟨ending, member, sound.small ending member ▸ suffix⟩
    · rintro ⟨ending, member, suffix⟩
      refine ⟨ending, member, ?_⟩
      rw [sound.small ending member]
      exact suffix
  rw [Bool.eq_iff_iff, decide_eq_true_iff, isSource, Bool.and_eq_true, bne_iff_ne, endings, Counts]

/-- For sound settings a selection is the manifest and the first paths that count, since their
limit is not negative. -/
theorem selectPaths_eq_of_sound {settings : Settings} (sound : settings.Sound)
    (listing : List String) :
    selectPaths settings listing =
      (if Manifest.path ∈ listing then [Manifest.path] else []) ++
        (listing.filter fun path => decide (Counts settings path)).take
          settings.fileLimit.toNat := by
  rw [selectPaths_eq sound.limit, manifestOf, funext (isSource_eq sound)]

/-- For every settings file, whatever documents are read as, and every limit that is not negative:
the settings that reach the selection are sound, and the limit is the one asked for, else the
number in the file unless it is negative, else the usual one. Of every listing the manifest is
selected once and first if it is listed, and then exactly the first paths that count up to the
limit, in their order. A wrongly typed value is accepted; it leaves the usual setting under its
key and does not touch the others. A negative limit is refused. -/
theorem selection_is_capped_for_every_document {documents : Yaml.Reading} {tree : FileTree}
    {root : Location} {limit : Option Int} {settings : Settings} (accepted : ∀ n ∈ limit, 0 ≤ n)
    (reached : Command.settingsFor documents tree root limit = .ok settings) :
    settings.Sound ∧
    (∀ listing : List String,
      selectPaths settings listing =
        (if Manifest.path ∈ listing then [Manifest.path] else []) ++
          (listing.filter fun path => decide (Counts settings path)).take
            settings.fileLimit.toNat ∧
      (selectPaths settings listing).count Manifest.path =
        if Manifest.path ∈ listing then 1 else 0) ∧
    (∃ pairs loaded, Command.documentFor documents tree root = .ok pairs ∧
      Settings.ofPairs pairs = .ok loaded ∧ settings = Command.withLimit loaded limit ∧
      settings.fileLimit = limit.getD
        ((((Settings.Key.given .fileLimit pairs).bind Settings.intOf?).filter (0 ≤ ·)).getD 200) ∧
      (∀ key changed, Settings.Spoils key pairs changed →
        ∃ other, Settings.ofPairs changed = .ok other ∧ key.of other = key.usual ∧
          ∀ rest : Settings.Key, rest ≠ key → rest.of other = rest.of loaded) ∧
      ∀ changed, Settings.SpoilsAnalysis pairs changed →
        ∃ other, Settings.ofPairs changed = .ok other ∧ ∀ key : Settings.Key,
          key.of other = if key.isInner then key.usual else key.of loaded) ∧
    ∀ reading surroundings path branch store json, ∀ negative < 0,
      (Command.carryOut reading documents surroundings
        (.analyze path branch (some negative) store json)).Answers (.error .negativeLimit) := by
  rw [Command.settingsFor_eq] at reached
  obtain ⟨pairs, document, reached⟩ := Settings.bind_eq_ok_iff.mp reached
  obtain ⟨loaded, read, reached⟩ := Settings.bind_eq_ok_iff.mp reached
  obtain rfl := Except.ok.inj reached
  have sound := Command.sound_withLimit (Settings.sound_of_ofPairs read) accepted
  refine ⟨sound, ?_, ⟨pairs, loaded, document, read, rfl, ?_, ?_, ?_⟩, ?_⟩
  · intro listing
    exact ⟨selectPaths_eq_of_sound sound listing, count_manifest_selectPaths sound.limit listing⟩
  · exact congrArg limit.getD (Settings.fileLimit_of_ofPairs read)
  · intro key changed spoilt
    exact spoilt.exists_ofPairs read
  · intro changed spoilt
    exact spoilt.exists_ofPairs read
  · intro reading surroundings path branch store json limit negative
    exact Command.answers_negativeLimit reading documents surroundings path branch negative store
      json

/-- A disk with a settings file in which the limit is a truth value. -/
def looseTree : FileTree :=
  .folder [(settingsFile, .file
    (Text.encode "analysis:\n  file_limit: yes\n  supported_extensions: .TSX\n".toList))]

/-- One file beside the manifest is selected when that is the limit asked for, and a
number in place of patterns does not change which files are supported. -/
theorem looseTree_is_capped :
    ∃ settings pairs other,
      Command.settingsFor Value.ofText looseTree [] (some 1) = .ok settings ∧
      selectPaths settings ["a.ts", "b.tsx", "package.json", "C.TSX"] =
        ["package.json", "b.tsx"] ∧
      Command.documentFor Value.ofText looseTree [] = .ok pairs ∧
      Settings.ofPairs (Settings.Key.put .excludePaths (.int 3) pairs) = .ok other ∧
      other.excludePaths = [] ∧ other.supportedExtensions = ["tsx"] := by
  have found : (Command.settingsFor Value.ofText looseTree [] (some 1)).toOption =
      some { fileLimit := 1, supportedExtensions := ["tsx"] } := by
    decide +kernel
  have accepted : ∀ n ∈ some (1 : Int), 0 ≤ n := by decide
  cases reached : Command.settingsFor Value.ofText looseTree [] (some 1) with
  | error fault => simp [reached, Except.toOption] at found
  | ok settings =>
    have shown : settings = { fileLimit := 1, supportedExtensions := ["tsx"] } := by
      simpa [reached, Except.toOption] using found
    obtain ⟨_, selection, ⟨pairs, loaded, document, read, limited, _, single, _⟩, _⟩ :=
      selection_is_capped_for_every_document accepted reached
    have unfit : ¬ Settings.Key.Admits .excludePaths (.int 3) := fun admitted => admitted
    obtain ⟨other, reread, own, others⟩ :=
      single .excludePaths _ (Settings.Key.spoils_put unfit pairs)
    refine ⟨settings, pairs, other, rfl, ?_, document, reread, own, ?_⟩
    · rw [(selection _).1, shown]
      decide +kernel
    · have kept : other.supportedExtensions = loaded.supportedExtensions :=
        others .supportedExtensions (by decide)
      have same : loaded.supportedExtensions = settings.supportedExtensions := by
        rw [limited]
        rfl
      rw [kept, same, shown]

end Analysis

end ScreenAtlas
