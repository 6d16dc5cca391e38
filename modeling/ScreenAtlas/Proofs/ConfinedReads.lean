import Mathlib.Logic.Relation
import ScreenAtlas.Proofs.EncodedText
import ScreenAtlas.Proofs.NamedEntries
import ScreenAtlas.Repository.Provider

/-!
# Reading stays below the repository

A path is brought into its plainest form by simplifying its segments as long as
possible: an empty segment and one that stays are left out, a step up is left out
together with the name before it, and at the top of the disk it is left out by itself.
The order of the simplifications does not matter. Each of them leaves the place as it is
that the segments lead to, and segments that cannot be simplified are a place.

A file is read exactly when the plainest form of its path, joined to the folder of the
repository, lies below this folder. Nothing else on the disk makes a difference. This is so
for paths that can be written as bytes. A path with any other half of a pair fails before it
is known where it leads, so that one which leads out of the folder is not reported as such.
-/
namespace ScreenAtlas

/-- The place is that of something in a folder, at any depth. Both are given by the names on
the way from the top. -/
def Location.LiesBelow {ν : Type} (folder location : List ν) : Prop :=
  ∃ below, below ≠ [] ∧ location = folder ++ below

/-- Whether a place lies below a folder is decided by the names: those of the folder come
first, and at least one more follows. -/
theorem Location.isBelow_iff {ν : Type} [BEq ν] [LawfulBEq ν] {folder location : List ν} :
    isBelow folder location = true ↔ LiesBelow folder location := by
  rw [isBelow, Bool.and_eq_true, List.isPrefixOf_iff_prefix, decide_eq_true_iff]
  constructor
  · rintro ⟨⟨below, rfl⟩, longer⟩
    refine ⟨below, ?_, rfl⟩
    rintro rfl
    simp at longer
  · rintro ⟨below, some, rfl⟩
    refine ⟨List.prefix_append folder below, ?_⟩
    rw [List.length_append]
    exact Nat.lt_add_of_pos_right (List.length_pos_of_ne_nil some)

namespace Path

open Text (Point)

/-! ## The plainest form -/

/-- The segments of a path, also the empty ones. -/
def segments (path : Path) : List Path := path.splitOn slash

/-- A segment that leads on to an entry of a folder. -/
def LeadsOn (segment : Path) : Prop := segment ≠ [] ∧ segment ≠ stay ∧ segment ≠ stepUp

/-- A simplification of segments that start at the top of the disk. -/
inductive Simplifies : List Path → List Path → Prop
  | empty (front back : List Path) : Simplifies (front ++ [] :: back) (front ++ back)
  | stay (front back : List Path) : Simplifies (front ++ stay :: back) (front ++ back)
  | back (front : List Path) {name : Path} (leadsOn : LeadsOn name) (rest : List Path) :
      Simplifies (front ++ name :: stepUp :: rest) (front ++ rest)
  | top (rest : List Path) : Simplifies (stepUp :: rest) rest

/-- The plainest form of a path: its segments are simplified to names that cannot be
simplified any more. -/
structure Plainest (path : Path) (location : List Path) : Prop where
  reached : Relation.ReflTransGen Simplifies (segments path) location
  final : ∀ simpler, ¬ Simplifies location simpler

/-- The segment is a step, so neither empty nor the one that stays. -/
def isStep (segment : Path) : Bool := segment != [] && segment != stay

/-- Where segments lead from a place, when their steps are taken one after the other. -/
def destination (here segments : List Path) : List Path :=
  (segments.filter isStep).foldl (Location.walkBy stepUp) here

variable {segment : Path} {here front back simpler rest : List Path}

/-- Segments that stand behind others lead on from where those before them lead. -/
theorem destination_append :
    destination here (front ++ back) = destination (destination here front) back := by
  simp [destination]

/-- A segment that is no step changes nothing about where the segments lead, as only steps are
taken. -/
theorem destination_idle (idle : isStep segment = false) :
    destination here (segment :: rest) = destination here rest := by
  simp [destination, idle]

/-- A step up leads to the folder above, and at the top it stays there. -/
theorem destination_stepUp :
    destination here (stepUp :: rest) = destination here.dropLast rest := by
  have step : isStep stepUp = true := by decide
  simp [destination, step, Location.walkBy]

/-- A name leads to the entry of that name in the folder that was reached. -/
theorem destination_leadsOn (leadsOn : LeadsOn segment) :
    destination here (segment :: rest) = destination (here ++ [segment]) rest := by
  have step : isStep segment = true := by simp [isStep, leadsOn.1, leadsOn.2.1]
  simp [destination, step, Location.walkBy, leadsOn.2.2]

/-- A simplification does not change where segments lead from the top: a step up takes back
exactly the name before it. -/
theorem Simplifies.destination_eq (simplified : Simplifies front simpler) :
    destination [] front = destination [] simpler := by
  cases simplified with
  | empty front back => rw [destination_append, destination_append, destination_idle (by decide)]
  | stay front back => rw [destination_append, destination_append, destination_idle (by decide)]
  | back front leadsOn rest =>
    rw [destination_append, destination_append, destination_leadsOn leadsOn, destination_stepUp,
      List.dropLast_concat]
  | top rest => exact destination_stepUp

/-- Any number of simplifications, one after the other, does not change where segments lead. -/
theorem destination_eq_of_reached (reached : Relation.ReflTransGen Simplifies front simpler) :
    destination [] front = destination [] simpler := by
  induction reached with
  | refl => rfl
  | tail _ simplified inductionHypothesis =>
    exact inductionHypothesis.trans simplified.destination_eq

/-- Segments of which each leads on are the names on the way to where they lead. -/
theorem destination_of_leadsOn (leadsOn : ∀ segment ∈ back, LeadsOn segment) :
    destination here back = here ++ back := by
  induction back generalizing here with
  | nil => exact (List.append_nil here).symm
  | cons segment rest inductionHypothesis =>
    obtain ⟨first, others⟩ := List.forall_mem_cons.mp leadsOn
    rw [destination_leadsOn first, inductionHypothesis others, List.append_assoc]
    rfl

/-- In front of any segments that cannot be simplified, each leads on: a first step up would
be left out together with the name before it. -/
theorem leadsOn_of_final (final : ∀ simpler, ¬ Simplifies (front ++ back) simpler) :
    ∀ segment ∈ front, LeadsOn segment := by
  induction front using List.reverseRecOn generalizing back with
  | nil => simp
  | append_singleton front segment inductionHypothesis =>
    rw [List.append_assoc, List.singleton_append] at final
    have before := inductionHypothesis final
    refine List.forall_mem_append.mpr ⟨before, List.forall_mem_singleton.mpr ⟨?_, ?_, ?_⟩⟩
    · rintro rfl
      exact final _ (.empty front back)
    · rintro rfl
      exact final _ (.stay front back)
    · rintro rfl
      rcases List.eq_nil_or_concat front with rfl | ⟨outer, name, rfl⟩
      · exact final _ (.top back)
      · rw [List.concat_eq_append, List.append_assoc] at final
        exact final _ (.back outer (before name (by simp)) back)

/-- Segments cannot be simplified exactly when each of them leads on, because every simplification
needs a segment that does not. -/
theorem forall_not_simplifies_iff :
    (∀ simpler, ¬ Simplifies back simpler) ↔ ∀ segment ∈ back, LeadsOn segment := by
  constructor
  · intro final
    rw [← List.append_nil back] at final
    exact leadsOn_of_final final
  · rintro leadsOn simpler simplified
    cases simplified with
    | empty front rest => exact (leadsOn [] (by simp)).1 rfl
    | stay front rest => exact (leadsOn stay (by simp)).2.1 rfl
    | back front _ rest => exact (leadsOn stepUp (by simp)).2.2 rfl
    | top rest => exact (leadsOn stepUp (by simp)).2.2 rfl

/-- Segments behind names can be simplified to where they lead, and that is made of names. -/
theorem reached_destination (here back : List Path) (names : ∀ name ∈ here, LeadsOn name) :
    Relation.ReflTransGen Simplifies (here ++ back) (destination here back) ∧
      ∀ name ∈ destination here back, LeadsOn name := by
  induction back generalizing here with
  | nil => simpa [destination] using ⟨Relation.ReflTransGen.refl, names⟩
  | cons segment rest inductionHypothesis =>
    by_cases empty : segment = []
    · subst empty
      rw [destination_idle (by decide)]
      obtain ⟨reached, led⟩ := inductionHypothesis _ names
      exact ⟨reached.head (.empty here rest), led⟩
    by_cases stays : segment = stay
    · subst stays
      rw [destination_idle (by decide)]
      obtain ⟨reached, led⟩ := inductionHypothesis _ names
      exact ⟨reached.head (.stay here rest), led⟩
    by_cases up : segment = stepUp
    · subst up
      rw [destination_stepUp]
      rcases List.eq_nil_or_concat here with rfl | ⟨outer, name, rfl⟩
      · obtain ⟨reached, led⟩ := inductionHypothesis _ names
        exact ⟨reached.head (.top rest), led⟩
      · rw [List.concat_eq_append] at names ⊢
        obtain ⟨outside, inside⟩ := List.forall_mem_append.mp names
        obtain ⟨reached, led⟩ := inductionHypothesis _ outside
        rw [List.dropLast_concat, List.append_assoc]
        exact ⟨reached.head (.back outer (inside name (by simp)) rest), led⟩
    · have leadsOn : LeadsOn segment := ⟨empty, stays, up⟩
      rw [destination_leadsOn leadsOn, List.append_cons]
      exact inductionHypothesis _ (List.forall_mem_append.mpr ⟨names, by simpa using leadsOn⟩)

/-- Every path has exactly one plainest form, and that is where its segments lead from the
top: simplifications keep this place, and the names on the way to it are their own. -/
theorem plainest_iff {path : Path} {location : List Path} :
    Plainest path location ↔ location = destination [] (segments path) := by
  constructor
  · rintro ⟨reached, final⟩
    rw [destination_eq_of_reached reached,
      destination_of_leadsOn (forall_not_simplifies_iff.mp final), List.nil_append]
  · rintro rfl
    obtain ⟨reached, led⟩ := reached_destination [] (segments path) (List.forall_mem_nil _)
    exact ⟨reached, forall_not_simplifies_iff.mpr led⟩

/-! ## Paths below a folder -/

/-- The steps of a path are those of its segments that are not empty and do not stay. -/
theorem filter_segments (path : Path) : (segments path).filter isStep = steps path := by
  rw [segments, steps, Location.stepsBy, Text.fields_eq_filter, List.splitOn_eq_splitOnP,
    List.filter_filter]
  apply List.filter_congr
  intro name _
  cases name <;> simp [isStep, stay]

/-- The segments of two paths with a slash between them are those of both, one after the other. -/
theorem segments_slash (left right : Path) :
    segments (left ++ slash :: right) = segments left ++ segments right :=
  List.splitOn_append_cons_self left right

/-- A path as it is written below a folder; one that starts at the top is written as it is. -/
def joined (folder : Location) (path : Path) : Path :=
  if isAbsolute path then path else ofString folder.text ++ slash :: path

/-- Different texts are different paths, since each letter is a code point of its own. -/
theorem ofString_injective : Function.Injective ofString := by
  intro left right same
  exact String.toList_injective (List.map_injective_iff.mpr (fun _ _ => Point.char.inj) same)

/-- The name of an entry leads on when it is taken as a part of a path. -/
theorem leadsOn_ofString {name : String} (named : Location.IsName name) :
    LeadsOn (ofString name) :=
  ⟨ofString_injective.ne named.filled, ofString_injective.ne named.ahead.1,
    ofString_injective.ne named.ahead.2⟩

/-- A location other than the top is written as the names on the way to it, each behind a
slash. -/
theorem ofString_text {folder : Location} (inside : folder ≠ []) :
    ofString folder.text = slash :: [slash].intercalate (names folder) := by
  have mark : "/".toList = ['/'] := rfl
  have letters : folder.text.toList = '/' :: ['/'].intercalate (folder.map String.toList) := by
    rw [Location.text, String.toList_append, String.toList_intercalate, mark]
    rfl
  rw [Text.cons_intercalate slash (by simpa [names] using inside), ofString, letters,
    Text.cons_intercalate '/' (by simpa using inside)]
  simp [names, ofString, slash, List.map_flatMap, List.flatMap_map]

/-- A location whose names are those of entries leads to itself when it is written out. -/
theorem destination_text {folder : Location} (named : ∀ name ∈ folder, Location.IsName name) :
    destination [] (segments (ofString folder.text)) = names folder := by
  by_cases top : folder = []
  · subst top
    decide
  have free : ∀ name ∈ names folder, slash ∉ name := by
    intro name member
    obtain ⟨text, listed, rfl⟩ := List.mem_map.mp member
    simpa [ofString, slash] using (named text listed).single
  have leadsOn : ∀ name ∈ names folder, LeadsOn name := by
    intro name member
    obtain ⟨text, listed, rfl⟩ := List.mem_map.mp member
    exact leadsOn_ofString (named text listed)
  have split : segments ([slash].intercalate (names folder)) = names folder :=
    List.splitOn_intercalate slash free (by simpa [names] using top)
  have behind := segments_slash [] ([slash].intercalate (names folder))
  have front : segments [] = [[]] := by decide
  rw [ofString_text top, ← List.nil_append (slash :: _), behind, split, front,
    List.singleton_append, destination_idle (by decide), destination_of_leadsOn leadsOn,
    List.nil_append]

/-- The plainest form of a joined path is the place that the path means at the folder. -/
theorem plainest_joined_iff {folder : Location} (named : ∀ name ∈ folder, Location.IsName name)
    (path : Path) {location : List Path} :
    Plainest (joined folder path) location ↔ location = resolve folder path := by
  have led : destination [] (segments (joined folder path)) = resolve folder path := by
    unfold joined resolve
    split
    · rw [destination, filter_segments]
    · rw [segments_slash, destination_append, destination_text named, destination, filter_segments]
  rw [plainest_iff, led]

/-! ## Paths that can be written as bytes -/

/-- All code points of the path can be written as bytes. -/
def IsEncodable (path : Path) : Prop := ∀ point ∈ path, point.bytes?.isSome

instance (path : Path) : Decidable path.IsEncodable :=
  inferInstanceAs (Decidable (∀ point ∈ path, point.bytes?.isSome))

/-- The name of an entry means this entry: its letters are written as bytes and read back. -/
theorem onDisk_ofString (name : String) : onDisk (ofString name) = name := by
  have written : bytes? (ofString name) = some (Text.encode name.toList) := by
    have each : Point.bytes? ∘ Point.char = fun c => pure (String.utf8EncodeChar c) := rfl
    rw [bytes?, ofString, List.mapM_map, each, List.mapM_pure]
    rfl
  simp [onDisk, written, Text.decode?_encode]

/-- The names on the way to a location mean the entries on this way. -/
theorem map_onDisk_names (location : Location) : (names location).map onDisk = location := by
  rw [names, List.map_map]
  exact List.map_id'' onDisk_ofString location

/-- The steps of a path hold no other code points than the path, since they are cut out of it. -/
theorem mem_of_mem_steps {path step : Path} {point : Point} (listed : step ∈ steps path)
    (within : point ∈ step) : point ∈ path :=
  (Text.exists_mem_fields_iff.mp ⟨step, List.mem_of_mem_filter listed, within⟩).1

/-- A code point of a path lies in one of its steps, unless it is one of the two that only shape
the steps: no step is left out that holds any other. -/
theorem exists_mem_steps {path : Path} {point : Point} (member : point ∈ path)
    (apart : point ≠ slash) (other : point ≠ .char '.') : ∃ step ∈ steps path, point ∈ step := by
  obtain ⟨step, given, within⟩ := (@Text.exists_mem_fields_iff Point (· == slash) path point).mpr
    ⟨member, beq_eq_false_iff_ne.mpr apart⟩
  have leads : (step != [.char '.']) = true := by
    rw [bne_iff_ne]
    rintro rfl
    exact other (List.mem_singleton.mp within)
  exact ⟨step, List.mem_filter.mpr ⟨given, leads⟩, within⟩

end Path

/-- A text is read exactly from a file whose bytes decode to it, up to the way in which its lines
are broken. -/
theorem FileTree.readText_eq_ok_iff {tree : FileTree} {location : Location} {text : String} :
    tree.readText location = .ok text ↔ ∃ bytes letters,
      tree.lookup location = .ok (.file bytes) ∧ Text.decode? bytes = some letters ∧
        text = String.ofList (Text.unifyBreaks letters) := by
  unfold readText readBytes
  cases tree.lookup location with
  | error obstacle => simp
  | ok found =>
    cases found with
    | folder entries => simp
    | file bytes =>
      cases decoded : Text.decode? bytes with
      | none => simp [decoded]
      | some letters => simp [decoded, eq_comm]

namespace Repository.Checkout

open Text (Point)

variable {checkout : Checkout} {path : Path}

/-- A step without the forbidden character is refused exactly for a half that cannot be
written as bytes, and then for nothing else. -/
theorem stepFault?_eq {step : Path} (clean : Point.char '\x00' ∉ step) :
    stepFault? step =
      if step.any fun point => point.bytes?.isNone then some .unencodablePath else none := by
  have allowed : (step.any fun point => Location.isForbidden point.shown) = false := by
    rw [List.any_eq_false]
    intro point member forbidden
    cases point with
    | char c => exact clean (beq_iff_eq.mp forbidden ▸ member)
    | half index =>
      have harmless : Location.isForbidden Text.replacement = false := by decide
      exact absurd forbidden (Bool.eq_false_iff.mp harmless)
  simp [stepFault?, allowed]

/-- No step of a path is refused when all its code points can be written as bytes and none is
the forbidden character, because the steps hold no other code points than the path. -/
theorem findSome?_stepFault?_eq_none (clean : Point.char '\x00' ∉ path)
    (encodable : path.IsEncodable) : path.steps.findSome? stepFault? = none := by
  rw [List.findSome?_eq_none_iff]
  intro step listed
  rw [stepFault?_eq fun member => clean (Path.mem_of_mem_steps listed member), if_neg]
  rw [List.any_eq_true]
  rintro ⟨point, member, lost⟩
  have kept := encodable point (Path.mem_of_mem_steps listed member)
  rw [Option.isNone_iff_eq_none.mp lost] at kept
  cases kept

/-- A path without the forbidden character is refused for a half that cannot be written as
bytes wherever it stands: the half is in one of the steps, and no step has another fault. -/
theorem findSome?_stepFault?_of_half (clean : Point.char '\x00' ∉ path)
    (half : ¬ path.IsEncodable) : path.steps.findSome? stepFault? = some .unencodablePath := by
  have spotless {step : Path} (listed : step ∈ path.steps) : Point.char '\x00' ∉ step :=
    fun member => clean (Path.mem_of_mem_steps listed member)
  obtain ⟨point, member, lost⟩ : ∃ point ∈ path, point.bytes? = none := by
    simpa [Path.IsEncodable] using half
  obtain ⟨step, listed, within⟩ : ∃ step ∈ path.steps, point ∈ step := by
    apply Path.exists_mem_steps member <;> rintro rfl <;> cases lost
  have refused : stepFault? step = some .unencodablePath := by
    rw [stepFault?_eq (spotless listed), if_pos]
    exact List.any_eq_true.mpr ⟨point, within, Option.isNone_iff_eq_none.mpr lost⟩
  cases first : path.steps.findSome? stepFault? with
  | none =>
    rw [List.findSome?_eq_none_iff.mp first step listed] at refused
    cases refused
  | some fault =>
    obtain ⟨other, given, found⟩ := List.exists_of_findSome?_eq_some first
    rw [stepFault?_eq (spotless given)] at found
    split at found
    · exact found.symm
    · cases found

/-- A path that cannot be written as bytes is refused in every repository that is a folder. -/
theorem read_of_half (rooted : checkout.tree.hasFolder checkout.root = true)
    (clean : Point.char '\x00' ∉ path) (half : ¬ path.IsEncodable) :
    checkout.read path = .error .unencodablePath := by
  simp [read, guarded, rooted, findSome?_stepFault?_of_half clean half]

/-- By a path that can be written as bytes, a text is read in a repository that is a folder where
the path leads below this folder, and anywhere else the path is reported to escape. -/
theorem read_eq (rooted : checkout.tree.hasFolder checkout.root = true)
    (clean : Point.char '\x00' ∉ path) (encodable : path.IsEncodable) :
    checkout.read path =
      if Location.isBelow (Path.names checkout.root) (Path.resolve checkout.root path) then
        (checkout.tree.readText ((Path.resolve checkout.root path).map Path.onDisk)).mapError
          fun obstacle => .retrieval path (.blocked obstacle)
      else .error (.retrieval path .escapesRoot) := by
  simp [read, guarded, rooted, findSome?_stepFault?_eq_none clean encodable]

/-- A fault that names an obstacle does not report that the path escapes, since the texts of all
obstacles are different from that. -/
theorem reason_ne_escape (obstacle : Obstacle) :
    (RetrievalCause.blocked obstacle).reason ≠ "path escapes the repository root" := by
  cases obstacle <;> decide

/-- For a path that can be written as bytes, escaping is reported exactly when the path leads
to a place that does not lie below the folder. -/
theorem reports_escape_iff (rooted : checkout.tree.hasFolder checkout.root = true)
    (clean : Point.char '\x00' ∉ path) (encodable : path.IsEncodable) :
    (∃ cause, checkout.read path = .error (.retrieval path cause) ∧
        cause.reason = "path escapes the repository root") ↔
      ¬ Location.LiesBelow (Path.names checkout.root) (Path.resolve checkout.root path) := by
  rw [read_eq rooted clean encodable, ← Location.isBelow_iff]
  split
  · next below =>
    simp only [below, not_true_eq_false, iff_false, not_exists, not_and]
    intro cause failed reported
    cases reading : checkout.tree.readText
        ((Path.resolve checkout.root path).map Path.onDisk) with
    | ok text => simp [reading, Except.mapError] at failed
    | error obstacle =>
      obtain rfl : RetrievalCause.blocked obstacle = cause := by
        simpa [reading, Except.mapError] using failed
      exact reason_ne_escape obstacle reported
  · next outside => exact iff_of_true ⟨_, rfl, rfl⟩ outside

/-- For a path that can be written as bytes, a text is given exactly when the path leads below
the folder and the file that its names mean there holds the text. -/
theorem read_eq_ok_iff (rooted : checkout.tree.hasFolder checkout.root = true)
    (clean : Point.char '\x00' ∉ path) (encodable : path.IsEncodable) (text : String) :
    checkout.read path = .ok text ↔ ∃ inner, inner ≠ [] ∧
      Path.resolve checkout.root path = Path.names checkout.root ++ inner ∧
      checkout.tree.readText (checkout.root ++ inner.map Path.onDisk) = .ok text := by
  rw [read_eq rooted clean encodable]
  split
  · next below =>
    obtain ⟨inner, some, located⟩ := Location.isBelow_iff.mp below
    have onto : (Path.resolve checkout.root path).map Path.onDisk =
        checkout.root ++ inner.map Path.onDisk := by
      rw [located, List.map_append, Path.map_onDisk_names]
    have same (other : List Path) :
        Path.resolve checkout.root path = Path.names checkout.root ++ other ↔ other = inner := by
      rw [located, List.append_cancel_left_eq, eq_comm]
    simp only [onto, same]
    cases result : checkout.tree.readText (checkout.root ++ inner.map Path.onDisk) <;>
      simp [result, some, Except.mapError]
  · next outside =>
    refine iff_of_false (by simp) ?_
    rintro ⟨inner, some, located, -⟩
    exact outside (Location.isBelow_iff.mpr ⟨inner, some, located⟩)

/-- Two disks with the same folder of the repository are read alike, whatever else they hold:
all that is looked up lies below this folder. -/
theorem read_eq_of_lookup_root (rooted : checkout.tree.hasFolder checkout.root = true)
    (clean : Point.char '\x00' ∉ path) {disk : FileTree}
    (same : disk.lookup checkout.root = checkout.tree.lookup checkout.root) :
    { checkout with tree := disk }.read path = checkout.read path := by
  have alike : disk.hasFolder checkout.root = true := by
    rw [← rooted, FileTree.hasFolder, FileTree.hasFolder, same]
  by_cases encodable : path.IsEncodable
  · have there := @read_eq { checkout with tree := disk } path alike clean encodable
    rw [read_eq rooted clean encodable, there]
    split
    · next below =>
      obtain ⟨inner, _, located⟩ := Location.isBelow_iff.mp below
      cases found : checkout.tree.lookup checkout.root with
      | error obstacle => simp [FileTree.hasFolder, found] at rooted
      | ok folder =>
        have lookups : disk.lookup (checkout.root ++ inner.map Path.onDisk) =
            checkout.tree.lookup (checkout.root ++ inner.map Path.onDisk) := by
          rw [FileTree.lookup_append found, FileTree.lookup_append (same.trans found)]
        simp only [located, List.map_append, Path.map_onDisk_names, FileTree.readText,
          FileTree.readBytes, lookups]
    · rfl
  · rw [read_of_half rooted clean encodable]
    exact @read_of_half { checkout with tree := disk } path alike clean encodable

/-- For every repository and every path without the forbidden character the plainest form
of the path, joined to the folder of the repository, decides, if only the path can be written
as bytes. Reading then reports that the path escapes exactly when that place does not lie below
the folder. A text is given exactly when the place does and the file that its names mean holds
the text. A path with a half that cannot be written as bytes gives no text and is refused with
another fault, also when it escapes. What the disk holds outside of the folder makes no
difference in either case. -/
theorem reading_stays_below_root (checkout : Checkout) (path : Path)
    (wellNamed : checkout.tree.WellNamed)
    (rooted : checkout.tree.hasFolder checkout.root = true)
    (clean : Text.Point.char '\x00' ∉ path) :
    ∃ location,
      (∀ other, Path.Plainest (Path.joined checkout.root path) other ↔ other = location) ∧
      (path.IsEncodable →
        ((∃ cause, checkout.read path = .error (.retrieval path cause) ∧
            cause.reason = "path escapes the repository root") ↔
          ¬ Location.LiesBelow (Path.names checkout.root) location)) ∧
      (¬ path.IsEncodable → checkout.read path = .error .unencodablePath) ∧
      (∀ text, checkout.read path = .ok text ↔ path.IsEncodable ∧ ∃ inner, inner ≠ [] ∧
        location = Path.names checkout.root ++ inner ∧ ∃ bytes letters,
          checkout.tree.lookup (checkout.root ++ inner.map Path.onDisk) = .ok (.file bytes) ∧
          Text.decode? bytes = some letters ∧
          text = String.ofList (Text.unifyBreaks letters)) ∧
      ∀ disk : FileTree, disk.lookup checkout.root = checkout.tree.lookup checkout.root →
        { checkout with tree := disk }.read path = checkout.read path := by
  have named : ∀ name ∈ checkout.root, Location.IsName name := by
    cases found : checkout.tree.lookup checkout.root with
    | error obstacle => simp [FileTree.hasFolder, found] at rooted
    | ok folder => exact (wellNamed.of_lookup found).2
  refine ⟨Path.resolve checkout.root path, ?_, reports_escape_iff rooted clean,
    read_of_half rooted clean, ?_, ?_⟩
  · intro other
    exact Path.plainest_joined_iff named path
  · intro text
    by_cases encodable : path.IsEncodable
    · simp only [encodable, true_and, read_eq_ok_iff rooted clean encodable,
        FileTree.readText_eq_ok_iff]
    · rw [read_of_half rooted clean encodable]
      exact iff_of_false (by simp) fun given => encodable given.1
  · intro disk same
    exact read_eq_of_lookup_root rooted clean same

/-- A disk with a repository and a folder beside it whose name starts with its name. -/
def neighbouringDisk : FileTree :=
  .folder [("work", .folder [("repo", .folder [("a.txt", .file [0x61])]),
    ("repository", .folder [("key", .file [0x6B])])])]

/-- The checkout of the repository on this disk. -/
def neighbour : Checkout :=
  { tree := neighbouringDisk, repo := "/work/repo", root := ["work", "repo"], exclude := [] }

/-- The disk with the two folders is well named, as the names in each folder are proper and
distinct. -/
theorem wellNamed_neighbouringDisk : neighbouringDisk.WellNamed := by
  have single (name : String) (named : Location.IsName name) (bytes : List UInt8) :
      (FileTree.folder [(name, .file bytes)]).WellNamed :=
    .folder (by simp) (by simpa using named) (by simpa using .file bytes)
  refine .folder (by decide) (by decide +kernel) (List.forall_mem_singleton.mpr ?_)
  refine .folder (by decide) (by decide +kernel) ?_
  exact List.forall_mem_cons.mpr ⟨single "a.txt" (by decide +kernel) _,
    List.forall_mem_singleton.mpr (single "key" (by decide +kernel) _)⟩

/-- A path that climbs into the folder beside the repository escapes. One that climbs out
of the repository and back into it is read. -/
theorem neighbour_is_not_read :
    neighbour.tree.WellNamed ∧ neighbour.tree.hasFolder neighbour.root = true ∧
      (∃ cause, neighbour.read (.ofString "./x//../../repository/key") =
          .error (.retrieval (.ofString "./x//../../repository/key") cause) ∧
        cause.reason = "path escapes the repository root") ∧
      neighbour.read (.ofString "../../..//work/repo/./a.txt") = .ok "a" := by
  have rooted : neighbour.tree.hasFolder neighbour.root = true := by decide +kernel
  have named : ∀ name ∈ neighbour.root, Location.IsName name := by decide +kernel
  refine ⟨wellNamed_neighbouringDisk, rooted, ?_, ?_⟩
  · obtain ⟨location, plain, escapes, -⟩ := reading_stays_below_root neighbour
      (.ofString "./x//../../repository/key") wellNamed_neighbouringDisk rooted (by decide +kernel)
    refine (escapes (by decide +kernel)).mpr ?_
    rw [(Path.plainest_joined_iff named _).mp ((plain location).mpr rfl), ← Location.isBelow_iff]
    decide +kernel
  · obtain ⟨location, plain, -, -, content, -⟩ := reading_stays_below_root neighbour
      (.ofString "../../..//work/repo/./a.txt") wellNamed_neighbouringDisk rooted
      (by decide +kernel)
    have located : location = Path.names ["work", "repo", "a.txt"] := by
      rw [(Path.plainest_joined_iff named _).mp ((plain location).mpr rfl)]
      decide +kernel
    rw [content, located]
    exact ⟨by decide +kernel, Path.names ["a.txt"], by decide, rfl, [0x61], ['a'],
      by rw [Path.map_onDisk_names]; rfl, by decide +kernel, by decide +kernel⟩

/-- A path that climbs out of the repository is not reported to escape when it goes on with a
lone half: its plainest form does not lie below the folder, and yet the fault is another. -/
theorem lone_half_hides_escape :
    (∀ location, Path.Plainest
        (Path.joined neighbour.root (Path.ofString "../" ++ [.half 0])) location →
      ¬ Location.LiesBelow (Path.names neighbour.root) location) ∧
      neighbour.read (Path.ofString "../" ++ [.half 0]) = .error .unencodablePath := by
  have named : ∀ name ∈ neighbour.root, Location.IsName name := by decide +kernel
  refine ⟨fun location plain => ?_, by decide +kernel⟩
  rw [(Path.plainest_joined_iff named _).mp plain, ← Location.isBelow_iff]
  decide +kernel

end Repository.Checkout

end ScreenAtlas
