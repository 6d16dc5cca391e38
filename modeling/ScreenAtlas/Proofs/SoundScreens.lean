import ScreenAtlas.Proofs.Gathering
import ScreenAtlas.Proofs.JournalAnswers
import ScreenAtlas.Screen.Extraction

/-!
# The screens of every strategy are sound

Ten strategies build screens in ten ways, but what makes a screen sound is the
same for all of them: it carries the label of its strategy, it stands in one of
the files or in none, and its links are distinct paths inside the application.

Most strategies go through the files and build the screens of one file at a time.
For these it is enough to look at the screens of one file: what gathers them never
changes a screen.
-/
namespace ScreenAtlas

namespace Navigation

/-- The links of a screen: distinct paths inside the application. -/
structure Proper (links : List String) : Prop where
  distinct : links.Nodup
  internal : ∀ target ∈ links, isInternal target = true

/-- A screen without links has proper links. -/
theorem proper_nil : Proper [] := ⟨List.nodup_nil, fun _ absent => nomatch absent⟩

/-- Adding an internal target keeps links proper, because it is only added when it is not there
yet. -/
theorem Proper.addTarget {links : List String} (proper : Proper links) {target : String}
    (internal : isInternal target = true) : Proper (addTarget links target) := by
  unfold Navigation.addTarget
  split
  · exact proper
  · next absent =>
    have fresh : target ∉ links := by simpa using absent
    refine ⟨proper.distinct.append (List.nodup_singleton target) ?_, ?_⟩
    · simpa using fresh
    · intro other member
      rcases List.mem_append.mp member with old | new
      · exact proper.internal other old
      · rw [List.mem_singleton.mp new]
        exact internal

/-- The internal ones of any targets are proper links: external targets are left out, and the
others are added one by one. -/
theorem proper_internalTargets (targets : List String) : Proper (internalTargets targets) :=
  List.foldlRecOn (targets.filter isInternal) Navigation.addTarget proper_nil
    fun _ proper _ member => proper.addTarget (List.mem_filter.mp member).2

/-- The links of a source are proper, whatever tree it is parsed into. -/
theorem proper_linksOf (parsed : Option Script.Parsed) (content : String) :
    Proper (linksOf parsed content) := by
  unfold linksOf
  split
  · exact proper_internalTargets _
  · cases parsed with
    | none => exact proper_nil
    | some parsed => exact proper_internalTargets _

/-- The links of a file are proper, whatever the parser makes of its content. -/
theorem proper_links (reading : Script.Reading) (path content : String) :
    Proper (links reading path content) := proper_linksOf _ content

end Navigation

namespace Screen

/-- A screen that a strategy of a given label builds from one file. -/
structure FromFile (file : SourceFile) (label : String) (screen : Screen) : Prop where
  labelled : screen.framework = label
  located : screen.filePath = file.path
  linked : Navigation.Proper screen.navigatesTo

/-- What holds of every screen that a strategy of a given label finds: the screen
carries the label, it stands in one of the files or in none, and its links are
proper. -/
structure Sound (files : List SourceFile) (label : String) (screen : Screen) : Prop where
  labelled : screen.framework = label
  placed : screen.filePath = "unknown" ∨ ∃ file ∈ files, screen.filePath = file.path
  linked : Navigation.Proper screen.navigatesTo

/-- A screen that is built from one of the files is sound with regard to all of them, as it stands
in that file. -/
theorem FromFile.sound {file : SourceFile} {files : List SourceFile} {label : String}
    {screen : Screen} (built : FromFile file label screen) (present : file ∈ files) :
    Sound files label screen :=
  ⟨built.labelled, Or.inr ⟨file, present, built.located⟩, built.linked⟩

/-- Screens that are built file by file and then gathered are sound, because every gathered screen
is one that was built. -/
theorem sound_gathered {files : List SourceFile} {label : String}
    {screensOf : SourceFile → List Screen} {step : List Screen → Screen → List Screen}
    (gathers : Gathers step)
    (built : ∀ file, ∀ screen ∈ screensOf file, FromFile file label screen) :
    ∀ screen ∈ (files.flatMap screensOf).foldl step [], Sound files label screen := by
  intro screen member
  obtain ⟨file, present, listed⟩ := List.mem_flatMap.mp (gathers.foldl_subset _ member)
  exact (built file screen listed).sound present

/-- Screens of the files to which a value is assigned are sound, if the screen of each such file
is built from it. -/
theorem sound_assigned {files : List SourceFile} {label : String}
    (assigned? : SourceFile → Option String) {build : SourceFile → String → Screen}
    (built : ∀ file value, FromFile file label (build file value)) :
    ∀ screen ∈ files.filterMap fun file => (assigned? file).map (build file),
      Sound files label screen := by
  intro screen member
  obtain ⟨file, present, made⟩ := List.mem_filterMap.mp member
  obtain ⟨value, _, rfl⟩ := Option.map_eq_some_iff.mp made
  exact (built file value).sound present

/-- A screen is added exactly when no screen with its path is listed, so screens are gathered by
their paths. -/
theorem gathersBy_addPath : GathersBy Screen.path addPath := by
  refine GathersBy.of_test (fun _ _ => rfl) ?_
  intro found screen
  simp

/-- A screen is added exactly when no screen with its name and path is listed, so screens are
gathered by both. -/
theorem gathersBy_addRoute :
    GathersBy (fun screen : Screen => (screen.name, screen.path)) addRoute := by
  refine GathersBy.of_test (fun _ _ => rfl) ?_
  intro found screen
  simp

variable (reading : Script.Reading) (files : List SourceFile)

/-- The screens of page files are sound, whichever way the route of a file is told from its path.
-/
theorem sound_ofPageFiles (framework : String) (route? : String → Option String) :
    ∀ screen ∈ ofPageFiles reading framework route? files, Sound files framework screen :=
  sound_assigned (fun file => route? file.path)
    fun _ _ => ⟨rfl, rfl, Navigation.proper_links _ _ _⟩

/-- The screens of files that are placed like screens are sound, one for each file that is given a
name. -/
theorem sound_placedFiles :
    ∀ screen ∈ placedFiles reading files, Sound files Strategy.placedFiles.label screen :=
  sound_assigned (fun file => placedName? file.path)
    fun _ _ => ⟨rfl, rfl, Navigation.proper_links _ _ _⟩

/-- The screens of declared routes are sound, since each stands in the file that declares its
route. A file without routes adds none. -/
theorem sound_declaredRoutes (layouts : List String) :
    ∀ screen ∈ declaredRoutes reading layouts files, Sound files Framework.router screen := by
  refine sound_gathered gathersBy_addRoute.gathers ?_
  intro file screen member
  unfold routesOfFile at member
  split at member
  · obtain ⟨target, _, rfl⟩ := List.mem_map.mp member
    exact ⟨rfl, rfl, Navigation.proper_linksOf _ _⟩
  · cases member

/-- The screens that state variables choose between are sound. They stand in the file with the
variable and carry its links. -/
theorem sound_stateViews :
    ∀ screen ∈ stateViews reading files, Sound files Strategy.stateViews.label screen := by
  refine sound_gathered gathersBy_addPath.gathers ?_
  intro file screen member
  unfold viewsOfFile at member
  dsimp only at member
  split at member
  · obtain ⟨selector, _, listed⟩ := List.mem_flatMap.mp member
    obtain ⟨view, _, made⟩ := List.mem_filterMap.mp listed
    unfold ofViewCase? at made
    dsimp only at made
    split at made
    · cases made
    · obtain rfl := Option.some.inj made
      exact ⟨rfl, rfl, Navigation.proper_links _ _ _⟩
  · cases member

/-- The screens that the fragment of the address chooses between are sound. They stand in the file
that reads the fragment. -/
theorem sound_hashViews :
    ∀ screen ∈ hashViews reading files, Sound files Strategy.hashViews.label screen := by
  refine sound_gathered gathersBy_addPath.gathers ?_
  intro file screen member
  unfold hashPagesOfFile at member
  dsimp only at member
  split at member
  · split at member
    · cases member
    · obtain ⟨page, _, rfl⟩ := List.mem_map.mp member
      exact ⟨rfl, rfl, Navigation.proper_links _ _ _⟩
  · cases member

/-- The screens of commands are sound, with no links at all, whatever the executable is called. -/
theorem sound_commands (binary : String) :
    ∀ screen ∈ commands binary files, Sound files Strategy.commands.label screen := by
  refine sound_gathered gathersBy_addPath.gathers ?_
  intro file screen member
  unfold commandsOfFile at member
  dsimp only at member
  split at member
  · obtain ⟨chain, _, rfl⟩ := List.mem_map.mp member
    exact ⟨rfl, rfl, Navigation.proper_nil⟩
  · cases member

/-- The one screen of an application without routing is sound: it stands in the
entry file if there is one. -/
theorem sound_singlePage (manifest : Members) :
    ∀ screen ∈ singlePage reading manifest files, Sound files Strategy.singlePage.label screen := by
  intro screen member
  obtain rfl := List.mem_singleton.mp member
  cases entry : files.find? fun file => RouteFile.isModule ["App", "main"] file.path with
  | none => exact ⟨rfl, Or.inl rfl, Navigation.proper_nil⟩
  | some file =>
    have present := List.mem_of_find?_eq_some entry
    exact FromFile.sound ⟨rfl, rfl, Navigation.proper_links _ _ _⟩ present

/-- The screens that the settings list are sound: they stand in no file and have no links. -/
theorem sound_ofFallbackRoutes (routes : List FallbackRoute) :
    ∀ screen ∈ ofFallbackRoutes routes,
      Sound files (Strategy.fallbackRoutes routes).label screen := by
  intro screen member
  obtain ⟨route, _, rfl⟩ := List.mem_map.mp member
  exact ⟨rfl, Or.inl rfl, Navigation.proper_nil⟩

end Screen

end ScreenAtlas
