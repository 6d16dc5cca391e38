import ScreenAtlas.Proofs.CanonicalPath
import ScreenAtlas.Proofs.SoundScreens

/-!
# Extracted screens are well formed

What a strategy finds is brought into its final form: paths become canonical,
wildcards are left out and each identifier is kept once. The screens of an
extraction are the final ones of the first strategy of the chain that has any, so
they are sound for that strategy and every earlier strategy has none.

An extraction can fail to give screens in one way only. The manifest is consulted
by the detection of frameworks and by two strategies; when it holds a whole number
with too many figures, consulting it ends the extraction with a fault. With the
frameworks given and screens found by an earlier strategy the manifest is never
consulted, so this is stated exactly. Manifests are read here however deeply their values
are nested. A reader that runs out of its stack in a manifest of great depth would end the
extraction with a fault as well; that limit belongs to the machine and is left out.
-/
namespace ScreenAtlas

/-- A rooted path is no wildcard, also without the blanks around it: its slash stays the first
character. -/
theorem Route.trimmed_ne_wildcard {path : String} (rooted : path.toList.head? = some '/') :
    trimmed path ≠ wildcard := by
  obtain ⟨rest, spelled⟩ := List.head?_eq_some_iff.mp rooted
  intro same
  have starts : (trimmed path).toList.head? = some '/' := by
    rw [trimmed, spelled, Text.trim_cons '/' rest (by decide)]
    simp
  rw [same] at starts
  exact absurd starts (by decide)

namespace Screen

/-- Adding a screen either changes nothing, since its path is a wildcard or its
identifier is taken, or it appends the screen under a fresh identifier. -/
theorem addFinal_cases (screens : List Screen) (screen : Screen) :
    (addFinal screens screen = screens ∧
      (trimmed screen.path = Route.wildcard ∨ screen.id ∈ screens.map Screen.id)) ∨
    (addFinal screens screen = screens ++ [{ screen with path := Route.normalize screen.path }] ∧
      screen.id ∉ screens.map Screen.id) := by
  unfold addFinal
  split
  · next wild => exact Or.inl ⟨rfl, Or.inl (by simpa using wild)⟩
  · split
    · next taken => exact Or.inl ⟨rfl, Or.inr (by simpa using taken)⟩
    · next fresh => exact Or.inr ⟨rfl, by simpa using fresh⟩

/-- Every final screen is one that was found, with its path in normal form and nothing else
changed. -/
theorem exists_of_mem_finalize {found : List Screen} :
    ∀ screen ∈ finalize found, ∃ origin ∈ found,
      screen = { origin with path := Route.normalize origin.path } := by
  unfold finalize
  refine List.foldlRecOn (motive := fun screens => ∀ screen ∈ screens, ∃ origin ∈ found,
    screen = { origin with path := Route.normalize origin.path }) found addFinal ?_ ?_
  · simp
  · intro screens inductionHypothesis origin present screen member
    rcases addFinal_cases screens origin with ⟨same, _⟩ | ⟨more, _⟩
    · exact inductionHypothesis screen (same ▸ member)
    · rw [more, List.mem_append, List.mem_singleton] at member
      rcases member with earlier | last
      · exact inductionHypothesis screen earlier
      · exact ⟨origin, present, last⟩

/-- The paths of final screens are canonical, because each was normalised and normalising gives
canonical paths. -/
theorem canonical_of_mem_finalize {found : List Screen} {screen : Screen}
    (member : screen ∈ finalize found) : Route.Canonical screen.path.toList := by
  obtain ⟨origin, _, rfl⟩ := exists_of_mem_finalize _ member
  simpa [Route.normalize] using Route.normalizeChars_canonical origin.path.toList

/-- Final screens are sound when the screens found are, since soundness does not look at the path
that is normalised. -/
theorem sound_of_mem_finalize {files : List SourceFile} {label : String} {found : List Screen}
    (sound : ∀ screen ∈ found, Sound files label screen) :
    ∀ screen ∈ finalize found, Sound files label screen := by
  intro screen member
  obtain ⟨origin, present, rfl⟩ := exists_of_mem_finalize _ member
  have given := sound origin present
  exact ⟨given.labelled, given.placed, given.linked⟩

/-- The identifiers of final screens are distinct: a screen is added only under a fresh one. -/
theorem nodup_finalize (found : List Screen) : ((finalize found).map Screen.id).Nodup := by
  unfold finalize
  refine List.foldlRecOn (motive := fun screens => (screens.map Screen.id).Nodup) found addFinal
    ?_ ?_
  · simp
  · intro screens distinct screen _
    rcases addFinal_cases screens screen with ⟨same, _⟩ | ⟨more, fresh⟩
    · rw [same]
      exact distinct
    · rw [more, List.map_append]
      refine distinct.append (List.nodup_singleton screen.id) ?_
      simpa using fresh

/-- A screen whose path is no wildcard leaves some final screen: its own or an
earlier one of the same identifier. -/
theorem finalize_ne_nil {found : List Screen} {screen : Screen} (member : screen ∈ found)
    (ordinary : trimmed screen.path ≠ Route.wildcard) : finalize found ≠ [] := by
  have starts (screens : List Screen) : addFinal screens screen ≠ [] := by
    rcases addFinal_cases screens screen with ⟨same, wild | taken⟩ | ⟨more, _⟩
    · exact absurd wild ordinary
    · rw [same]
      rintro rfl
      cases taken
    · simp [more]
  have stays (screens : List Screen) (nonempty : screens ≠ []) (next : Screen) :
      addFinal screens next ≠ [] := by
    rcases addFinal_cases screens next with ⟨same, _⟩ | ⟨more, _⟩
    · rw [same]
      exact nonempty
    · simp [more]
  obtain ⟨before, after, rfl⟩ := List.append_of_mem member
  rw [finalize, List.foldl_append, List.foldl_cons]
  exact List.foldlRecOn (motive := (· ≠ [])) after addFinal (starts _)
    fun screens nonempty next _ => stays screens nonempty next

end Screen

namespace Strategy

/-- The strategy consults the manifest of the project. -/
def consults : Strategy → Bool
  | commands => true
  | singlePage => true
  | _ => false

variable {reading : Script.Reading} {files : List SourceFile}

/-- A strategy finds sound screens unless it consults a manifest that is refused. Strategies that
do not consult it need nothing of it. -/
theorem screens_answers (reading : Script.Reading) (strategy : Strategy)
    (readable : strategy.consults = true → ¬ Manifest.Unreadable files) :
    ∃ found, (strategy.screens reading files).Answers (.ok found) ∧
      ∀ screen ∈ found, Screen.Sound files strategy.label screen := by
  cases strategy with
  | appPages => exact ⟨_, Journal.answers_pure _, Screen.sound_ofPageFiles _ _ _ _⟩
  | pageModules => exact ⟨_, Journal.answers_pure _, Screen.sound_ofPageFiles _ _ _ _⟩
  | declaredRoutes layouts => exact ⟨_, Journal.answers_pure _, Screen.sound_declaredRoutes _ _ _⟩
  | pageComponents => exact ⟨_, Journal.answers_pure _, Screen.sound_ofPageFiles _ _ _ _⟩
  | stateViews => exact ⟨_, Journal.answers_pure _, Screen.sound_stateViews _ _⟩
  | hashViews => exact ⟨_, Journal.answers_pure _, Screen.sound_hashViews _ _⟩
  | commands =>
    obtain ⟨members, consulted⟩ := Manifest.consult_answers (readable rfl)
    exact ⟨_, consulted.bind (Journal.answers_pure _), Screen.sound_commands _ _⟩
  | placedFiles => exact ⟨_, Journal.answers_pure _, Screen.sound_placedFiles _ _⟩
  | singlePage =>
    obtain ⟨members, consulted⟩ := Manifest.consult_answers (readable rfl)
    exact ⟨_, consulted.bind (Journal.answers_pure _), Screen.sound_singlePage _ _ _⟩
  | fallbackRoutes routes =>
    exact ⟨_, Journal.answers_pure _, Screen.sound_ofFallbackRoutes _ _⟩

/-- A strategy that consults a refused manifest ends with a fault, before it has looked at any
other file. -/
theorem screens_fault {strategy : Strategy} (consulting : strategy.consults = true)
    (unreadable : Manifest.Unreadable files) :
    (strategy.screens reading files).Answers (.error .malformedNumber) := by
  cases strategy with
  | commands => exact (Manifest.consult_fault unreadable).bind_error _
  | singlePage => exact (Manifest.consult_fault unreadable).bind_error _
  | _ => cases consulting

/-- The strategy answers screens whose final form is the given list. -/
def Yields (reading : Script.Reading) (files : List SourceFile) (strategy : Strategy)
    (screens : List Screen) : Prop :=
  ∃ found, (strategy.screens reading files).Answers (.ok found) ∧ Screen.finalize found = screens

/-- A strategy that only looks at the files yields exactly the final form of what it finds, as it
always answers. -/
theorem yields_iff {strategy : Strategy} {found screens : List Screen}
    (plain : strategy.screens reading files = pure found) :
    strategy.Yields reading files screens ↔ Screen.finalize found = screens := by
  unfold Yields
  rw [plain]
  constructor
  · rintro ⟨other, answered, rfl⟩
    rw [Except.ok.inj (answered.unique (Journal.answers_pure found))]
  · intro final
    exact ⟨found, Journal.answers_pure found, final⟩

/-- What a strategy yields carries its label, for all screens that it finds do and their final
form keeps it. -/
theorem Yields.labelled {strategy : Strategy} {screens : List Screen}
    (yields : strategy.Yields reading files screens) :
    ∀ screen ∈ screens, screen.framework = strategy.label := by
  obtain ⟨found, answered, rfl⟩ := yields
  have readable : strategy.consults = true → ¬ Manifest.Unreadable files := by
    intro consulting unreadable
    cases answered.unique (screens_fault consulting unreadable)
  obtain ⟨other, same, sound⟩ := screens_answers reading strategy readable
  obtain rfl := Except.ok.inj (answered.unique same)
  exact fun screen member => (Screen.sound_of_mem_finalize sound screen member).labelled

/-- A strategy has one list of final screens at most, because it gives one answer. -/
theorem Yields.unique {strategy : Strategy} {screens others : List Screen}
    (first : strategy.Yields reading files screens)
    (second : strategy.Yields reading files others) : screens = others := by
  obtain ⟨found, answered, rfl⟩ := first
  obtain ⟨given, same, rfl⟩ := second
  rw [Except.ok.inj (answered.unique same)]

/-- The one screen of an application is always a final one: its path is the root and no wildcard.
-/
theorem singlePage_yields_screens : ¬ singlePage.Yields reading files [] := by
  rintro ⟨found, answered, empty⟩
  by_cases unreadable : Manifest.Unreadable files
  · cases answered.unique (screens_fault rfl unreadable)
  · obtain ⟨members, consulted⟩ := Manifest.consult_answers unreadable
    obtain rfl := Except.ok.inj (answered.unique (consulted.bind
      (Journal.answers_pure (Screen.singlePage reading members files))))
    exact Screen.finalize_ne_nil List.mem_cons_self (Route.trimmed_ne_wildcard (by simp)) empty

/-- Routes that the settings list have final screens, since a listed wildcard stands
for the root. -/
theorem fallbackRoutes_yields_screens {routes : List FallbackRoute} (listed : routes ≠ []) :
    ¬ (fallbackRoutes routes).Yields reading files [] := by
  rw [yields_iff rfl]
  obtain ⟨route, rest, rfl⟩ := List.exists_cons_of_ne_nil listed
  have canonical := Route.normalizeChars_canonical route.path.toList
  refine Screen.finalize_ne_nil List.mem_cons_self (Route.trimmed_ne_wildcard ?_)
  simpa [Route.normalize] using canonical.rooted

/-- Some screens are those of the first strategy of a chain that has any: they are
sound for it and no earlier strategy has screens. Without such a strategy there
are no screens. -/
def Decided (reading : Script.Reading) (files : List SourceFile) (chain : List Strategy)
    (screens : List Screen) : Prop :=
  (screens = [] ∧ ∀ strategy ∈ chain, strategy.Yields reading files []) ∨
  ∃ before strategy after, chain = before ++ strategy :: after ∧
    (∀ earlier ∈ before, earlier.Yields reading files []) ∧
    strategy.Yields reading files screens ∧ screens ≠ [] ∧
    ∀ screen ∈ screens, Screen.Sound files strategy.label screen

/-- Every chain whose strategies consult no refused manifest decides some screens. The induction
is on the chain: its first strategy has screens, or the others decide. -/
theorem exists_decided (reading : Script.Reading) (files : List SourceFile) (chain : List Strategy)
    (readable : ∀ strategy ∈ chain, strategy.consults = true → ¬ Manifest.Unreadable files) :
    ∃ screens, Decided reading files chain screens := by
  induction chain with
  | nil => exact ⟨[], Or.inl ⟨rfl, by simp⟩⟩
  | cons first rest inductionHypothesis =>
    obtain ⟨found, answered, sound⟩ :=
      screens_answers reading first (readable first List.mem_cons_self)
    by_cases empty : Screen.finalize found = []
    · have yields : first.Yields reading files [] := ⟨found, answered, empty⟩
      obtain ⟨screens, ⟨none, all⟩ | ⟨before, strategy, after, rfl, skipped, decided⟩⟩ :=
        inductionHypothesis fun strategy member => readable strategy (List.mem_cons_of_mem _ member)
      · exact ⟨screens, Or.inl ⟨none, List.forall_mem_cons.mpr ⟨yields, all⟩⟩⟩
      · exact ⟨screens, Or.inr ⟨first :: before, strategy, after, rfl,
          List.forall_mem_cons.mpr ⟨yields, skipped⟩, decided⟩⟩
    · exact ⟨_, Or.inr ⟨[], first, rest, rfl, by simp, ⟨found, answered, rfl⟩, empty,
        Screen.sound_of_mem_finalize sound⟩⟩

/-- Screens that a chain decides are decided by every longer chain, if there are any, since the
search stops before it comes to what is added. -/
theorem Decided.append {chain : List Strategy} {screens : List Screen}
    (decided : Decided reading files chain screens) (nonempty : screens ≠ [])
    (further : List Strategy) : Decided reading files (chain ++ further) screens := by
  rcases decided with ⟨none, _⟩ | ⟨before, strategy, after, rfl, decided⟩
  · exact absurd none nonempty
  · exact Or.inr ⟨before, strategy, after ++ further, by simp, decided⟩

/-- Decided screens are final ones: their paths are canonical and their identifiers
distinct. -/
theorem Decided.final {chain : List Strategy} {screens : List Screen}
    (decided : Decided reading files chain screens) :
    (∀ screen ∈ screens, Route.Canonical screen.path.toList) ∧
      (screens.map Screen.id).Nodup := by
  rcases decided with ⟨rfl, _⟩ | ⟨_, _, _, _, _, ⟨found, _, rfl⟩, _⟩
  · simp
  · exact ⟨fun _ member => Screen.canonical_of_mem_finalize member, Screen.nodup_finalize found⟩

/-- Decided screens, if there are any, are those that one strategy of the chain yields, all of
them together. -/
theorem Decided.exists_yields {chain : List Strategy} {screens : List Screen}
    (decided : Decided reading files chain screens)
    {screen : Screen} (found : screen ∈ screens) :
    ∃ strategy ∈ chain, strategy.Yields reading files screens := by
  rcases decided with ⟨rfl, _⟩ | ⟨before, strategy, after, rfl, _, yields, _⟩
  · cases found
  · exact ⟨strategy, by simp, yields⟩

/-- A chain with a fallback decides some screens: the fallback stands at its end and always has a
final screen. -/
theorem Decided.ne_nil {framework : Framework} {settings : Settings} {screens : List Screen}
    (decided : Decided reading files (chain framework settings) screens)
    (fallback : settings.singlePageFallback = true ∨ settings.fallbackRoutes ≠ []) :
    screens ≠ [] := by
  rcases decided with ⟨_, all⟩ | ⟨_, _, _, _, _, _, nonempty, _⟩
  · rcases fallback with single | listed
    · exact absurd (all singlePage (by simp [chain, single])) singlePage_yields_screens
    · exact absurd (all (fallbackRoutes settings.fallbackRoutes) (by simp [chain, listed]))
        (fallbackRoutes_yields_screens listed)
  · exact nonempty

end Strategy

namespace Screen

open Strategy

variable {reading : Script.Reading} {files : List SourceFile}

/-- Strategies without final screens are passed over, and the answer is that of the search behind
them. The induction is on these strategies. -/
theorem firstFound_append {before rest : List Strategy} {answer : Except Fault (List Screen)}
    (skipped : ∀ earlier ∈ before, earlier.Yields reading files [])
    (answered : (firstFound reading files rest).Answers answer) :
    (firstFound reading files (before ++ rest)).Answers answer := by
  induction before with
  | nil => exact answered
  | cons first before inductionHypothesis =>
    obtain ⟨⟨found, given, empty⟩, others⟩ := List.forall_mem_cons.mp skipped
    refine given.bind ?_
    rw [empty]
    exact inductionHypothesis others

/-- The first strategy with final screens ends the search with them, whatever stands behind it in
the chain. -/
theorem firstFound_cons {strategy : Strategy} {screens : List Screen}
    (yields : strategy.Yields reading files screens) (nonempty : screens ≠ [])
    (rest : List Strategy) :
    (firstFound reading files (strategy :: rest)).Answers (.ok screens) := by
  obtain ⟨found, given, rfl⟩ := yields
  refine given.bind ?_
  split
  · next empty => exact absurd empty nonempty
  · exact (Journal.answers_leave _).bind (Journal.answers_pure _)

/-- The search gives the screens that its chain decides, both when a strategy has some and when
none has. -/
theorem firstFound_answers {chain : List Strategy} {screens : List Screen}
    (decided : Decided reading files chain screens) :
    (firstFound reading files chain).Answers (.ok screens) := by
  rcases decided with ⟨rfl, all⟩ | ⟨before, strategy, after, rfl, skipped, yields, nonempty, _⟩
  · rw [← List.append_nil chain]
    exact firstFound_append all ((Journal.answers_leave _).bind (Journal.answers_pure _))
  · exact firstFound_append skipped (firstFound_cons yields nonempty after)

/-- The search ends with a fault when it comes to a strategy that consults a refused
manifest. -/
theorem firstFound_fault {before : List Strategy} {strategy : Strategy}
    (skipped : ∀ earlier ∈ before, earlier.Yields reading files [])
    (consulting : strategy.consults = true) (unreadable : Manifest.Unreadable files)
    (after : List Strategy) :
    (firstFound reading files (before ++ strategy :: after)).Answers (.error .malformedNumber) :=
  firstFound_append skipped ((screens_fault consulting unreadable).bind_error _)

end Screen

/-- A whole number with too many figures is refused as such, and not as a malformed document. -/
theorem Json.read_ones {count : Nat} (many : Numeral.digitLimit < count) :
    Json.read (String.ofList (List.replicate count '1')) = .error .tooManyDigits := by
  obtain ⟨fewer, rfl⟩ : ∃ fewer, count = fewer + 1 := ⟨count - 1, by omega⟩
  have solid : skipGap ('1' :: List.replicate fewer '1') = '1' :: List.replicate fewer '1' := by
    simp [skipGap, isGap]
  have number : readNumber false ('1' :: List.replicate fewer '1') = .error .tooManyDigits := by
    simpa [readNumber, fractionPart, exponentPart] using many
  have value (fuel : Nat) : readValue (fuel + 1) ('1' :: List.replicate fewer '1') =
      .error .tooManyDigits := by
    rw [← number]
    simp [readValue, readScalar, keywords, Text.after?]
  simp only [Json.read, allowance, String.toList_ofList, List.replicate_succ]
  rw [solid, value]

namespace Strategy

/-- The strategies in front of the first one that consults the manifest. -/
def front (framework : Framework) (settings : Settings) : List Strategy :=
  ofFramework framework settings ++ [stateViews, hashViews]

/-- Behind the strategies in front, the manifest is consulted for commands. So every chain comes
to it unless it ends before. -/
theorem chain_eq_front (framework : Framework) (settings : Settings) :
    ∃ after, chain framework settings = front framework settings ++ commands :: after := by
  simp [chain, front]

/-- The strategies in front never consult the manifest, whatever frameworks are given and whatever
the settings say. -/
theorem consults_of_mem_front {framework : Framework} {settings : Settings} {strategy : Strategy}
    (member : strategy ∈ front framework settings) : strategy.consults = false := by
  unfold front ofFramework at member
  grind [consults]

end Strategy

namespace Extraction

variable {reading : Script.Reading} {files : List SourceFile} {settings : Settings}
  {hints : Option Framework}

/-- The frameworks that guide an extraction: the given ones, or the detected ones
when none are given. -/
def Guided (files : List SourceFile) (hints : Option Framework) (framework : Framework) : Prop :=
  match hints with
  | some given => framework = given
  | none => (Framework.detect files).Answers (.ok framework)

/-- A refused manifest is consulted: by the detection of frameworks, or when they
are given, because no strategy in front of those that consult it has screens. -/
def Interrupted (reading : Script.Reading) (files : List SourceFile) (settings : Settings)
    (hints : Option Framework) : Prop :=
  Manifest.Unreadable files ∧ ∀ framework, hints = some framework →
    ∀ strategy ∈ Strategy.front framework settings, strategy.Yields reading files []

/-- What holds of every extraction: canonical paths, none of them a wildcard,
distinct identifiers, screens that are sound for the first strategy with any, and
some screens whenever a fallback is set. -/
structure WellFormed (reading : Script.Reading) (files : List SourceFile) (settings : Settings)
    (hints : Option Framework) (extraction : Extraction) : Prop where
  guided : Guided files hints extraction.framework
  canonical : ∀ screen ∈ extraction.screens, Route.Canonical screen.path.toList
  ordinary : ∀ screen ∈ extraction.screens, screen.path ≠ Route.wildcard
  distinct : (extraction.screens.map Screen.id).Nodup
  decided : Strategy.Decided reading files (Strategy.chain extraction.framework settings)
    extraction.screens
  nonempty : settings.singlePageFallback = true ∨ settings.fallbackRoutes ≠ [] →
    extraction.screens ≠ []

/-- Screens that the chain of the guiding frameworks decides are extracted together with these
frameworks. -/
theorem extractScreens_answers {framework : Framework} {screens : List Screen}
    (guided : Guided files hints framework)
    (decided : Strategy.Decided reading files (Strategy.chain framework settings) screens) :
    (extractScreens reading files settings hints).Answers (.ok ⟨screens, framework⟩) := by
  have found := Screen.firstFound_answers decided
  cases hints with
  | some given =>
    obtain rfl : framework = given := guided
    exact (Journal.answers_pure framework).bind (found.bind (Journal.answers_pure _))
  | none => exact Journal.Answers.bind guided (found.bind (Journal.answers_pure _))

/-- An extraction of decided screens is well formed: such screens are final ones of one strategy,
and a final path is rooted and thus no wildcard. -/
theorem wellFormed_of_decided {framework : Framework} {screens : List Screen}
    (guided : Guided files hints framework)
    (decided : Strategy.Decided reading files (Strategy.chain framework settings) screens) :
    WellFormed reading files settings hints ⟨screens, framework⟩ := by
  obtain ⟨canonical, distinct⟩ := decided.final
  refine ⟨guided, canonical, ?_, distinct, decided, decided.ne_nil⟩
  intro screen member wild
  have rooted := (canonical screen member).rooted
  rw [wild] at rooted
  exact absurd rooted (by decide)

/-- An interrupted extraction ends with a fault: the detection consults the refused manifest, or
the search comes to the first strategy that does. -/
theorem extractScreens_fault (interrupted : Interrupted reading files settings hints) :
    (extractScreens reading files settings hints).Answers (.error .malformedNumber) := by
  obtain ⟨unreadable, skipped⟩ := interrupted
  cases hints with
  | none => exact (Framework.detect_fault unreadable).bind_error _
  | some framework =>
    obtain ⟨after, split⟩ := Strategy.chain_eq_front framework settings
    refine (Journal.answers_pure framework).bind (Journal.Answers.bind_error ?_ _)
    rw [split]
    exact Screen.firstFound_fault (skipped framework rfl) rfl unreadable after

/-- Every other extraction has frameworks that guide it and screens that its chain
decides.

Proof: when the manifest can be read, every strategy of the chain can be asked.
Otherwise the frameworks are given and some strategy in front has screens; the
strategies in front can be asked, and what they decide the whole chain decides. -/
theorem exists_guided_decided (complete : ¬ Interrupted reading files settings hints) :
    ∃ framework screens, Guided files hints framework ∧
      Strategy.Decided reading files (Strategy.chain framework settings) screens := by
  by_cases unreadable : Manifest.Unreadable files
  · obtain ⟨framework, rfl, unskipped⟩ : ∃ framework, hints = some framework ∧
        ¬ ∀ strategy ∈ Strategy.front framework settings, strategy.Yields reading files [] := by
      simpa [Interrupted, unreadable] using complete
    obtain ⟨screens, decided⟩ := Strategy.exists_decided reading files
      (Strategy.front framework settings) fun strategy member consulting => by
        simp [Strategy.consults_of_mem_front member] at consulting
    have nonempty : screens ≠ [] := by
      rcases decided with ⟨_, all⟩ | ⟨_, _, _, _, _, _, nonempty, _⟩
      · exact absurd all unskipped
      · exact nonempty
    obtain ⟨after, split⟩ := Strategy.chain_eq_front framework settings
    exact ⟨framework, screens, rfl, split ▸ decided.append nonempty _⟩
  · have guided : ∃ framework, Guided files hints framework := by
      cases hints with
      | some given => exact ⟨given, rfl⟩
      | none => exact Framework.detect_answers unreadable
    obtain ⟨framework, guided⟩ := guided
    obtain ⟨screens, decided⟩ := Strategy.exists_decided reading files
      (Strategy.chain framework settings) fun _ _ _ => unreadable
    exact ⟨framework, screens, guided, decided⟩

/-- An extraction that answers screens has decided them, because one that is interrupted answers a
fault and any other answers what is decided. -/
theorem decided_of_answers {extraction : Extraction}
    (answered : (extractScreens reading files settings hints).Answers (.ok extraction)) :
    Guided files hints extraction.framework ∧ Strategy.Decided reading files
      (Strategy.chain extraction.framework settings) extraction.screens := by
  have complete : ¬ Interrupted reading files settings hints := by
    intro interrupted
    cases answered.unique (extractScreens_fault interrupted)
  obtain ⟨framework, screens, guided, decided⟩ := exists_guided_decided complete
  obtain rfl := Except.ok.inj (answered.unique (extractScreens_answers guided decided))
  exact ⟨guided, decided⟩

/-- A manifest that is one whole number with one figure too many. -/
def refusedManifest : SourceFile :=
  ⟨Manifest.path, String.ofList (List.replicate (Numeral.digitLimit + 1) '1')⟩

/-- The manifest is refused among any files that it stands in front of, since the first file of
this name counts. -/
theorem unreadable_refusedManifest (rest : List SourceFile) :
    Manifest.Unreadable (refusedManifest :: rest) :=
  ⟨refusedManifest, by simp [Manifest.find?, refusedManifest],
    Json.read_ones (Nat.lt_succ_self _)⟩

/-- A page of the sample, beside a refused manifest. -/
def samplePage : SourceFile := ⟨"app/page.tsx", "router.push('/about')"⟩

/-- The frameworks that are given for the sample. -/
def sampleFramework : Framework := { detected := [Framework.appRouter] }

/-- Without a parser, the page of the sample is found before the manifest is consulted, so the
extraction is not interrupted. -/
theorem sample_not_interrupted :
    ¬ Interrupted (fun _ _ => none) [refusedManifest, samplePage] {} (some sampleFramework) := by
  rintro ⟨_, skipped⟩
  have yields := skipped sampleFramework rfl .appPages
    (by simp [Strategy.front, Strategy.ofFramework, sampleFramework, Framework.includes])
  have some : (Screen.finalize (Screen.appPages (fun _ _ => none)
      [refusedManifest, samplePage])).isEmpty = false := by
    decide +kernel
  simp [(Strategy.yields_iff rfl).mp yields] at some

/-- Every extraction is well formed, unless a refused manifest interrupts it: then,
and only then, it ends with a fault and has no screens at all.

Proof: whatever strategies can be asked decide some screens, and the search gives
what they decide. Decided screens are final ones of a single strategy, so that they
are sound, canonical and distinct, and a fallback at the end of the chain always
has a final screen. -/
theorem extraction_is_well_formed (reading : Script.Reading) (files : List SourceFile)
    (settings : Settings) (hints : Option Framework) :
    (Interrupted reading files settings hints →
      (extractScreens reading files settings hints).Answers (.error .malformedNumber)) ∧
    (¬ Interrupted reading files settings hints →
      ∃ extraction, (extractScreens reading files settings hints).Answers (.ok extraction) ∧
        WellFormed reading files settings hints extraction) := by
  refine ⟨extractScreens_fault, fun complete => ?_⟩
  obtain ⟨framework, screens, guided, decided⟩ := exists_guided_decided complete
  exact ⟨⟨screens, framework⟩, extractScreens_answers guided decided,
    wellFormed_of_decided guided decided⟩

/-- A refused manifest alone interrupts the extraction. Beside it, a page of given
frameworks is extracted all the same. -/
theorem samples_are_well_formed :
    (Interrupted (fun _ _ => none) [refusedManifest] {} none ∧
      (extractScreens (fun _ _ => none) [refusedManifest] {} none).Answers
        (.error .malformedNumber)) ∧
    (¬ Interrupted (fun _ _ => none) [refusedManifest, samplePage] {} (some sampleFramework) ∧
      ∃ extraction,
        (extractScreens (fun _ _ => none) [refusedManifest, samplePage] {}
          (some sampleFramework)).Answers (.ok extraction) ∧
        WellFormed (fun _ _ => none) [refusedManifest, samplePage] {} (some sampleFramework)
          extraction) := by
  have interrupted : Interrupted (fun _ _ => none) [refusedManifest] {} none :=
    ⟨unreadable_refusedManifest [], by simp⟩
  exact ⟨⟨interrupted, (extraction_is_well_formed _ _ _ _).1 interrupted⟩,
    sample_not_interrupted, (extraction_is_well_formed _ _ _ _).2 sample_not_interrupted⟩

/-- The fallback to a single page gives no screen when the manifest is refused, although it is
switched on by default. -/
theorem refused_manifest_leaves_no_screen :
    ({} : Settings).singlePageFallback = true ∧
      (extractScreens (fun _ _ => none) [refusedManifest] {} none).Answers
        (.error .malformedNumber) :=
  ⟨rfl, extractScreens_fault ⟨unreadable_refusedManifest [], by simp⟩⟩

end Extraction

end ScreenAtlas
