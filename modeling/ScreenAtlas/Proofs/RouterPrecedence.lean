import ScreenAtlas.Proofs.ReportedRouters

/-!
# Which of the reported routers is followed

Several routers can be reported for the same files. The chain of strategies tries
only the one that takes precedence; when that one finds nothing, the others are not
asked and the general strategies take over. Whether this happens can be told from
the files, and it is the only way in which a reported router that finds screens is
given up.
-/
namespace ScreenAtlas

namespace Strategy

/-- The strategies of the four routers in the order of precedence. -/
def routers (settings : Settings) : List Strategy :=
  [appPages, pageModules, declaredRoutes (Route.layoutWrappers ++ settings.layoutWrappers),
    pageComponents]

/-- The strategies of the routers that are reported. -/
def reported (framework : Framework) (settings : Settings) : List Strategy :=
  (routers settings).filter fun strategy => strategy.label ∈ framework.detected

/-- A strategy is reported exactly when it is that of a router and its label is among those
detected. -/
theorem mem_reported {framework : Framework} {settings : Settings} {strategy : Strategy} :
    strategy ∈ reported framework settings ↔
      strategy ∈ routers settings ∧ strategy.label ∈ framework.detected := by
  simp [reported]

/-- The strategies that are tried whatever is reported. -/
def general (settings : Settings) : List Strategy :=
  [stateViews, hashViews, commands, placedFiles] ++
  (if settings.singlePageFallback then [singlePage] else []) ++
  (if settings.fallbackRoutes.isEmpty then [] else [fallbackRoutes settings.fallbackRoutes])

/-- The chain of strategies is the one for the frameworks and behind it the general ones, whatever
is detected. -/
theorem chain_eq_general (framework : Framework) (settings : Settings) :
    chain framework settings = ofFramework framework settings ++ general settings := by
  simp [chain, general]

/-- A general strategy does not carry the label of a router. There are six labels on one side and
four on the other, all different. -/
theorem label_ne_of_general {settings : Settings} {strategy router : Strategy}
    (member : strategy ∈ general settings) (routed : router ∈ routers settings) :
    strategy.label ≠ router.label := by
  have named : strategy.label ∈
      ["react-state", "react-hash", "cli-commander", "heuristic", "single-page", "fallback"] := by
    unfold general at member
    grind [label]
  have other : router.label ∈
      [Framework.appRouter, Framework.pagesRouter, Framework.router, Framework.nuxt] := by
    unfold routers at routed
    grind [label]
  have apart : ∀ left ∈ ["react-state", "react-hash", "cli-commander", "heuristic", "single-page",
      "fallback"], ∀ right ∈ [Framework.appRouter, Framework.pagesRouter, Framework.router,
      Framework.nuxt], left ≠ right := by decide
  exact apart _ named _ other

/-- The screens come from a router that is reported: they are all its final screens,
there are some, and they carry its label. -/
def FromReported (reading : Script.Reading) (files : List SourceFile) (settings : Settings)
    (framework : Framework) (screens : List Screen) : Prop :=
  ∃ strategy ∈ reported framework settings, strategy.Yields reading files screens ∧
    screens ≠ [] ∧ ∀ screen ∈ screens, screen.framework = strategy.label

/-- The router that takes precedence finds nothing: no page stands below an `app`
folder, and either the `pages` folder holds modules but no ordinary pages, or it
holds no modules, declared routes are reported and there are none. -/
def Concealed (reading : Script.Reading) (files : List SourceFile) (settings : Settings)
    (framework : Framework) : Prop :=
  (∀ file ∈ files, RouteFile.appRoute? file.path = none) ∧
  ((∃ file ∈ files, RouteFile.pagesRoute? file.path ≠ none) ∧
      (∀ file ∈ files, Screen.ordinaryPage? file.path = none) ∨
    (∀ file ∈ files, RouteFile.pagesRoute? file.path = none) ∧
      Framework.router ∈ framework.detected ∧
      ∀ file ∈ files, Screen.routesOfFile reading
        (Route.layoutWrappers ++ settings.layoutWrappers) file = [])

section Followed

variable {reading : Script.Reading} {files : List SourceFile} {settings : Settings}
  {framework : Framework}

section Concealed

variable (detected : (Framework.detect files).Answers (.ok framework))

include detected

/-- Where the router by `app` folders is reported nothing is concealed: it is
reported for the pages that it finds. -/
theorem not_concealed_of_appRouter (app : Framework.appRouter ∈ framework.detected) :
    ¬ Concealed reading files settings framework := by
  obtain ⟨file, member, present⟩ := (Framework.appRouter_mem_detected detected).mp app
  rintro ⟨none, _⟩
  exact present (none file member)

/-- Next in precedence is the router by the `pages` folder. It conceals the others exactly when no
file is an ordinary page, so that all modules there are special. -/
theorem concealed_iff_of_pagesRouter (noApp : Framework.appRouter ∉ framework.detected)
    (pages : Framework.pagesRouter ∈ framework.detected) :
    Concealed reading files settings framework ↔
      ∀ file ∈ files, Screen.ordinaryPage? file.path = none := by
  have present := (Framework.pagesRouter_mem_detected detected).mp pages
  have absent : ∀ file ∈ files, RouteFile.appRoute? file.path = none := by
    simpa [Framework.appRouter_mem_detected detected] using noApp
  constructor
  · rintro ⟨_, ⟨_, special⟩ | ⟨none, _⟩⟩
    · exact special
    · obtain ⟨file, member, some⟩ := present
      exact absurd (none file member) some
  · intro special
    exact ⟨absent, Or.inl ⟨present, special⟩⟩

/-- When declared routes are reported and no router by folders is, they conceal the router by
components exactly when no file declares a route. -/
theorem concealed_iff_of_router (noApp : Framework.appRouter ∉ framework.detected)
    (noPages : Framework.pagesRouter ∉ framework.detected)
    (router : Framework.router ∈ framework.detected) :
    Concealed reading files settings framework ↔ ∀ file ∈ files, Screen.routesOfFile reading
      (Route.layoutWrappers ++ settings.layoutWrappers) file = [] := by
  have absent : ∀ file ∈ files, RouteFile.appRoute? file.path = none := by
    simpa [Framework.appRouter_mem_detected detected] using noApp
  have none : ∀ file ∈ files, RouteFile.pagesRoute? file.path = none := by
    simpa [Framework.pagesRouter_mem_detected detected] using noPages
  constructor
  · rintro ⟨_, ⟨⟨file, member, some⟩, _⟩ | ⟨_, _, undeclared⟩⟩
    · exact absurd (none file member) some
    · exact undeclared
  · intro undeclared
    exact ⟨absent, Or.inr ⟨none, router, undeclared⟩⟩

/-- The router by components is the last and conceals nothing: there are no modules in a `pages`
folder, and declared routes are not reported. -/
theorem not_concealed_of_last (noPages : Framework.pagesRouter ∉ framework.detected)
    (noRouter : Framework.router ∉ framework.detected) :
    ¬ Concealed reading files settings framework := by
  rintro ⟨_, ⟨present, _⟩ | ⟨_, router, _⟩⟩
  · exact noPages ((Framework.pagesRouter_mem_detected detected).mpr present)
  · exact noRouter router

/-- When some reported router finds screens, the one that takes precedence finds
nothing exactly when the files conceal the others.

Proof: by which routers are reported. Each of them finds screens exactly when the
files hold what it looks for. If only the last one is left, it is the one that finds
screens. -/
theorem exists_preceding
    (productive : ∃ strategy ∈ reported framework settings, ¬ strategy.Yields reading files []) :
    ∃ first ∈ reported framework settings, ofFramework framework settings = [first] ∧
      (first.Yields reading files [] ↔ Concealed reading files settings framework) := by
  simp only [ofFramework, Framework.includes_iff detected]
  by_cases app : Framework.appRouter ∈ framework.detected
  · refine ⟨appPages, mem_reported.mpr ⟨by simp [routers], app⟩, if_pos app, ?_⟩
    rw [yields_iff rfl, Screen.appPages, Screen.finalize_ofPageFiles_eq_nil_iff]
    apply iff_of_false
    · simpa using (Framework.appRouter_mem_detected detected).mp app
    · exact not_concealed_of_appRouter detected app
  rw [if_neg app]
  by_cases pages : Framework.pagesRouter ∈ framework.detected
  · refine ⟨pageModules, mem_reported.mpr ⟨by simp [routers], pages⟩, if_pos pages, ?_⟩
    rw [yields_iff rfl, Screen.pageModules, Screen.finalize_ofPageFiles_eq_nil_iff]
    exact (concealed_iff_of_pagesRouter detected app pages).symm
  rw [if_neg pages]
  by_cases router : Framework.router ∈ framework.detected
  · refine ⟨declaredRoutes (Route.layoutWrappers ++ settings.layoutWrappers),
      mem_reported.mpr ⟨by simp [routers], router⟩, if_pos router, ?_⟩
    rw [yields_iff rfl, Screen.finalize_declaredRoutes_eq_nil_iff]
    exact (concealed_iff_of_router detected app pages router).symm
  rw [if_neg router]
  obtain ⟨strategy, listed, finds⟩ := productive
  obtain ⟨routed, named⟩ := mem_reported.mp listed
  obtain rfl : strategy = pageComponents := by
    simp only [routers, List.mem_cons, List.not_mem_nil, or_false] at routed
    rcases routed with rfl | rfl | rfl | rfl
    · exact absurd named app
    · exact absurd named pages
    · exact absurd named router
    · rfl
  exact ⟨pageComponents, listed, if_pos named,
    iff_of_false finds (not_concealed_of_last detected pages router)⟩

end Concealed

/-- Behind a strategy without screens the general strategies decide, and their
screens carry no label of a router. -/
theorem Decided.general {first : Strategy} {screens : List Screen}
    (decided : Decided reading files (first :: general settings) screens)
    (empty : first.Yields reading files []) :
    ∀ screen ∈ screens, ∀ router ∈ routers settings, screen.framework ≠ router.label := by
  intro screen member router routed
  rcases decided with ⟨rfl, _⟩ | ⟨before, decider, after, split, _, yields, nonempty, sound⟩
  · cases member
  · cases before with
    | nil =>
      obtain ⟨rfl, _⟩ := List.cons.inj split
      exact absurd (yields.unique empty) nonempty
    | cons head others =>
      have listed : decider ∈ Strategy.general settings := by
        rw [(List.cons.inj split).2]
        exact List.mem_append_right _ List.mem_cons_self
      rw [(sound screen member).labelled]
      exact label_ne_of_general listed routed

/-- A chain that starts with a reported router gives screens of a reported router
exactly when that first one has any. -/
theorem Decided.fromReported_iff {first : Strategy} {screens : List Screen}
    (decided : Decided reading files (first :: Strategy.general settings) screens)
    (listed : first ∈ reported framework settings) :
    FromReported reading files settings framework screens ↔ ¬ first.Yields reading files [] := by
  constructor
  · rintro ⟨strategy, member, _, nonempty, labelled⟩ empty
    obtain ⟨screen, others, rfl⟩ := List.exists_cons_of_ne_nil nonempty
    exact decided.general empty screen List.mem_cons_self strategy (mem_reported.mp member).1
      (labelled screen List.mem_cons_self)
  · intro some
    rcases decided with ⟨_, all⟩ | ⟨before, decider, after, split, skipped, yields, nonempty, _⟩
    · exact absurd (all first List.mem_cons_self) some
    · cases before with
      | nil =>
        obtain ⟨rfl, _⟩ := List.cons.inj split
        exact ⟨first, listed, yields, nonempty, yields.labelled⟩
      | cons head others =>
        obtain ⟨rfl, _⟩ := List.cons.inj split
        exact absurd (skipped first List.mem_cons_self) some

end Followed

end Strategy

namespace Extraction

open Strategy

/-- When the strategy of some reported router has screens, the screens of the
extraction come from a reported router unless the files conceal it. If they do, no
screen of the extraction carries the label of a router.

Proof: the manifest has been read for the detection, so that the chain decides some
screens. Of the reported routers only the first is in the chain, and all that
follows is general. -/
theorem reported_router_is_followed_unless_concealed (reading : Script.Reading)
    (files : List SourceFile) (settings : Settings) (framework : Framework)
    (detected : (Framework.detect files).Answers (.ok framework))
    (productive : ∃ strategy ∈ reported framework settings, ∃ screens,
      strategy.Yields reading files screens ∧ screens ≠ []) :
    ∃ screens, (extractScreens reading files settings none).Answers (.ok ⟨screens, framework⟩) ∧
      (FromReported reading files settings framework screens ↔
        ¬ Concealed reading files settings framework) ∧
      (Concealed reading files settings framework → ∀ screen ∈ screens,
        ∀ router ∈ routers settings, screen.framework ≠ router.label) := by
  have readable : ¬ Manifest.Unreadable files := by
    intro unreadable
    cases detected.unique (Framework.detect_fault unreadable)
  obtain ⟨screens, decided⟩ := exists_decided reading files (chain framework settings)
    fun _ _ _ => readable
  refine ⟨screens, extractScreens_answers detected decided, ?_⟩
  have some : ∃ strategy ∈ reported framework settings, ¬ strategy.Yields reading files [] := by
    obtain ⟨strategy, listed, found, yields, nonempty⟩ := productive
    exact ⟨strategy, listed, fun empty => nonempty (yields.unique empty)⟩
  obtain ⟨first, listed, preceding, concealed⟩ := exists_preceding detected some
  rw [chain_eq_general, preceding] at decided
  rw [← concealed]
  exact ⟨decided.fromReported_iff listed, decided.general⟩

/-- Without a manifest the detection cannot fail and looks at the files alone, with no
dependencies. -/
theorem detect_of_no_manifest {files : List SourceFile} (absent : Manifest.find? files = none) :
    (Framework.detect files).Answers (.ok (Framework.ofSignals [] files)) := by
  unfold Framework.detect Manifest.consult
  rw [absent]
  exact (Journal.answers_pure []).bind ((Journal.answers_leave _).bind (Journal.answers_pure _))

/-- A page below an `app` folder. -/
def pageBelowApp : List SourceFile := [⟨"app/page.tsx", ""⟩]

/-- A page by its place, with an outlet that reads like a declared route. -/
def pageWithOutlet : List SourceFile := [⟨"pages/index.vue", "<RouterView />"⟩]

/-- The page with the outlet is concealed: the word in its text reports declared
routes, and there are none. -/
theorem concealed_pageWithOutlet :
    Concealed (fun _ _ => none) pageWithOutlet {} (Framework.ofSignals [] pageWithOutlet) := by
  refine ⟨by decide +kernel, Or.inr ⟨by decide +kernel, by decide +kernel, ?_⟩⟩
  intro file member
  obtain rfl := List.mem_singleton.mp member
  exact List.isEmpty_iff.mp (by decide +kernel)

/-- For the page below `app` the extraction follows a reported router, and for the page with the
outlet it does not. So both sides of the equivalence occur. -/
theorem samples_follow_reported_router :
    (∃ screens framework,
      (extractScreens (fun _ _ => none) pageBelowApp {} none).Answers (.ok ⟨screens, framework⟩) ∧
      FromReported (fun _ _ => none) pageBelowApp {} framework screens) ∧
    (∃ screens framework,
      (extractScreens (fun _ _ => none) pageWithOutlet {} none).Answers
        (.ok ⟨screens, framework⟩) ∧
      ¬ FromReported (fun _ _ => none) pageWithOutlet {} framework screens) := by
  constructor
  · obtain ⟨screens, answered, followed, _⟩ := reported_router_is_followed_unless_concealed
      (fun _ _ => none) pageBelowApp {} _ (detect_of_no_manifest (by decide +kernel))
      ⟨appPages, mem_reported.mpr ⟨by simp [routers], by decide +kernel⟩, _,
        (yields_iff rfl).mpr rfl, List.isEmpty_eq_false_iff.mp (by decide +kernel)⟩
    refine ⟨screens, _, answered, followed.mpr ?_⟩
    rintro ⟨none, _⟩
    exact absurd (none _ List.mem_cons_self) (by decide +kernel)
  · obtain ⟨screens, answered, followed, _⟩ := reported_router_is_followed_unless_concealed
      (fun _ _ => none) pageWithOutlet {} _ (detect_of_no_manifest (by decide +kernel))
      ⟨pageComponents, mem_reported.mpr ⟨by simp [routers], by decide +kernel⟩, _,
        (yields_iff rfl).mpr rfl, List.isEmpty_eq_false_iff.mp (by decide +kernel)⟩
    exact ⟨screens, _, answered, fun given => followed.mp given concealed_pageWithOutlet⟩

/-- The router by components is reported and finds the page with the outlet, but the
extraction falls back to a single page. -/
theorem pageWithOutlet_is_given_up :
    (Screen.finalize (Screen.pageComponents (fun _ _ => none) pageWithOutlet)).map
        (fun screen => (screen.path, screen.framework)) = [("/", Framework.nuxt)] ∧
      ((extractScreens (fun _ _ => none) pageWithOutlet {} none).outcome.1.toOption.map
        fun extraction => (extraction.framework.detected,
          extraction.screens.map Screen.framework)) =
        some ([Framework.nuxt, Framework.router], ["single-page"]) := by
  decide +kernel

end Extraction

end ScreenAtlas
