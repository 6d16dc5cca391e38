import ScreenAtlas.Proofs.KeptScreens
import ScreenAtlas.Proofs.RouteBindings
import ScreenAtlas.Proofs.RouterPrecedence

/-!
# Wildcards among the screens

A route whose path is the wildcard leads nowhere in particular. Every pass over a source
leaves such routes out before their paths are put into normal form: what a source lists
are exactly the routes that its other bindings make.

Finalization has a guard against wildcards too, but the routes that the settings list come
to it in normal form, and the normal form of the wildcard is the root. So each listed path
has one screen, the wildcard among them, and the screen of a listed wildcard stands at the
root. No other screen of an extraction stems from a wildcard.
-/
namespace ScreenAtlas

/-! ## Screens of listed routes -/

/-- Keeps a listed route unless one with its path is kept already. -/
def FallbackRoute.addFirst (kept : List FallbackRoute) (route : FallbackRoute) :
    List FallbackRoute :=
  if (kept.map FallbackRoute.path).contains route.path then kept else kept ++ [route]

/-- The listed routes of which each path is kept once, with its first name. -/
def FallbackRoute.firsts (routes : List FallbackRoute) : List FallbackRoute :=
  routes.foldl addFirst []

/-- A listed route is kept exactly when no route with its path is kept already, so listed routes
are gathered by their paths. -/
theorem FallbackRoute.gathersBy_addFirst : GathersBy FallbackRoute.path addFirst := by
  exact GathersBy.of_test (fun _ _ => rfl) fun _ _ => List.contains_iff_mem

/-- The routes that are kept have the distinct ones among the listed paths, in the order in which
they first occur. -/
theorem FallbackRoute.firsts_paths (routes : List FallbackRoute) :
    (firsts routes).map path = Route.distinct (routes.map path) := by
  rw [Route.distinct, List.foldl_map, firsts]
  refine (List.foldl_hom (List.map path) ?_).symm
  intro kept route
  unfold addFirst Route.addNew
  split <;> simp

namespace Screen

/-- The final screen of a listed route, whose path has been normalized twice. -/
def ofListed (route : FallbackRoute) : Screen :=
  { id := "screen:fallback:" ++ route.path
    name := route.name
    path := Route.normalize (Route.normalize route.path)
    filePath := "unknown"
    kind := "page"
    framework := "fallback" }

/-- Finalization adds the screen of a listed route exactly when its path is new.

Proof: a path in normal form is rooted, so the guard against wildcards does not refuse it.
What remains is that identifiers are equal exactly when the listed paths are. -/
theorem addFinal_ofListed (kept : List FallbackRoute) (route : FallbackRoute) :
    addFinal (kept.map ofListed) { ofListed route with path := Route.normalize route.path } =
      (FallbackRoute.addFirst kept route).map ofListed := by
  have rooted := Route.trimmed_ne_wildcard (Route.normalize_rooted route.path)
  have taken : (kept.map ofListed).any (fun present => present.id == (ofListed route).id) =
      (kept.map FallbackRoute.path).contains route.path := by
    rw [Bool.eq_iff_iff, List.any_eq_true, List.contains_iff_mem]
    constructor
    · rintro ⟨_, member, same⟩
      obtain ⟨present, listed, rfl⟩ := List.mem_map.mp member
      have paths := (String.append_right_inj "screen:fallback:").mp (beq_iff_eq.mp same)
      exact List.mem_map.mpr ⟨present, listed, paths⟩
    · intro member
      obtain ⟨present, listed, paths⟩ := List.mem_map.mp member
      refine ⟨ofListed present, List.mem_map_of_mem listed, beq_iff_eq.mpr ?_⟩
      exact (String.append_right_inj "screen:fallback:").mpr paths
  unfold addFinal FallbackRoute.addFirst
  rw [if_neg fun wild => rooted (beq_iff_eq.mp wild), taken]
  split
  · rfl
  · rw [List.map_append]
    rfl

/-- Every listed path has one final screen, that of the first route with it. The induction is on
the routes, for any that are kept already. -/
theorem finalize_ofFallbackRoutes (routes : List FallbackRoute) :
    finalize (ofFallbackRoutes routes) = (FallbackRoute.firsts routes).map ofListed := by
  have gathered (kept : List FallbackRoute) :
      (ofFallbackRoutes routes).foldl addFinal (kept.map ofListed) =
        (routes.foldl FallbackRoute.addFirst kept).map ofListed := by
    induction routes generalizing kept with
    | nil => rfl
    | cons route rest inductionHypothesis =>
      have spelled : ofFallbackRoutes (route :: rest) =
          { ofListed route with path := Route.normalize route.path } :: ofFallbackRoutes rest := rfl
      rw [spelled, List.foldl_cons, addFinal_ofListed, List.foldl_cons]
      exact inductionHypothesis _
  exact gathered []

/-- The screen of a listed wildcard stands at the root, because the first normalization turns the
wildcard into the root and the second keeps it. -/
theorem path_ofListed_wildcard {route : FallbackRoute}
    (wild : trimmed route.path = Route.wildcard) : (ofListed route).path = "/" := by
  have trimmed : Text.trim route.path.toList = ['*'] := String.ofList_inj.mp wild
  have root : Route.normalize route.path = "/" := by
    simp [Route.normalize, Route.normalizeChars, trimmed]
  have twice : (ofListed route).path = Route.normalize (Route.normalize route.path) := rfl
  rw [twice, root]
  decide

end Screen

/-! ## The origins of extracted screens -/

/-- The strategy looks for declared routes or takes listed ones. -/
def Strategy.takesRoutes : Strategy → Bool
  | declaredRoutes _ => true
  | fallbackRoutes _ => true
  | _ => false

namespace Extraction

variable {reading : Script.Reading} {files : List SourceFile} {settings : Settings}
  {hints : Option Framework}

/-- What a screen of an extraction stems from: a binding in one of the files whose path is
no wildcard, a route that the settings list, or a strategy that takes no routes. -/
inductive Origin (reading : Script.Reading) (files : List SourceFile) (settings : Settings)
    (screen : Screen) : Prop where
  | declared {file : SourceFile} {links : List String} {binding : Route.Binding}
      {target : Route.Target} (present : file ∈ files)
      (stems : Route.Stems (Route.layoutWrappers ++ settings.layoutWrappers) file.content
        (reading.parsed? (Script.dialectOf file.path) file.content) binding target)
      (ordinary : binding.path ≠ Route.wildcard)
      (shown : screen = (Screen.ofRoute file links target).settled)
  | listed {route : FallbackRoute} (present : route ∈ settings.fallbackRoutes)
      (shown : screen = Screen.ofListed route)
  | elsewhere {strategy : Strategy} {screens : List Screen} (apart : strategy.takesRoutes = false)
      (yields : strategy.Yields reading files screens) (found : screen ∈ screens)

/-- A strategy of the chain that takes routes takes those that files declare, with the
layout wrappers of the settings, or those that the settings list. -/
theorem mem_chain_cases {framework : Framework} {strategy : Strategy}
    (member : strategy ∈ Strategy.chain framework settings) :
    strategy = .declaredRoutes (Route.layoutWrappers ++ settings.layoutWrappers) ∨
      strategy = .fallbackRoutes settings.fallbackRoutes ∨ strategy.takesRoutes = false := by
  unfold Strategy.chain Strategy.ofFramework at member
  cases strategy with
  | declaredRoutes layouts => exact Or.inl (by grind)
  | fallbackRoutes routes => exact Or.inr (Or.inl (by grind))
  | _ => exact Or.inr (Or.inr rfl)

/-- The screens of a strategy of the chain have origins: those of declared routes stem from
bindings, and those of listed routes from the settings. -/
theorem origin_of_yields {framework : Framework} {strategy : Strategy} {screens : List Screen}
    (member : strategy ∈ Strategy.chain framework settings)
    (yields : strategy.Yields reading files screens) :
    ∀ screen ∈ screens, Origin reading files settings screen := by
  intro screen found
  rcases mem_chain_cases member with rfl | rfl | apart
  · rw [Strategy.yields_iff rfl] at yields
    rw [← yields] at found
    obtain ⟨origin, listed, shown⟩ := Screen.exists_of_mem_finalize screen found
    obtain ⟨file, present, links, target, recovered, rfl⟩ :=
      Screen.exists_of_mem_declaredRoutes listed
    obtain ⟨binding, stems, makes⟩ := Route.mem_recover_iff.mp recovered
    exact .declared present stems makes.1 shown
  · rw [Strategy.yields_iff rfl, Screen.finalize_ofFallbackRoutes] at yields
    rw [← yields] at found
    obtain ⟨route, kept, rfl⟩ := List.mem_map.mp found
    exact .listed (FallbackRoute.gathersBy_addFirst.gathers.foldl_subset _ kept) rfl
  · exact .elsewhere apart yields found

/-- A strategy of the chain with the label of the listed routes takes these, as no other strategy
carries that label. -/
theorem eq_fallbackRoutes_of_label {framework : Framework} {strategy : Strategy}
    (member : strategy ∈ Strategy.chain framework settings)
    (labelled : strategy.label = "fallback") :
    strategy = .fallbackRoutes settings.fallbackRoutes := by
  rcases mem_chain_cases member with rfl | same | apart
  · exact absurd labelled (by simp [Strategy.label, Framework.router])
  · exact same
  · cases strategy with
    | declaredRoutes | fallbackRoutes => cases apart
    | _ => exact absurd labelled (by decide)

/-- No wildcard becomes a screen but those that the settings list. Whatever the files, the
parser, the settings and the hints are, every screen of an extraction stems from a binding
whose path is no wildcard, from a listed route, or from a strategy that takes no routes. If
one is the screen of a listed route, all are, one for each listed path. Of any listed
routes the final screens are those of the first route with each path, wildcards included,
and the screen of a wildcard stands at the root.

Proof: the passes over a source drop wildcards while their paths are as declared, and the
listed ones come to the guard in normal form, where none is left to be refused. -/
theorem only_listed_wildcards_have_screens (reading : Script.Reading) (files : List SourceFile)
    (settings : Settings) (hints : Option Framework) (extraction : Extraction)
    (answered : (extractScreens reading files settings hints).Answers (.ok extraction)) :
    (∀ screen ∈ extraction.screens, Origin reading files settings screen) ∧
    (∀ screen ∈ extraction.screens, screen.framework = "fallback" →
      extraction.screens =
        (FallbackRoute.firsts settings.fallbackRoutes).map Screen.ofListed) ∧
    ∀ routes : List FallbackRoute,
      (Strategy.fallbackRoutes routes).Yields reading files
          ((FallbackRoute.firsts routes).map Screen.ofListed) ∧
        (FallbackRoute.firsts routes).map FallbackRoute.path =
          Route.distinct (routes.map FallbackRoute.path) ∧
        ∀ route ∈ routes, trimmed route.path = Route.wildcard →
          (Screen.ofListed route).path = "/" := by
  obtain ⟨_, decided⟩ := decided_of_answers answered
  refine ⟨?_, ?_, ?_⟩
  · intro screen found
    obtain ⟨strategy, member, yields⟩ := decided.exists_yields found
    exact origin_of_yields member yields screen found
  · intro screen found labelled
    obtain ⟨strategy, member, yields⟩ := decided.exists_yields found
    have label := (yields.labelled screen found).symm.trans labelled
    obtain rfl := eq_fallbackRoutes_of_label member label
    rw [Strategy.yields_iff rfl, Screen.finalize_ofFallbackRoutes] at yields
    exact yields.symm
  · intro routes
    refine ⟨?_, FallbackRoute.firsts_paths routes, ?_⟩
    · rw [Strategy.yields_iff rfl]
      exact Screen.finalize_ofFallbackRoutes routes
    · intro route _ wild
      exact Screen.path_ofListed_wildcard wild

/-- Two files, one that declares a route and one that declares a wildcard. -/
def wildcardFiles : List SourceFile :=
  [⟨"src/App.tsx", "<Route path='/a' element=\x7b<A />\x7d />"⟩,
    ⟨"src/Rest.tsx", "<Route path=' * ' element=\x7b<B />\x7d />"⟩]

/-- Settings with a wildcard among the listed routes. -/
def wildcardSettings : Settings :=
  { singlePageFallback := false
    fallbackRoutes := [⟨"/home", "Home"⟩, ⟨" * ", "Any"⟩, ⟨"/home", "Again"⟩] }

/-- The framework of declared routes. -/
def declaredFramework : Framework := { detected := [Framework.router] }

/-- The screens of the two files are decided by their declared routes, since that strategy comes
first and has screens. -/
theorem decided_wildcardFiles :
    Strategy.Decided (fun _ _ => none) wildcardFiles
      (Strategy.chain declaredFramework wildcardSettings)
      (Screen.finalize (Screen.declaredRoutes (fun _ _ => none) Route.layoutWrappers
        wildcardFiles)) := by
  refine Or.inr ⟨[], .declaredRoutes Route.layoutWrappers, Strategy.general wildcardSettings,
    by rfl, by simp, (Strategy.yields_iff rfl).mpr rfl, ?_,
    Screen.sound_of_mem_finalize (Screen.sound_declaredRoutes _ _ _)⟩
  exact List.isEmpty_eq_false_iff.mp (by decide +kernel)

/-- Of the routes that the files declare only the other one has a screen. Of the listed
routes the wildcard has one, too. -/
theorem wildcardFiles_have_one_screen :
    ∃ extraction, (extractScreens (fun _ _ => none) wildcardFiles wildcardSettings
        (some declaredFramework)).Answers (.ok extraction) ∧
      extraction.screens.map Screen.id = ["screen:A:/a"] ∧
      (∀ screen ∈ extraction.screens,
        Origin (fun _ _ => none) wildcardFiles wildcardSettings screen) ∧
      (Strategy.fallbackRoutes wildcardSettings.fallbackRoutes).Yields (fun _ _ => none)
        wildcardFiles [Screen.ofListed ⟨"/home", "Home"⟩, Screen.ofListed ⟨" * ", "Any"⟩] := by
  have answered : (extractScreens (fun _ _ => none) wildcardFiles wildcardSettings
      (some declaredFramework)).Answers (.ok ⟨_, declaredFramework⟩) :=
    extractScreens_answers rfl decided_wildcardFiles
  obtain ⟨origins, _, fallback⟩ := only_listed_wildcards_have_screens _ _ _ _ _ answered
  refine ⟨_, answered, by decide +kernel, origins, ?_⟩
  exact (fallback wildcardSettings.fallbackRoutes).1

/-- Without files the wildcard that the settings list is a screen of the extraction, and it stands
at the root. -/
theorem listed_wildcard_has_screen :
    ((extractScreens (fun _ _ => none) [] wildcardSettings none).outcome.1.toOption.map
      fun extraction => extraction.screens.map fun screen => (screen.id, screen.path)) =
      some [("screen:fallback:/home", "/home"), ("screen:fallback: * ", "/")] := by
  decide +kernel

end Extraction

end ScreenAtlas
