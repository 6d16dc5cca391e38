import ScreenAtlas.Proofs.ExtractedScreens
import ScreenAtlas.Proofs.Placement

/-!
# What is reported of routers and what routers find

A label is reported when one of the signals carries it, and the first label found
is the primary one. The two routers that go by the places of modules are reported
for such files only. A router finds final screens as soon as it finds any, since
the paths of pages and of declared routes are rooted and no wildcard among them is
left to be dropped.
-/
namespace ScreenAtlas

namespace Framework

/-- A signal adds its label to those detected and keeps the others. -/
theorem mem_detected_addSignal {framework : Framework} {signal : Signal} {label : String} :
    label ∈ (addSignal framework signal).detected ↔
      label ∈ framework.detected ∨ signal.label = label := by
  unfold addSignal
  dsimp only
  split
  · next listed =>
    constructor
    · exact Or.inl
    · rintro (earlier | rfl)
      · exact earlier
      · exact List.contains_iff_mem.mp listed
  · rw [List.mem_append, List.mem_singleton, eq_comm (a := label)]

/-- Signals add exactly their labels to those detected before. The induction is on the signals. -/
theorem mem_detected_foldl {signals : List Signal} {framework : Framework} {label : String} :
    label ∈ (signals.foldl addSignal framework).detected ↔
      label ∈ framework.detected ∨ ∃ signal ∈ signals, signal.label = label := by
  induction signals generalizing framework with
  | nil => simp
  | cons signal rest inductionHypothesis =>
    rw [List.foldl_cons, inductionHypothesis, mem_detected_addSignal, or_assoc]
    simp

/-- The primary label is the first one that is detected, because each signal sets it anew to the
first label. -/
theorem primary_ofSignals (dependencies : Manifest.Versions) (files : List SourceFile) :
    (ofSignals dependencies files).primary = (ofSignals dependencies files).detected.head? := by
  unfold ofSignals
  refine List.foldlRecOn (motive := fun framework : Framework =>
    framework.primary = framework.detected.head?) _ addSignal ?_ ?_
  · rfl
  · intro framework _ signal _
    rfl

/-- When detection answers with frameworks, they are those that some dependencies and the files
signal. -/
theorem exists_ofSignals {files : List SourceFile} {framework : Framework}
    (detected : (detect files).Answers (.ok framework)) :
    ∃ dependencies, framework = ofSignals dependencies files := by
  have ended : (detect files).Ends framework := ⟨[], detected []⟩
  obtain ⟨members, _, ended⟩ := ended.of_bind
  obtain ⟨_, _, ended⟩ := ended.of_bind
  exact ⟨Manifest.dependencies members, ended.eq_of_pure.symm⟩

section Detected

variable {files : List SourceFile} {framework : Framework}

/-- A detected label takes part in the choice of a strategy exactly when it is
reported. -/
theorem includes_iff (detected : (detect files).Answers (.ok framework)) (label : String) :
    framework.includes label = true ↔ label ∈ framework.detected := by
  obtain ⟨dependencies, rfl⟩ := exists_ofSignals detected
  rw [includes, primary_ofSignals, Bool.or_eq_true, List.contains_iff_mem, beq_iff_eq]
  constructor
  · rintro (listed | first)
    · exact listed
    · exact List.mem_of_mem_head? first
  · exact Or.inl

/-- A label that no dependency signals is reported exactly when the files signal it, whatever the
manifest says. -/
theorem mem_detected_of_files {label : String}
    (detected : (detect files).Answers (.ok framework))
    (absent : ∀ entry ∈ dependencySignals, entry.2.label ≠ label) :
    label ∈ framework.detected ↔ ∃ signal ∈ fileSignals files, signal.label = label := by
  obtain ⟨dependencies, rfl⟩ := exists_ofSignals detected
  rw [ofSignals, mem_detected_foldl]
  constructor
  · rintro (none | ⟨signal, member, rfl⟩)
    · cases none
    · rcases List.mem_append.mp member with depended | placed
      · obtain ⟨entry, listed, found⟩ := List.mem_filterMap.mp depended
        obtain ⟨_, same⟩ := Option.ite_none_right_eq_some.mp found
        exact absurd (congrArg Signal.label (Option.some.inj same)) (absent entry listed)
      · exact ⟨signal, placed, rfl⟩
  · rintro ⟨signal, member, same⟩
    exact Or.inr ⟨signal, List.mem_append_right _ member, same⟩

/-- Signals that depend on a condition carry a label exactly when the condition holds and one of
them has this label. -/
theorem exists_signal_if {condition : Bool} {signals : List Signal} {label : String} :
    (∃ signal ∈ (if condition then signals else []), signal.label = label) ↔
      condition = true ∧ ∃ signal ∈ signals, signal.label = label := by
  cases condition with
  | true => simp
  | false => simp

/-- The router by `app` folders is reported exactly when there are pages below such folders, since
no dependency signals it. -/
theorem appRouter_mem_detected (detected : (detect files).Answers (.ok framework)) :
    appRouter ∈ framework.detected ↔ ∃ file ∈ files, RouteFile.appRoute? file.path ≠ none := by
  rw [mem_detected_of_files detected (by decide)]
  simp only [fileSignals, List.mem_append, or_and_right, exists_or, exists_signal_if]
  simp [appRouter, pagesRouter, nuxt, router, Option.isSome_iff_ne_none]

/-- The router by the `pages` folder is reported exactly when there are modules below it, since no
dependency signals it. -/
theorem pagesRouter_mem_detected (detected : (detect files).Answers (.ok framework)) :
    pagesRouter ∈ framework.detected ↔
      ∃ file ∈ files, RouteFile.pagesRoute? file.path ≠ none := by
  rw [mem_detected_of_files detected (by decide)]
  simp only [fileSignals, List.mem_append, or_and_right, exists_or, exists_signal_if]
  simp [appRouter, pagesRouter, nuxt, router, Option.isSome_iff_ne_none]

end Detected

end Framework

namespace Route

/-- The route of a file is rooted, because it is either the root or a normal form. -/
theorem ofFile_rooted (place : String) : (ofFile place).toList.head? = some '/' := by
  unfold ofFile
  dsimp only
  split
  · rfl
  · rw [String.toList_ofList]
    exact (normalizeChars_canonical _).rooted

/-- The path of a flat route object is canonical: it is normalized, and neither its splat nor the
basename changes that. -/
theorem canonical_of_flatTarget? {layouts : List String} {basename : Option String}
    {flat : FlatObject} {target : Target}
    (found : flatTarget? layouts basename flat = some target) : Canonical target.path.toList := by
  unfold flatTarget? at found
  obtain ⟨_, found⟩ := Option.ite_none_left_eq_some.mp found
  obtain ⟨_, found⟩ := Option.ite_none_left_eq_some.mp found
  obtain rfl := Option.some.inj found
  apply underBasename_canonical
  apply withoutSplat_canonical
  rw [String.toList_ofList]
  exact normalizeChars_canonical _

/-- The paths of the routes of a source are canonical, whether they come from its tree, from its
tags or from its flat route objects. -/
theorem canonical_of_mem_recover {reading : Option Script.Parsed} {layouts : List String}
    {content : String} {target : Target} (member : target ∈ recover reading layouts content) :
    Canonical target.path.toList := by
  have resolved : ∀ {declarations basename},
      target ∈ resolve declarations basename → Canonical target.path.toList := by
    intro declarations basename listed
    obtain ⟨placement, placed, _, rfl⟩ := mem_resolve.mp listed
    exact underBasename_canonical _ _ (fullPath_canonical placed)
  cases reading with
  | some parsed => exact resolved member
  | none =>
    rcases mem_foldl_addNew.mp member with listed | flat
    · exact resolved listed
    · obtain ⟨hit, _, found⟩ : ∃ hit ∈ Text.hits flatObject? content.toList,
          flatTarget? layouts (findBasename content.toList) hit.value = some target := by
        simpa [flatTargets, distinct, mem_foldl_addNew] using flat
      exact canonical_of_flatTarget? found

end Route

namespace Screen

/-- Among screens with rooted paths there is a final screen as soon as there is any, because no
rooted path is a wildcard. -/
theorem finalize_eq_nil_iff {found : List Screen}
    (rooted : ∀ screen ∈ found, screen.path.toList.head? = some '/') :
    finalize found = [] ↔ found = [] := by
  constructor
  · intro none
    rw [List.eq_nil_iff_forall_not_mem]
    intro screen member
    exact finalize_ne_nil member (Route.trimmed_ne_wildcard (rooted screen member)) none
  · rintro rfl
    rfl

/-- Pages by places have final screens exactly when a file is given a route, as such routes are
rooted. -/
theorem finalize_ofPageFiles_eq_nil_iff (reading : Script.Reading) (framework : String)
    (route? : String → Option String) (files : List SourceFile) :
    finalize (ofPageFiles reading framework route? files) = [] ↔
      ∀ file ∈ files, route? file.path = none := by
  rw [finalize_eq_nil_iff]
  · simp [ofPageFiles, List.filterMap_eq_nil_iff]
  · intro screen member
    obtain ⟨file, _, found⟩ := List.mem_filterMap.mp member
    obtain ⟨route, _, rfl⟩ := Option.map_eq_some_iff.mp found
    exact Route.ofFile_rooted route

/-- Declared routes have final screens exactly when a file declares one, as recovered paths are
canonical and so rooted. -/
theorem finalize_declaredRoutes_eq_nil_iff (reading : Script.Reading) (layouts : List String)
    (files : List SourceFile) :
    finalize (declaredRoutes reading layouts files) = [] ↔
      ∀ file ∈ files, routesOfFile reading layouts file = [] := by
  rw [finalize_eq_nil_iff]
  · rw [declaredRoutes, gathersBy_addRoute.foldl_eq_nil_iff, List.flatMap_eq_nil_iff]
  · intro screen member
    obtain ⟨file, _, listed⟩ :=
      List.mem_flatMap.mp (gathersBy_addRoute.gathers.foldl_subset _ member)
    unfold routesOfFile at listed
    split at listed
    · obtain ⟨target, found, rfl⟩ := List.mem_map.mp listed
      exact (Route.canonical_of_mem_recover found).rooted
    · cases listed

end Screen

end ScreenAtlas
