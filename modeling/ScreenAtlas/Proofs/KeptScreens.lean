import ScreenAtlas.Proofs.JoinedText
import ScreenAtlas.Proofs.ReportedRouters
import ScreenAtlas.Proofs.Search

/-!
# Finalization keeps distinct screens

Finalization leaves out wildcards and all but the first screen of an identifier. A
strategy tells screens apart by something else: by their files, by their paths, or by
names and paths. Where identifiers tell apart what the strategy tells apart, none of its
screens is lost.

The identifier of a declared route joins its name and its path by a colon, and both may
hold colons themselves. Still it gives back the two: a path starts with a slash, and
names hold none, whether they come from components or from a segment of the path.
-/
namespace ScreenAtlas

/-! ## Names without slashes -/

namespace Text

/-- Only one position stands for the slash; a number that is no position of a character stands for
another one. -/
theorem ofNat_eq_slash {position : Nat} (slash : Char.ofNat position = '/') : position = 47 := by
  by_cases valid : position.isValidChar
  · rw [Char.ofNat, dif_pos valid] at slash
    exact congrArg Char.toNat slash
  · rw [Char.ofNat, dif_neg valid] at slash
    exact absurd slash (by decide)

/-- The capital form of a letter other than the slash holds no slash, neither among the seven-bit
characters nor in the tables of all others. -/
theorem slash_not_mem_capitalOf {c : Char} (other : c ≠ '/') : '/' ∉ capitalOf c := by
  have plain : ∀ position : Fin 128,
      (Char.ofNat position).toUpper = '/' → Char.ofNat position = '/' := by
    decide +kernel
  have sequences : (capitalSequences.all fun entry => !entry.2.contains 47) = true := by
    decide +kernel
  have rows : (capitalRows.all fun row => decide ((47 : Int) < row.first + row.shift)) = true := by
    decide +kernel
  unfold capitalOf
  split
  · next seven =>
    intro member
    have here := plain ⟨c.toNat, seven⟩
    rw [Char.ofNat_toNat] at here
    exact other (here (List.mem_singleton.mp member).symm)
  · unfold mapCase
    split
    · next positions found =>
      intro member
      obtain ⟨position, listed, slash⟩ := List.mem_map.mp member
      obtain ⟨before, after, whole, _⟩ := List.lookup_eq_some_iff.mp found
      have entry := List.all_eq_true.mp sequences (c.toNat, positions) (by simp [whole])
      rw [ofNat_eq_slash slash] at listed
      simp [listed] at entry
    · split
      · next row found =>
        intro member
        have position := ofNat_eq_slash (List.mem_singleton.mp member).symm
        have beyond := List.all_eq_true.mp rows row (List.mem_of_find?_eq_some found)
        have covered := List.find?_some found
        simp only [CaseRow.covers, Bool.and_eq_true, decide_eq_true_eq] at beyond covered
        omega
      · simpa using other.symm

/-- What precedes an ending is a part of the text, so that cutting an ending off adds no
character. -/
theorem subset_of_before? {ending text kept : List Char} (found : before? ending text = some kept) :
    kept ⊆ text := by
  obtain ⟨reversed, after, rfl⟩ := Option.map_eq_some_iff.mp found
  intro c member
  rw [← List.mem_reverse, eq_append_of_after? after]
  exact List.mem_append_right _ (List.mem_reverse.mp member)

/-- A final line break is split off without a loss: both parts put together are the text again. -/
theorem finalBreak_append (text : List Char) :
    (finalBreak text).1 ++ (finalBreak text).2 = text := by
  unfold finalBreak
  split
  · next reversed spelled =>
    have whole := congrArg List.reverse spelled
    simpa using whole.symm
  · exact List.append_nil text

/-- A text without one of some words at its end holds only characters of the text, also when a
line break follows the word. -/
theorem withoutFinal_subset (endings : List String) (text : List Char) :
    withoutFinal endings text ⊆ text := by
  unfold withoutFinal
  dsimp only
  split
  · next kept found =>
    obtain ⟨ending, _, here⟩ := List.exists_of_findSome?_eq_some found
    intro c member
    rw [← finalBreak_append text]
    rcases List.mem_append.mp member with front | tail
    · exact List.mem_append_left _ (subset_of_before? here front)
    · exact List.mem_append_right _ tail
  · exact List.Subset.refl text

end Text

namespace Route

/-- Normal forms are rooted, since they are canonical and canonical paths start with a slash. -/
theorem normalize_rooted (path : String) : (normalize path).toList.head? = some '/' := by
  rw [normalize, String.toList_ofList]
  exact (normalizeChars_canonical _).rooted

/-- Writing the first letter as a capital makes no slash, as no capital form holds one. -/
theorem slash_not_mem_capitalizeChars {text : List Char} (plain : '/' ∉ text) :
    '/' ∉ capitalizeChars text := by
  cases text with
  | nil => simp [capitalizeChars]
  | cons c rest =>
    obtain ⟨first, others⟩ := not_or.mp (List.mem_cons.not.mp plain)
    exact List.mem_append.not.mpr
      (not_or.mpr ⟨Text.slash_not_mem_capitalOf (Ne.symm first), others⟩)

/-- The name that a path gives holds no slash, because it is made from a single segment of the
path. -/
theorem slash_not_mem_fromPath (path : String) : '/' ∉ (screenName.fromPath path).toList := by
  have segment : '/' ∉ ((segments path).getLast?.getD "index").toList := by
    cases last : (segments path).getLast? with
    | none => decide
    | some segment =>
      obtain ⟨letters, member, rfl⟩ := List.mem_map.mp (List.mem_of_getLast? last)
      intro slash
      rw [Option.getD_some, String.toList_ofList] at slash
      simpa using (Text.of_mem_fields member).2 '/' slash
  simp only [screenName.fromPath, String.toList_ofList]
  apply slash_not_mem_capitalizeChars
  intro slash
  obtain ⟨c, member, same⟩ := List.mem_map.mp slash
  split at same
  · exact absurd same (by decide)
  · exact segment (List.dropWhile_subset _ (same ▸ member))

/-- The name of a screen holds no slash if the name of its component holds none. -/
theorem slash_not_mem_screenName {path : String} {component : Option String}
    (plain : ∀ name ∈ component, '/' ∉ name.toList) :
    '/' ∉ (screenName path component).toList := by
  unfold screenName
  split
  · next name =>
    split
    · exact slash_not_mem_fromPath path
    · dsimp only
      split
      · exact plain name rfl
      · rw [String.toList_ofList]
        exact fun slash => plain name rfl (Text.withoutFinal_subset _ _ slash)
  · exact slash_not_mem_fromPath path

end Route

/-! ## Screens with distinct identifiers -/

namespace Screen

/-- The screen with its path in normal form. -/
def settled (screen : Screen) : Screen := { screen with path := Route.normalize screen.path }

/-- Screens with rooted paths and distinct identifiers are all kept, in their order. The induction
carries the screens that are final already. -/
theorem finalize_eq_map {found : List Screen}
    (rooted : ∀ screen ∈ found, screen.path.toList.head? = some '/')
    (distinct : (found.map Screen.id).Nodup) : finalize found = found.map settled := by
  have gathered (final : List Screen) (fresh : (final.map Screen.id ++ found.map Screen.id).Nodup) :
      found.foldl addFinal final = final ++ found.map settled := by
    induction found generalizing final with
    | nil => simp
    | cons screen rest inductionHypothesis =>
      obtain ⟨first, others⟩ := List.forall_mem_cons.mp rooted
      rw [List.map_cons] at fresh distinct
      have apart : screen.id ∉ final.map Screen.id := fun taken =>
        List.disjoint_of_nodup_append fresh taken List.mem_cons_self
      rcases addFinal_cases final screen with ⟨_, wild | taken⟩ | ⟨more, _⟩
      · exact absurd wild (Route.trimmed_ne_wildcard first)
      · exact absurd taken apart
      · rw [List.foldl_cons, more, inductionHypothesis others distinct.of_cons]
        · simp [settled]
        · simpa using fresh
  simpa [finalize] using gathered [] (by simpa using distinct)

variable {reading : Script.Reading} {files : List SourceFile}

/-- Screens of files are told apart by the paths of the files, since the identifier of such a
screen spells the path of its file. -/
theorem nodup_ids_assigned (apart : (files.map SourceFile.path).Nodup)
    (assigned? : SourceFile → Option String) {build : SourceFile → String → Screen}
    (named : ∀ file value, (build file value).id = "screen:" ++ file.path) :
    ((files.filterMap fun file => (assigned? file).map (build file)).map Screen.id).Nodup := by
  refine List.pairwise_map.mpr (List.pairwise_filterMap.mpr ?_)
  refine (List.pairwise_map.mp apart).imp ?_
  intro file other differ screen built another made same
  obtain ⟨value, _, rfl⟩ := Option.map_eq_some_iff.mp built
  obtain ⟨given, _, rfl⟩ := Option.map_eq_some_iff.mp made
  rw [named, named] at same
  exact differ ((String.append_right_inj _).mp same)

/-- Screens whose identifiers and paths spell the same word are told apart by their
identifiers if they are by their paths. -/
theorem nodup_ids_spelled {found : List Screen} (distinct : (found.map Screen.path).Nodup)
    (label : String) {route : String → String}
    (spelled : ∀ screen ∈ found, ∃ word, screen.id = label ++ word ∧ screen.path = route word) :
    (found.map Screen.id).Nodup := by
  refine nodup_map_of_determines distinct ?_
  intro left first right second same
  obtain ⟨word, leftId, leftPath⟩ := spelled left first
  obtain ⟨other, rightId, rightPath⟩ := spelled right second
  have words : word = other := by
    rw [leftId, rightId] at same
    exact (String.append_right_inj _).mp same
  rw [leftPath, rightPath, words]

/-- A view that a state variable chooses spells its value in the identifier and in the path. -/
theorem spelled_of_mem_stateViews {screen : Screen} (member : screen ∈ stateViews reading files) :
    ∃ word, screen.id = "screen:state:" ++ word ∧
      screen.path = Route.normalize ("/view/" ++ word) := by
  obtain ⟨file, _, listed⟩ :=
    List.mem_flatMap.mp (gathersBy_addPath.gathers.foldl_subset _ member)
  unfold viewsOfFile at listed
  dsimp only at listed
  split at listed
  · obtain ⟨selector, _, listed⟩ := List.mem_flatMap.mp listed
    obtain ⟨view, _, made⟩ := List.mem_filterMap.mp listed
    unfold ofViewCase? at made
    obtain ⟨_, made⟩ := Option.ite_none_left_eq_some.mp made
    obtain rfl := Option.some.inj made
    exact ⟨_, rfl, rfl⟩
  · cases listed

/-- A page that a fragment chooses spells the fragment in its identifier and in its path. -/
theorem spelled_of_mem_hashViews {screen : Screen} (member : screen ∈ hashViews reading files) :
    ∃ word, screen.id = "screen:hash:" ++ word ∧ screen.path = "/hash/" ++ word := by
  obtain ⟨file, _, listed⟩ :=
    List.mem_flatMap.mp (gathersBy_addPath.gathers.foldl_subset _ member)
  unfold hashPagesOfFile at listed
  dsimp only at listed
  split at listed
  · split at listed
    · cases listed
    · obtain ⟨page, _, rfl⟩ := List.mem_map.mp listed
      exact ⟨_, rfl, rfl⟩
  · cases listed

/-! ## Declared routes -/

/-- The name and the path that the identifier of a declared route spells. The path starts
at the first slash, and a colon stands before it. -/
def routeKey (id : String) : String × String :=
  let spelled := (Text.literal? "screen:" id.toList).getD []
  (String.ofList (spelled.takeWhile (· != '/')).dropLast,
    String.ofList (spelled.dropWhile (· != '/')))

/-- The identifier of a name without slashes and a rooted path spells the two: the first slash is
that of the path, and a colon stands before it. -/
theorem routeKey_spelled {name path : String} (plain : '/' ∉ name.toList)
    (rooted : path.toList.head? = some '/') :
    routeKey ("screen:" ++ name ++ ":" ++ path) = (name, path) := by
  obtain ⟨rest, spelled⟩ := List.head?_eq_some_iff.mp rooted
  have front : ∀ c ∈ name.toList ++ [':'], (c != '/') = true := by
    intro c member
    rw [bne_iff_ne]
    rintro rfl
    rcases List.mem_append.mp member with letter | colon
    · exact plain letter
    · exact absurd (List.mem_singleton.mp colon) (by decide)
  have letters : Text.literal? "screen:" ("screen:" ++ name ++ ":" ++ path).toList =
      some ((name.toList ++ [':']) ++ '/' :: rest) := by
    rw [← spelled, Text.literal?]
    simpa using Text.after?_append "screen:".toList (name.toList ++ ':' :: path.toList)
  have whole : String.ofList ('/' :: rest) = path := by rw [← spelled, String.ofList_toList]
  rw [routeKey, letters, Option.getD_some, List.takeWhile_append_of_pos front,
    List.dropWhile_append_of_pos front]
  simp [whole]

/-- The components of all routes that files declare have names without slashes. -/
def PlainComponents (reading : Script.Reading) (layouts : List String)
    (files : List SourceFile) : Prop :=
  ∀ file ∈ files,
    ∀ target ∈ Route.recover (reading.parsed? (Script.dialectOf file.path) file.content) layouts
      file.content,
    ∀ name ∈ target.component, '/' ∉ name.toList

/-- A declared route is the screen of a target that some file has, with the links of this file. -/
theorem exists_of_mem_declaredRoutes {layouts : List String} {screen : Screen}
    (member : screen ∈ declaredRoutes reading layouts files) :
    ∃ file ∈ files, ∃ links,
      ∃ target ∈ Route.recover (reading.parsed? (Script.dialectOf file.path) file.content) layouts
        file.content, screen = ofRoute file links target := by
  obtain ⟨file, present, listed⟩ :=
    List.mem_flatMap.mp (gathersBy_addRoute.gathers.foldl_subset _ member)
  unfold routesOfFile at listed
  split at listed
  · obtain ⟨target, found, rfl⟩ := List.mem_map.mp listed
    exact ⟨file, present, _, target, found, rfl⟩
  · cases listed

/-- The identifier of a declared route gives its name and its path, if the components have names
without slashes. Names that come from the path hold none anyway. -/
theorem routeKey_of_mem_declaredRoutes {layouts : List String}
    (plain : PlainComponents reading layouts files) {screen : Screen}
    (member : screen ∈ declaredRoutes reading layouts files) :
    routeKey screen.id = (screen.name, screen.path) := by
  obtain ⟨file, present, links, target, found, rfl⟩ := exists_of_mem_declaredRoutes member
  exact routeKey_spelled (Route.slash_not_mem_screenName (plain file present target found))
    (Route.canonical_of_mem_recover found).rooted

end Screen

/-! ## Strategies that lose nothing -/

namespace Strategy

/-- All screens that a strategy finds have identifiers of their own, and finalization keeps
them all in their order. -/
def KeepsAll (reading : Script.Reading) (files : List SourceFile) (strategy : Strategy) : Prop :=
  ∃ found, (strategy.screens reading files).Answers (.ok found) ∧
    (found.map Screen.id).Nodup ∧ Screen.finalize found = found.map Screen.settled

variable {reading : Script.Reading} {files : List SourceFile}

/-- A strategy that always answers keeps all its screens if their paths are rooted and their
identifiers distinct. -/
theorem keepsAll_of_nodup {strategy : Strategy} {found : List Screen}
    (given : strategy.screens reading files = pure found)
    (rooted : ∀ screen ∈ found, screen.path.toList.head? = some '/')
    (distinct : (found.map Screen.id).Nodup) : strategy.KeepsAll reading files :=
  ⟨found, given ▸ Journal.answers_pure found, distinct, Screen.finalize_eq_map rooted distinct⟩

/-- Pages by the places of files are kept, whichever framework places them, because files with
paths of their own give identifiers of their own. -/
theorem keepsAll_ofPageFiles {strategy : Strategy} {framework : String}
    {route? : String → Option String} (apart : (files.map SourceFile.path).Nodup)
    (given : strategy.screens reading files =
      pure (Screen.ofPageFiles reading framework route? files)) :
    strategy.KeepsAll reading files := by
  refine keepsAll_of_nodup given ?_
    (Screen.nodup_ids_assigned apart (fun file => route? file.path) fun _ _ => rfl)
  intro screen member
  obtain ⟨file, _, built⟩ := List.mem_filterMap.mp member
  obtain ⟨route, _, rfl⟩ := Option.map_eq_some_iff.mp built
  exact Route.ofFile_rooted route

/-- Files that are placed like screens are kept, as their identifiers spell the paths of the
files. -/
theorem keepsAll_placedFiles (apart : (files.map SourceFile.path).Nodup) :
    placedFiles.KeepsAll reading files := by
  refine keepsAll_of_nodup rfl ?_
    (Screen.nodup_ids_assigned apart (fun file => Screen.placedName? file.path) fun _ _ => rfl)
  intro screen member
  obtain ⟨file, _, built⟩ := List.mem_filterMap.mp member
  obtain ⟨name, _, rfl⟩ := Option.map_eq_some_iff.mp built
  simp only [Screen.ofPlacedFile, Screen.routeOfName]
  split
  · rfl
  · exact Route.normalize_rooted _

/-- Views that state variables choose are kept: their paths are distinct, and identifiers spell
what paths do. -/
theorem keepsAll_stateViews : stateViews.KeepsAll reading files := by
  refine keepsAll_of_nodup rfl ?_ (Screen.nodup_ids_spelled (Screen.gathersBy_addPath.nodup _) _
    fun _ => Screen.spelled_of_mem_stateViews)
  intro screen member
  obtain ⟨word, _, spelled⟩ := Screen.spelled_of_mem_stateViews member
  rw [spelled]
  exact Route.normalize_rooted _

/-- Pages that fragments choose are kept, since their identifiers are told apart as their paths
are. -/
theorem keepsAll_hashViews : hashViews.KeepsAll reading files := by
  refine keepsAll_of_nodup rfl ?_ (Screen.nodup_ids_spelled (Screen.gathersBy_addPath.nodup _) _
    fun _ => Screen.spelled_of_mem_hashViews)
  intro screen member
  obtain ⟨word, _, spelled⟩ := Screen.spelled_of_mem_hashViews member
  simp [spelled]

/-- Declared routes are kept if their components have names without slashes: name and path are
distinct together, and the identifier gives both. -/
theorem keepsAll_declaredRoutes {layouts : List String}
    (plain : Screen.PlainComponents reading layouts files) :
    (declaredRoutes layouts).KeepsAll reading files := by
  refine keepsAll_of_nodup rfl ?_ (nodup_map_of_determines (Screen.gathersBy_addRoute.nodup _) ?_)
  · intro screen member
    obtain ⟨file, _, links, target, found, rfl⟩ := Screen.exists_of_mem_declaredRoutes member
    exact (Route.canonical_of_mem_recover found).rooted
  · intro left first right second same
    rw [← Screen.routeKey_of_mem_declaredRoutes plain first,
      ← Screen.routeKey_of_mem_declaredRoutes plain second, same]

/-- Finalization drops no distinct screen. For all files with paths of their own, however
they are parsed, the screens of page files, of views, of fragments and of placed files are
all kept, and so are declared routes, whatever the layout wrappers, if their components
have names without slashes. The identifier of a declared route gives its name and its path,
and no two declared routes have the same name and path. -/
theorem finalization_keeps_distinct_screens (reading : Script.Reading) (files : List SourceFile)
    (apart : (files.map SourceFile.path).Nodup) :
    (∀ strategy ∈ [appPages, pageModules, pageComponents, stateViews, hashViews, placedFiles],
      strategy.KeepsAll reading files) ∧
    ∀ layouts, Screen.PlainComponents reading layouts files →
      (declaredRoutes layouts).KeepsAll reading files ∧
      (∀ screen ∈ Screen.declaredRoutes reading layouts files,
        Screen.routeKey screen.id = (screen.name, screen.path)) ∧
      ((Screen.declaredRoutes reading layouts files).map fun screen =>
        (screen.name, screen.path)).Nodup := by
  constructor
  · simp only [List.forall_mem_cons]
    exact ⟨keepsAll_ofPageFiles apart rfl, keepsAll_ofPageFiles apart rfl,
      keepsAll_ofPageFiles apart rfl, keepsAll_stateViews, keepsAll_hashViews,
      keepsAll_placedFiles apart, List.forall_mem_nil _⟩
  · intro layouts plain
    exact ⟨keepsAll_declaredRoutes plain,
      fun _ => Screen.routeKey_of_mem_declaredRoutes plain, Screen.gathersBy_addRoute.nodup _⟩

/-- Two files that declare routes with parameters, one of them without a component. -/
def parameterFiles : List SourceFile :=
  [⟨"src/pages/Item.tsx", "<Route path=\"/:id\" element=\x7b<Item.Page />\x7d />"⟩,
    ⟨"src/pages/list.tsx", "<Route path=\"/x/:a:b\" />"⟩]

/-- All their routes and, as files in a folder of pages, the files themselves are kept. -/
theorem parameterFiles_are_kept :
    (parameterFiles.map SourceFile.path).Nodup ∧
      Screen.PlainComponents (fun _ _ => none) [] parameterFiles ∧
      (Screen.declaredRoutes (fun _ _ => none) [] parameterFiles).map Screen.id =
        ["screen:Item.:/:id", "screen:A:b:/x/:a:b"] ∧
      (declaredRoutes []).KeepsAll (fun _ _ => none) parameterFiles ∧
      placedFiles.KeepsAll (fun _ _ => none) parameterFiles := by
  have apart : (parameterFiles.map SourceFile.path).Nodup := by decide +kernel
  have plain : Screen.PlainComponents (fun _ _ => none) [] parameterFiles := by
    unfold Screen.PlainComponents
    decide +kernel
  obtain ⟨general, declared⟩ :=
    finalization_keeps_distinct_screens (fun _ _ => none) parameterFiles apart
  exact ⟨apart, plain, by decide +kernel, (declared [] plain).1, general placedFiles (by simp)⟩

end Strategy

end ScreenAtlas
