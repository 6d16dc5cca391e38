import Mathlib.Logic.Function.Iterate
import ScreenAtlas.Proofs.FirstOccurrences
import ScreenAtlas.Proofs.NormalForms
import ScreenAtlas.Proofs.WildcardRoutes

/-!
# What a second pass changes

A path is put into normal form more than once on its way into a final screen: when it is
resolved, below a basename and in finalization. The later passes change nothing unless a blank
stands before the slashes at the end of the path. Blanks are trimmed before these slashes are
dropped, so such a blank is at the end of the normal form, and the next pass trims it.

A pass over a rooted path only leaves out characters. So however many blanks and slashes take
turns at the end, repeated passes come to a path that stays as it is.

For final screens this is all that a second finalization can change. No screen is lost or
moved, since none has a wildcard or a repeated identifier. The identifier of a screen is never
touched, so the path in the identifier of a declared route, which is in normal form already,
can differ from the path of the screen by the trimmed blank.
-/
namespace ScreenAtlas

namespace Route

open ScreenAtlas.Text

/-! ## Passes over a path -/

/-- A blank is at the end of the path when the blanks around it, and then the slashes at its
end, are gone. -/
def leavesBlank (path : List Char) : Bool :=
  (dropTrailingSlashes (trim path)).getLast?.any isBlank

/-- Putting a slash in front keeps the last character of a path that has characters. -/
theorem withLeadingSlash_getLast? {path : List Char} (filled : path ≠ []) :
    (withLeadingSlash path).getLast? = path.getLast? := by
  unfold withLeadingSlash
  split
  · rfl
  · obtain ⟨first, rest, rfl⟩ := List.exists_cons_of_ne_nil filled
    exact List.getLast?_cons_cons

/-- The trailing slashes of a trimmed path may be dropped before its slashes are collapsed.

Proof: both ways lead to canonical paths with the segments of the trimmed path. -/
theorem normalizeChars_eq_collapsed {path : List Char} (ordinary : trim path ≠ ['*']) :
    normalizeChars path =
      collapseSlashes (withLeadingSlash (dropTrailingSlashes (trim path))) := by
  have parted : parts (normalizeChars path) =
      parts (collapseSlashes (withLeadingSlash (dropTrailingSlashes (trim path)))) := by
    rw [parts_normalizeChars ordinary, parts_collapseSlashes, parts_withLeadingSlash,
      parts_dropTrailingSlashes]
  refine (normalizeChars_canonical path).ext ⟨?_, collapseSlashes_single _, ?_⟩ parted
  · rw [collapseSlashes_head?, withLeadingSlash_head?]
  · by_cases none : dropTrailingSlashes (trim path) = []
    · rw [none]
      exact Or.inl rfl
    · rw [collapseSlashes_getLast?, withLeadingSlash_getLast? none]
      refine Or.inr fun last => ?_
      simpa using dropTrailing_getLast? (· == '/') (trim path) '/' last

/-- Whether a normal form ends in a blank can be read off the path: collapsing slashes keeps the
last character, and so does a slash in front. -/
theorem normalizeChars_ends_blank (path : List Char) :
    (normalizeChars path).getLast?.any isBlank = leavesBlank path := by
  by_cases lone : trim path = ['*']
  · have root : normalizeChars path = ['/'] := by simp [normalizeChars, lone]
    rw [root, leavesBlank, lone]
    decide
  · rw [normalizeChars_eq_collapsed lone, collapseSlashes_getLast?, leavesBlank]
    by_cases none : dropTrailingSlashes (trim path) = []
    · rw [none]
      decide
    · rw [withLeadingSlash_getLast? none]

/-- A path is its own normal form exactly when it is canonical and does not end in a blank. -/
theorem normalize_eq_self_iff (path : String) :
    normalize path = path ↔ Canonical path.toList ∧ path.toList.getLast?.any isBlank = false := by
  rw [← normalizeChars_eq_self_iff, ← String.toList_inj, normalize, String.toList_ofList]

/-- A second pass changes nothing exactly when the first leaves no blank at the end, because the
first makes the path canonical. -/
theorem normalize_twice_iff (path : String) :
    normalize (normalize path) = normalize path ↔ leavesBlank path.toList = false := by
  have letters : (normalize path).toList = normalizeChars path.toList := String.toList_ofList
  rw [normalize_eq_self_iff, letters, normalizeChars_ends_blank]
  exact and_iff_right (normalizeChars_canonical path.toList)

/-- A pass over a rooted path only leaves out characters, as the only character that a pass can
add is the slash in front. -/
theorem normalize_sublist {path : String} (rooted : path.toList.head? = some '/') :
    (normalize path).toList.Sublist path.toList := by
  rw [normalize, String.toList_ofList]
  exact (normalizeChars_sublist_trim rooted).trans (trim_sublist path.toList)

/-- Two passes restore a path only when one does: passes only leave out characters, so the first
cannot have left out any. -/
theorem normalize_twice_eq_self_iff (path : String) :
    normalize (normalize path) = path ↔ normalize path = path := by
  constructor
  · intro restored
    have rooted : path.toList.head? = some '/' := restored ▸ normalize_rooted (normalize path)
    -- The second pass gives the whole path back, so the first has left out nothing.
    have kept : path.toList.Sublist (normalize path).toList := by
      simpa only [restored] using normalize_sublist (normalize_rooted path)
    exact String.toList_inj.mp ((normalize_sublist rooted).antisymm kept)
  · intro fixed
    rw [fixed, fixed]

/-- Repeated passes over a rooted path come to a normal form that stays as it is.

Proof: by induction on the length of the path. A pass that changes the path makes it
shorter. -/
theorem exists_fixed_normalize {path : String} (rooted : path.toList.head? = some '/') :
    ∃ passes, normalize (normalize^[passes] path) = normalize^[passes] path := by
  induction size : path.toList.length using Nat.strongRecOn generalizing path with
  | ind length inductionHypothesis =>
    by_cases fixed : normalize path = path
    · exact ⟨0, fixed⟩
    · have part := normalize_sublist rooted
      have shorter : (normalize path).toList.length < length := by
        refine size ▸ Nat.lt_of_le_of_ne part.length_le fun same => ?_
        exact fixed (String.toList_inj.mp (part.eq_of_length same))
      obtain ⟨passes, settles⟩ := inductionHypothesis _ shorter (normalize_rooted path) rfl
      exact ⟨passes + 1, settles⟩

/-- Repeated passes over any path settle, since the first pass makes the path rooted. -/
theorem normalize_settles (path : String) :
    ∃ passes, ∀ more, normalize^[more + passes] path = normalize^[passes] path := by
  obtain ⟨passes, fixed⟩ := exists_fixed_normalize (normalize_rooted path)
  refine ⟨passes + 1, fun more => ?_⟩
  rw [Function.iterate_add_apply]
  exact Function.iterate_fixed fixed more

end Route

namespace Screen

open ScreenAtlas.Text

/-! ## Passes over screens -/

/-- Whether the path of the screen is something else than the wildcard. -/
def isOrdinary (screen : Screen) : Bool := trimmed screen.path != Route.wildcard

/-- The screens that finalization keeps, as they are found: of those whose paths are no
wildcards the first with each identifier. -/
def kept (screens : List Screen) : List Screen :=
  (screens.filter isOrdinary).foldl (addBy Screen.id) []

/-- Adding a screen to final ones adds it to those that are kept, unless its path is a wildcard.
This holds because settling a screen keeps its identifier. -/
theorem addFinal_settled (found : List Screen) (screen : Screen) :
    addFinal (found.map settled) screen =
      if isOrdinary screen then (addBy Screen.id found screen).map settled
      else found.map settled := by
  have ids : (found.map settled).map Screen.id = found.map Screen.id := by
    rw [List.map_map]
    rfl
  have taken : (found.map settled).any (fun present => present.id == screen.id) = true ↔
      screen.id ∈ found.map Screen.id := by
    rw [← ids]
    simp
  by_cases wild : trimmed screen.path = Route.wildcard
  · simp [addFinal, isOrdinary, wild]
  · have passed : ¬ (trimmed screen.path == Route.wildcard) = true := by simpa using wild
    have ordinary : isOrdinary screen = true := by simpa [isOrdinary] using wild
    rw [addFinal, if_neg passed, if_pos ordinary, addBy]
    by_cases present : screen.id ∈ found.map Screen.id
    · rw [if_pos (taken.mpr present), if_pos present]
    · rw [if_neg (mt taken.mp present), if_neg present, List.map_append]
      rfl

/-- Final screens are those that are kept, with their paths in normal form. The induction is on
the screens, for any that are found already. -/
theorem finalize_eq_kept (screens : List Screen) :
    finalize screens = (kept screens).map settled := by
  have gathered (found : List Screen) : screens.foldl addFinal (found.map settled) =
      ((screens.filter isOrdinary).foldl (addBy Screen.id) found).map settled := by
    induction screens generalizing found with
    | nil => rfl
    | cons screen rest inductionHypothesis =>
      rw [List.foldl_cons, addFinal_settled]
      by_cases ordinary : isOrdinary screen = true
      · rw [if_pos ordinary, List.filter_cons_of_pos ordinary, List.foldl_cons]
        exact inductionHypothesis _
      · rw [if_neg ordinary, List.filter_cons_of_neg ordinary]
        exact inductionHypothesis found
  exact gathered []

/-- A second finalization keeps every screen in its place, since the paths of final screens are
rooted and their identifiers are distinct. -/
theorem finalize_twice (screens : List Screen) :
    finalize (finalize screens) = (finalize screens).map settled :=
  finalize_eq_map (fun _ member => (canonical_of_mem_finalize member).rooted)
    (nodup_finalize screens)

/-- A screen is left as it is exactly when its path is, because nothing else of it is settled. -/
theorem settled_eq_self_iff (screen : Screen) :
    screen.settled = screen ↔ Route.normalize screen.path = screen.path := by
  constructor
  · exact fun same => congrArg Screen.path same
  · intro same
    rw [settled, same]

/-- A second finalization changes nothing exactly when no kept path leaves a blank, as it only
normalizes each path once more. -/
theorem finalize_twice_iff (screens : List Screen) :
    finalize (finalize screens) = finalize screens ↔
      ∀ screen ∈ kept screens, Route.leavesBlank screen.path.toList = false := by
  rw [finalize_twice, finalize_eq_kept, List.map_map, List.map_inj_left]
  refine forall₂_congr fun screen _ => ?_
  rw [← Route.normalize_twice_iff]
  exact settled_eq_self_iff screen.settled

/-! ## Paths in identifiers -/

/-- The identifier of a declared route ends in a canonical path, and the path of the final
screen is its normal form. -/
theorem path_in_id_of_declared {reading : Script.Reading} {layouts : List String}
    {files : List SourceFile} {screen : Screen}
    (member : screen ∈ finalize (declaredRoutes reading layouts files)) :
    ∃ path, screen.id = "screen:" ++ screen.name ++ ":" ++ path ∧
      Route.Canonical path.toList ∧ screen.path = Route.normalize path ∧
      (screen.path = path ↔ path.toList.getLast?.any isBlank = false) := by
  obtain ⟨origin, listed, rfl⟩ := exists_of_mem_finalize screen member
  obtain ⟨file, _, links, target, found, rfl⟩ := exists_of_mem_declaredRoutes listed
  have canonical := Route.canonical_of_mem_recover found
  refine ⟨target.path, rfl, canonical, rfl, ?_⟩
  exact (Route.normalize_eq_self_iff target.path).trans (and_iff_right canonical)

/-- The identifier of a listed route ends in its path as listed. That is the path of the final
screen exactly when it is in normal form. -/
theorem path_in_id_of_listed {routes : List FallbackRoute} {screen : Screen}
    (member : screen ∈ finalize (ofFallbackRoutes routes)) :
    ∃ path ∈ routes.map FallbackRoute.path, screen.id = "screen:fallback:" ++ path ∧
      (screen.path = path ↔ Route.normalize path = path) := by
  obtain ⟨origin, listed, rfl⟩ := exists_of_mem_finalize screen member
  obtain ⟨route, present, rfl⟩ := List.mem_map.mp listed
  exact ⟨route.path, List.mem_map_of_mem present, rfl,
    Route.normalize_twice_eq_self_iff route.path⟩

/-- A second pass trims blanks that the first has brought to the end, and changes nothing else.

* A second normalization leaves a path as it is exactly when no blank stands before the
  slashes at the end of the trimmed path. Repeated normalization settles for every path.
* A second finalization keeps all screens in their order with their identifiers. It leaves them
  as they are exactly when this holds for the path of each screen that the first one keeps.
* The identifier of a declared route ends in a canonical path, of which the path of the final
  screen is the normal form. The two agree exactly when the one in the identifier does not end
  in a blank. The identifier of a listed route ends in the path as it is listed, which agrees
  with that of the final screen exactly when it is listed in normal form. -/
theorem second_pass_only_trims_left_blanks (path : String) (screens : List Screen)
    (reading : Script.Reading) (layouts : List String) (files : List SourceFile)
    (routes : List FallbackRoute) :
    ((Route.normalize (Route.normalize path) = Route.normalize path ↔
        Route.leavesBlank path.toList = false) ∧
      ∃ passes, ∀ more, Route.normalize^[more + passes] path = Route.normalize^[passes] path) ∧
    (finalize screens = (kept screens).map settled ∧
      finalize (finalize screens) = (finalize screens).map settled ∧
      (finalize (finalize screens) = finalize screens ↔
        ∀ screen ∈ kept screens, Route.leavesBlank screen.path.toList = false)) ∧
    (∀ screen ∈ finalize (declaredRoutes reading layouts files),
      ∃ spelled, screen.id = "screen:" ++ screen.name ++ ":" ++ spelled ∧
        Route.Canonical spelled.toList ∧ screen.path = Route.normalize spelled ∧
        (screen.path = spelled ↔ spelled.toList.getLast?.any isBlank = false)) ∧
    ∀ screen ∈ finalize (ofFallbackRoutes routes),
      ∃ spelled ∈ routes.map FallbackRoute.path, screen.id = "screen:fallback:" ++ spelled ∧
        (screen.path = spelled ↔ Route.normalize spelled = spelled) := by
  refine ⟨⟨?_, ?_⟩, ⟨?_, ?_, ?_⟩, ?_, ?_⟩
  · exact Route.normalize_twice_iff path
  · exact Route.normalize_settles path
  · exact finalize_eq_kept screens
  · exact finalize_twice screens
  · exact finalize_twice_iff screens
  · exact fun _ member => path_in_id_of_declared member
  · exact fun _ member => path_in_id_of_listed member

/-- A file that declares a route without blanks. -/
def plainRoute : SourceFile := ⟨"App.tsx", "<Route path='//a/' element=\x7b<A />\x7d />"⟩

/-- The screens of the routes that a file declares when it does not parse. -/
def declaredBy (file : SourceFile) : List Screen := declaredRoutes (fun _ _ => none) [] [file]

/-- A second finalization leaves the screen of the route as it is, and the path of a screen that
is listed in normal form is the one in its identifier. -/
theorem plainRoute_is_settled :
    (finalize (declaredBy plainRoute)).map Screen.id = ["screen:A:/a"] ∧
      finalize (finalize (declaredBy plainRoute)) = finalize (declaredBy plainRoute) ∧
      (∀ screen ∈ finalize (declaredBy plainRoute), ∃ path,
        screen.id = "screen:" ++ screen.name ++ ":" ++ path ∧
          screen.path = Route.normalize path) ∧
      ∀ screen ∈ finalize (ofFallbackRoutes [⟨"/b", "B"⟩]), screen.path = "/b" := by
  obtain ⟨_, ⟨_, _, unchanged⟩, declared, listed⟩ := second_pass_only_trims_left_blanks "//a/"
    (declaredBy plainRoute) (fun _ _ => none) [] [plainRoute] [⟨"/b", "B"⟩]
  refine ⟨by decide +kernel, unchanged.mpr (by decide +kernel), ?_, ?_⟩
  · intro screen member
    obtain ⟨path, spelled, _, normal, _⟩ := declared screen member
    exact ⟨path, spelled, normal⟩
  · intro screen member
    obtain ⟨path, present, _, agrees⟩ := listed screen member
    obtain rfl := List.mem_singleton.mp present
    exact agrees.mpr (by decide)

/-- A file that declares a route with a blank before the slash at its end. -/
def blankRoute : SourceFile := ⟨"App.tsx", "<Route path='/a /' element=\x7b<A />\x7d />"⟩

/-- A screen with the path of that route as it is written. -/
def blankScreen : Screen :=
  { id := "screen:a"
    name := "A"
    path := "/a /"
    filePath := "App.tsx"
    kind := "page"
    framework := Framework.router }

/-- One pass leaves the blank at the end of the path, and the next one trims it, for the path as
for the screen. The identifier of the declared route keeps what the first pass leaves. -/
theorem blankRoute_is_trimmed_later :
    Route.normalize "/a /" = "/a " ∧ Route.normalize (Route.normalize "/a /") = "/a" ∧
      (finalize [blankScreen]).map Screen.path = ["/a "] ∧
      (finalize (finalize [blankScreen])).map Screen.path = ["/a"] ∧
      (finalize (declaredBy blankRoute)).map (fun screen => (screen.id, screen.path)) =
        [("screen:A:/a ", "/a")] := by
  decide +kernel

end Screen

end ScreenAtlas
