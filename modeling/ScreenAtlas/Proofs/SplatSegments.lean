import ScreenAtlas.Proofs.BasenamePrefix

/-!
# Splats stay out of full paths

A declared path may end in a splat, a last segment that is the wildcard. Placing joins the
path to the full path of its parent and drops one splat from the end, once for every
declaration. When no declared path holds the wildcard anywhere but at its end, this leaves
no splat at all: what the parent hands down is free of splats already, so the only one in
the joined path is the last segment. All other segments are kept, those of the parent in
front of those of the declaration.

A wildcard in the middle of a declared path would stay there, and a blank beside a wildcard
hides it until the path is trimmed. Both are excluded.
-/
namespace ScreenAtlas.Route

open ScreenAtlas.Text

/-! ## Dropping the splat of one path -/

/-- Segments among which there is no splat are all kept when splats are filtered out. -/
theorem filter_splat_eq_self {α : Type} [DecidableEq α] {splat : α} {segments : List α}
    (free : splat ∉ segments) : segments.filter (· ≠ splat) = segments := by
  rw [List.filter_eq_self]
  intro segment member
  exact decide_eq_true fun same => free (same ▸ member)

/-- Without its splat a canonical path has all its segments but the wildcard, when the
wildcard is at most the last of them.

Proof: a canonical path is its segments behind slashes, so its last segment is the wildcard
exactly when the path ends in a slash and the wildcard. -/
theorem parts_withoutSplat {path : String} (canonical : Canonical path.toList)
    (solid : Solid path.toList) (last : ['*'] ∉ (parts path.toList).dropLast) :
    parts (withoutSplat path).toList = (parts path.toList).filter (· ≠ ['*']) := by
  unfold withoutSplat
  split
  · next reversed ends =>
    have whole : path.toList = reversed.reverse ++ '/' :: ['*'] := by
      rw [← List.reverse_reverse path.toList, ends]
      simp
    have above : Solid reversed.reverse := solid.of_subset (whole ▸ List.subset_append_left _ _)
    have split : parts path.toList = parts reversed.reverse ++ [['*']] := by
      rw [whole, parts_slash]
      rfl
    have ordinary : trim reversed.reverse ≠ ['*'] := by
      rw [above.trim_eq]
      intro lone
      have rooted := canonical.rooted
      simp [whole, lone] at rooted
    rw [split, List.dropLast_concat] at last
    rw [String.toList_ofList, parts_normalizeChars ordinary, above.trim_eq, split,
      List.filter_append, filter_splat_eq_self last]
    simp
  · next noSplat =>
    refine (filter_splat_eq_self fun member => ?_).symm
    rcases List.eq_nil_or_concat (parts path.toList) with none | ⟨front, final, split⟩
    · rw [none] at member
      cases member
    · rw [List.concat_eq_append] at split
      rw [split, List.dropLast_concat] at last
      rw [split] at member
      obtain rfl : final = ['*'] := by simpa [last, eq_comm] using member
      have joined := canonical.eq_joined
      rw [split, cons_intercalate '/' (by simp), List.flatMap_append] at joined
      exact noSplat (front.flatMap ('/' :: ·)).reverse (by simp [joined])

/-- Without its splat a canonical path has all its segments but the wildcard, stated for segments
as strings instead of lists of characters. -/
theorem segments_withoutSplat {path : String} (canonical : Canonical path.toList)
    (solid : Solid path.toList) (last : wildcard ∉ (segments path).dropLast) :
    segments (withoutSplat path) = (segments path).filter (· ≠ wildcard) := by
  have apart (segment : List Char) : String.ofList segment = wildcard ↔ segment = ['*'] :=
    ⟨fun same => String.ofList_injective same, fun same => congrArg String.ofList same⟩
  have atEnd : ['*'] ∉ (parts path.toList).dropLast := by
    intro member
    apply last
    rw [segments, ← List.map_dropLast]
    exact List.mem_map_of_mem member
  rw [segments, segments, List.filter_map]
  simp only [Function.comp_def, ne_eq, apart]
  exact congrArg (List.map String.ofList) (parts_withoutSplat canonical solid atEnd)

/-- Normalization keeps the segments of a path without blanks, unless the path is the wildcard,
which becomes the root. -/
theorem segments_normalize {path : String} (solid : Solid path.toList)
    (ordinary : path ≠ wildcard) : segments (normalize path) = segments path := by
  have kept : trim path.toList ≠ ['*'] := by
    rw [solid.trim_eq]
    exact fun lone => ordinary (String.toList_injective lone)
  have same := parts_normalizeChars kept
  rw [solid.trim_eq] at same
  rw [segments, normalize, String.toList_ofList]
  exact congrArg (List.map String.ofList) same

/-! ## Joining to a parent -/

/-- A canonical path that holds neither a blank nor the wildcard. -/
structure SplatFree (path : String) : Prop where
  canonical : Canonical path.toList
  solid : Solid path.toList
  free : wildcard ∉ segments path

/-- The segments that a path takes over from its parent: a rooted path takes over none. -/
def inherited (parent : Option String) (raw : String) : List String :=
  if isRooted raw then [] else segments (parent.getD "")

/-- What is taken over from a parent without splats holds none. Nothing is taken over where there
is no parent. -/
theorem wildcard_not_mem_inherited {parent : Option String} {raw : String}
    (above : ∀ path ∈ parent, SplatFree path) : wildcard ∉ inherited parent raw := by
  unfold inherited
  split
  · simp
  · cases parent with
    | none => decide
    | some path => exact (above path rfl).free

/-- Below its parent a path has the segments that it takes over in front of its own, because there
is a slash between them. -/
theorem segments_below (parent : Option String) (raw : String) :
    segments (below parent raw) = inherited parent raw ++ segments raw := by
  unfold below inherited
  split
  · rfl
  · have split := parts_slash (parent.getD "").toList raw.toList
    simpa [segments, parts] using congrArg (List.map String.ofList) split

/-- Below a parent without blanks a path without blanks holds none, as only a slash is put between
them. -/
theorem solid_below {parent : Option String} {raw : String}
    (above : ∀ path ∈ parent, SplatFree path) (solid : Solid raw.toList) :
    Solid (below parent raw).toList := by
  unfold below
  split
  · exact solid
  · have front : Solid (parent.getD "").toList := by
      cases parent with
      | none => exact List.forall_mem_nil _
      | some path => exact (above path rfl).solid
    simp only [String.toList_append]
    exact (front.append (by decide)).append solid

/-- A path below a parent holds a slash, so it is not the wildcard and normalization keeps its
segments. -/
theorem below_ne_wildcard (parent : Option String) (raw : String) :
    below parent raw ≠ wildcard := by
  unfold below
  split
  · next rooted => exact Placement.ne_wildcard_of_rooted rooted
  · intro same
    have slash : '/' ∈ wildcard.toList := by
      rw [← same]
      simp
    exact absurd slash (by decide)

/-- A path without blanks whose wildcard is at most its last segment is joined to a parent
without splats: the joined path has the segments that are taken over, and then those of the
path without its splat. -/
theorem segments_join {parent : Option String} {raw : String}
    (above : ∀ path ∈ parent, SplatFree path) (solid : Solid raw.toList)
    (last : wildcard ∉ (segments raw).dropLast) :
    segments (join parent raw) =
      inherited parent raw ++ (segments raw).filter (· ≠ wildcard) := by
  have handed : wildcard ∉ inherited parent raw := wildcard_not_mem_inherited above
  have clear := solid_below above solid
  have whole : segments (normalize (below parent raw)) =
      inherited parent raw ++ segments raw := by
    rw [segments_normalize clear (below_ne_wildcard parent raw), segments_below]
  have canonical : Canonical (normalize (below parent raw)).toList := by
    simpa [normalize] using normalizeChars_canonical _
  have plain : Solid (normalize (below parent raw)).toList := by
    simpa [normalize] using solid_normalizeChars clear
  -- Only the last segment of the joined path can be the wildcard, since none is taken over.
  have atEnd : wildcard ∉ (segments (normalize (below parent raw))).dropLast := by
    rw [whole]
    by_cases none : segments raw = []
    · rw [none, List.append_nil]
      exact fun member => handed (List.mem_of_mem_dropLast member)
    · rw [List.dropLast_append_of_ne_nil none, List.mem_append, not_or]
      exact ⟨handed, last⟩
  rw [join_eq_below parent raw fun path present => (above path present).canonical,
    segments_withoutSplat canonical plain atEnd, whole, List.filter_append,
    filter_splat_eq_self handed]

/-- A path that is joined to a parent without splats is free of splats, if its wildcard is at most
its last segment. -/
theorem SplatFree.join {parent : Option String} {raw : String}
    (above : ∀ path ∈ parent, SplatFree path) (solid : Solid raw.toList)
    (last : wildcard ∉ (segments raw).dropLast) : SplatFree (join parent raw) := by
  constructor
  · exact join_canonical parent raw
  · exact solid_join (fun path present => (above path present).solid) solid
  · rw [segments_join above solid last, List.mem_append, not_or]
    exact ⟨wildcard_not_mem_inherited above, by simp⟩

/-! ## Placing all declarations -/

/-- Placing joins a declared path to the full path of the parent that it picks, or to none if it
picks none. -/
theorem fullPath_place (placed : List Placement) (next : Declaration) :
    (Placement.place placed next).fullPath =
      join ((Placement.chosenParent placed next).map (·.fullPath)) next.rawPath := by
  simp only [Placement.place, Placement.chosenParent]

/-- The parents that placing picks are free of splats when everything placed before is, since it
picks one of these. -/
theorem splatFree_chosenParent {placed : List Placement}
    (before : ∀ placement ∈ placed, SplatFree placement.fullPath) (next : Declaration) :
    ∀ path ∈ (Placement.chosenParent placed next).map (·.fullPath), SplatFree path := by
  intro path above
  obtain ⟨parent, chosen, rfl⟩ := Option.map_eq_some_iff.mp above
  exact before parent (Placement.chosenParent_mem chosen)

/-- Every full path is free of splats, provided that no declared path holds a blank or a wildcard
before its end.

Proof: placing joins each declared path to a full path that was placed before. -/
theorem splatFree_fullPath {declarations : List Declaration}
    (solid : ∀ declaration ∈ declarations, Solid declaration.rawPath.toList)
    (last : ∀ declaration ∈ declarations, wildcard ∉ (segments declaration.rawPath).dropLast) :
    ∀ placement ∈ placeAll declarations, SplatFree placement.fullPath := by
  refine List.foldlRecOn (motive := fun placed : List Placement =>
    ∀ placement ∈ placed, SplatFree placement.fullPath) (inOrder declarations) _ ?_ ?_
  · rintro _ ⟨⟩
  · intro placed before next listed placement member
    have given := List.mem_mergeSort.mp listed
    rcases List.mem_append.mp member with old | new
    · exact before placement old
    · rw [List.mem_singleton.mp new, fullPath_place]
      exact SplatFree.join (splatFree_chosenParent before next) (solid next given) (last next given)

/-- Splats never leak into resolved paths, whatever the spans of the declarations are. When
no declared path holds a blank and none holds the wildcard but as its last segment, then no
segment of a full path is the wildcard, and no segment of a resolved route is. The other
segments are all there: a full path has those of the parent that placing picks, unless the
declared path is rooted, and then those of the declared path without its splat. -/
theorem splats_never_leak (declarations : List Declaration)
    (solid : ∀ declaration ∈ declarations, Solid declaration.rawPath.toList)
    (last : ∀ declaration ∈ declarations, wildcard ∉ (segments declaration.rawPath).dropLast) :
    (∀ placement ∈ placeAll declarations, wildcard ∉ segments placement.fullPath) ∧
    (∀ target ∈ resolve declarations none, wildcard ∉ segments target.path) ∧
    ∀ earlier placement later, placeAll declarations = earlier ++ placement :: later →
      segments placement.fullPath =
        inherited ((Placement.chosenParent earlier placement.declaration).map (·.fullPath))
            placement.declaration.rawPath ++
          (segments placement.declaration.rawPath).filter (· ≠ wildcard) := by
  have free := splatFree_fullPath solid last
  refine ⟨fun placement member => (free placement member).free, ?_, ?_⟩
  · intro target resolved
    obtain ⟨placement, member, _, rfl⟩ := mem_resolve.mp resolved
    exact (free placement member).free
  · intro earlier placement later split
    have given : placement.declaration ∈ declarations :=
      exists_mem_placeAll.mp ⟨placement, by simp [split], rfl⟩
    have before : ∀ other ∈ earlier, SplatFree other.fullPath :=
      fun other member => free other (by simp [split, member])
    have settled := placeAll_settled declarations earlier placement later split
    conv_lhs => rw [settled, fullPath_place]
    exact segments_join (splatFree_chosenParent before placement.declaration)
      (solid _ given) (last _ given)

/-- Declarations below a splat: a wildcard inside it, a relative splat inside that one, a
parameter at the bottom, and a relative splat that follows them all. -/
def nestedSplats : List Declaration :=
  [{ rawPath := "/docs/*", start := 0, stop := 100, component := some "Docs", skip := false },
    { rawPath := "*", start := 10, stop := 90, component := some "Any", skip := false },
    { rawPath := "intro/*/", start := 20, stop := 80, component := some "Intro", skip := false },
    { rawPath := ":page", start := 30, stop := 40, component := some "Page", skip := false },
    { rawPath := "faq//*", start := 120, stop := 140, component := none, skip := false }]

/-- The declarations below the splat are placed without their splats, and no resolved route has
one either. -/
theorem nestedSplats_never_leak :
    (placeAll nestedSplats).map (·.fullPath) =
        ["/docs", "/docs", "/docs/intro", "/docs/intro/:page", "/docs/faq"] ∧
      (∀ placement ∈ placeAll nestedSplats, wildcard ∉ segments placement.fullPath) ∧
      ∀ target ∈ resolve nestedSplats none, wildcard ∉ segments target.path := by
  have ordered : inOrder nestedSplats = nestedSplats := List.mergeSort_of_pairwise (by decide)
  obtain ⟨placed, resolved, _⟩ := splats_never_leak nestedSplats (by decide) (by decide)
  refine ⟨?_, placed, resolved⟩
  rw [placeAll, ordered]
  decide +kernel

end ScreenAtlas.Route
