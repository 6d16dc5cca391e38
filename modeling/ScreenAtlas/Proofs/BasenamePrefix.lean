import ScreenAtlas.Proofs.PathSegments
import ScreenAtlas.Proofs.Placement

/-!
# A basename only prefixes

A router's basename is put in front of every resolved path, and the routes are made
distinct after that. The segments of a prefixed path are those of the basename followed by
those of the path, so prefixing takes distinct canonical paths to distinct ones. The
routes below a basename are therefore those without one, in the same order, each with its
path prefixed.

White space is where this ends: normalization trims, so a path or a basename that ends in
a blank loses it when it is prefixed.
-/
namespace ScreenAtlas.Route

open ScreenAtlas.Text

/-- Making values distinct commutes with a map, as long as the images of the values at hand tell
these values apart. -/
theorem distinct_map {α β : Type} [BEq α] [LawfulBEq α] [BEq β] [LawfulBEq β] (image : α → β)
    {values : List α}
    (apart : ∀ left ∈ values, ∀ right ∈ values, image left = image right → left = right) :
    distinct (values.map image) = (distinct values).map image := by
  have faithful : ∀ left ∈ [] ++ values, ∀ right ∈ [] ++ values,
      id (image left) = id (image right) ↔ id left = id right :=
    fun left first right second => ⟨apart left first right second, congrArg image⟩
  exact gathersBy_addNew.foldl_map gathersBy_addNew image faithful

/-! ## Full paths hold no blanks -/

/-- Normalization brings in no character but slashes, since each of its steps either drops
characters or adds a slash in front. -/
theorem normalizeChars_subset (path : List Char) : normalizeChars path ⊆ '/' :: path := by
  have root : ['/'] ⊆ '/' :: path := List.cons_subset_cons '/' (List.nil_subset path)
  have rooted : withLeadingSlash (trim path) ⊆ '/' :: path := by
    unfold withLeadingSlash
    split
    · exact List.subset_cons_of_subset '/' (trim_sublist path).subset
    · exact List.cons_subset_cons '/' (trim_sublist path).subset
  have collapsed : collapseSlashes (withLeadingSlash (trim path)) ⊆ '/' :: path :=
    List.Subset.trans (collapseSlashes_sublist _).subset rooted
  have shortened : dropTrailingSlashes (collapseSlashes (withLeadingSlash (trim path))) ⊆
      '/' :: path := List.Subset.trans (isPrefix_dropTrailing _ _).subset collapsed
  unfold normalizeChars
  dsimp only
  split_ifs
  all_goals assumption

/-- The normal form of a text without blanks holds none, as a slash is not a blank. -/
theorem solid_normalizeChars {path : List Char} (solid : Solid path) :
    Solid (normalizeChars path) := by
  have below : Solid ('/' :: path) := List.forall_mem_cons.mpr ⟨by decide, solid⟩
  exact below.of_subset (normalizeChars_subset path)

/-- Dropping a splat brings no blank in: what is left is a part of the path, in normal form. -/
theorem solid_withoutSplat {path : String} (solid : Solid path.toList) :
    Solid (withoutSplat path).toList := by
  unfold withoutSplat
  split
  · next reversed split =>
    rw [String.toList_ofList]
    apply solid_normalizeChars
    apply solid.of_subset
    intro c member
    rw [← List.mem_reverse, split]
    simp [List.mem_reverse.mp member]
  · exact solid

/-- Joining a path to that of its parent brings no blank in, whether or not there is a parent, if
both paths hold none. -/
theorem solid_join {parent : Option String} {raw : String}
    (above : ∀ path ∈ parent, Solid path.toList) (solid : Solid raw.toList) :
    Solid (join parent raw).toList := by
  have slashed : Solid ('/' :: raw.toList) := List.forall_mem_cons.mpr ⟨by decide, solid⟩
  unfold join
  apply solid_withoutSplat
  rw [String.toList_ofList]
  apply solid_normalizeChars
  split
  · exact solid
  · cases parent with
    | none => exact slashed
    | some parent =>
      have kept := (above parent rfl).of_subset (isPrefix_dropTrailing (· == '/') _).subset
      exact kept.append slashed

/-- Full paths hold no blank when the declared paths hold none.

Proof: placing joins each declared path to a full path that was placed before. -/
theorem solid_fullPath {declarations : List Declaration}
    (solid : ∀ declaration ∈ declarations, Solid declaration.rawPath.toList) :
    ∀ placement ∈ placeAll declarations, Solid placement.fullPath.toList := by
  refine List.foldlRecOn (motive := fun placed : List Placement =>
    ∀ placement ∈ placed, Solid placement.fullPath.toList) (inOrder declarations) _ ?_ ?_
  · rintro _ ⟨⟩
  · intro placed before next listed placement member
    rcases List.mem_append.mp member with old | new
    · exact before placement old
    · rw [List.mem_singleton.mp new]
      apply solid_join
      · intro path above
        obtain ⟨parent, chosen, rfl⟩ := Option.map_eq_some_iff.mp above
        exact before parent (Placement.chosenParent_mem chosen)
      · exact solid next (List.mem_mergeSort.mp listed)

/-! ## Segments below a basename -/

/-- The text of a path below a basename: the basename without its trailing slashes, and the
path unless it is the root. -/
def mounted (base : List Char) (path : String) : List Char :=
  withLeadingSlash base ++ if path == "/" then [] else path.toList

/-- What is mounted ends like the path, or like the basename when the path is the root. A basename
without characters is left out, as it has no end. -/
theorem mounted_getLast? {base : List Char} (filled : base ≠ []) {path : String}
    (canonical : Canonical path.toList) :
    (mounted base path).getLast? =
      if path == "/" then base.getLast? else path.toList.getLast? := by
  unfold mounted
  split
  · rw [List.append_nil, withLeadingSlash]
    split
    · rfl
    · rw [List.getLast?_cons]
      obtain ⟨last, ends⟩ := Option.isSome_iff_exists.mp (List.getLast?_isSome.mpr filled)
      simp [ends]
  · obtain ⟨rest, split⟩ := List.head?_eq_some_iff.mp canonical.rooted
    rw [split, List.getLast?_append_of_ne_nil _ (List.cons_ne_nil _ _)]

/-- The segments of what is mounted are those of the basename and then those of the path, because
a canonical path starts with a slash. -/
theorem parts_mounted (base : List Char) {path : String} (canonical : Canonical path.toList) :
    parts (mounted base path) = parts base ++ parts path.toList := by
  unfold mounted
  split
  · next root =>
    rw [List.append_nil, parts_withLeadingSlash, beq_iff_eq.mp root]
    exact (List.append_nil _).symm
  · obtain ⟨rest, split⟩ := List.head?_eq_some_iff.mp canonical.rooted
    rw [split, parts_slash, parts_withLeadingSlash, parts_cons_slash]

/-- A canonical path that ends in no blank. Normalization leaves it alone. -/
structure Normal (path : String) : Prop where
  canonical : Canonical path.toList
  ended : ∀ c ∈ path.toList.getLast?, isBlank c = false

/-- A basename with more than slashes is mounted, and nothing but slashes collapses.

Proof: the mounted text ends in neither a blank nor a slash. -/
theorem Normal.underBasename_eq {path : String} (normal : Normal path) {basename : String}
    (plain : Solid basename.toList) (filled : dropTrailingSlashes basename.toList ≠ []) :
    (underBasename (some basename) path).toList =
        collapseSlashes (mounted (dropTrailingSlashes basename.toList) path) ∧
      ∀ c ∈ (mounted (dropTrailingSlashes basename.toList) path).getLast?, isBlank c = false := by
  have last := mounted_getLast? filled normal.canonical
  have ended : ∀ c ∈ (mounted (dropTrailingSlashes basename.toList) path).getLast?,
      isBlank c = false := by
    rw [last]
    split
    · exact (plain.of_subset (isPrefix_dropTrailing _ _).subset).getLast?
    · exact normal.ended
  have open_ : (mounted (dropTrailingSlashes basename.toList) path).getLast? ≠ some '/' := by
    rw [last]
    split
    · intro slash
      simpa using dropTrailing_getLast? (· == '/') basename.toList '/' slash
    · next below =>
      rcases normal.canonical.closed with root | closed
      · exact absurd (String.toList_injective root) (by simpa using below)
      · exact closed
  have rooted : (mounted (dropTrailingSlashes basename.toList) path).head? = some '/' := by
    rw [mounted, List.head?_append, withLeadingSlash_head?]
    rfl
  refine ⟨?_, ended⟩
  rw [← normalizeChars_eq_collapseSlashes rooted ended open_]
  simp [underBasename, filled, mounted]

/-- A basename of slashes only is no basename: nothing is left of it without its trailing slashes,
and the path stays. -/
theorem underBasename_of_slashes {basename : String}
    (empty : dropTrailingSlashes basename.toList = []) (path : String) :
    underBasename (some basename) path = path := by
  simp [underBasename, empty]

variable {basename : Option String}

/-- The segments below a basename are those of the basename and then those of the path. Without a
basename there are none to put in front. -/
theorem Normal.parts_underBasename {path : String} (normal : Normal path)
    (plain : ∀ text ∈ basename, Solid text.toList) :
    parts (underBasename basename path).toList =
      parts (basename.getD "").toList ++ parts path.toList := by
  cases basename with
  | none => rfl
  | some basename =>
    rw [Option.getD_some, ← parts_dropTrailingSlashes basename.toList]
    by_cases empty : dropTrailingSlashes basename.toList = []
    · rw [underBasename_of_slashes empty, empty]
      rfl
    · rw [(normal.underBasename_eq (plain basename rfl) empty).1, parts_collapseSlashes,
        parts_mounted _ normal.canonical]

/-- A path below a basename is canonical and ends in no blank if this holds of the path and the
basename has no blanks. So one may prefix it again. -/
theorem Normal.underBasename {path : String} (normal : Normal path)
    (plain : ∀ text ∈ basename, Solid text.toList) : Normal (underBasename basename path) := by
  refine ⟨underBasename_canonical basename path normal.canonical, ?_⟩
  cases basename with
  | none => exact normal.ended
  | some basename =>
    by_cases empty : dropTrailingSlashes basename.toList = []
    · rw [underBasename_of_slashes empty]
      exact normal.ended
    · obtain ⟨collapsed, ended⟩ := normal.underBasename_eq (plain basename rfl) empty
      rw [collapsed, collapseSlashes_getLast?]
      exact ended

/-- Paths below one basename are equal only when the paths are: their segments agree behind those
of the basename, and segments determine a canonical path. -/
theorem Normal.eq_of_underBasename_eq {left right : String} (first : Normal left)
    (second : Normal right) (plain : ∀ text ∈ basename, Solid text.toList)
    (same : Route.underBasename basename left = Route.underBasename basename right) :
    left = right := by
  have firstParts := first.parts_underBasename plain
  rw [same, second.parts_underBasename plain] at firstParts
  apply String.toList_injective
  exact first.canonical.ext second.canonical (List.append_cancel_left firstParts).symm

/-- A path that is mounted twice is mounted below both basenames at once, since both paths have
the same segments in the same order. -/
theorem Normal.underBasename_twice {path : String} (normal : Normal path) {outer inner : String}
    (outerPlain : Solid outer.toList) (innerPlain : Solid inner.toList) :
    Route.underBasename (some outer) (Route.underBasename (some inner) path) =
      Route.underBasename (some (outer ++ "/" ++ inner)) path := by
  have plain {text : String} (solid : Solid text.toList) :
      ∀ other ∈ some text, Solid other.toList := by
    intro other same
    rw [← Option.some.inj same]
    exact solid
  have both : Solid (outer ++ "/" ++ inner).toList := by
    simp only [String.toList_append]
    exact (outerPlain.append (by decide)).append innerPlain
  have below := normal.underBasename (plain innerPlain)
  have left := below.underBasename (plain outerPlain)
  have right := normal.underBasename (plain both)
  apply String.toList_injective
  apply left.canonical.ext right.canonical
  calc parts (Route.underBasename (some outer) (Route.underBasename (some inner) path)).toList
      = parts outer.toList ++ (parts inner.toList ++ parts path.toList) := by
        rw [below.parts_underBasename (plain outerPlain),
          normal.parts_underBasename (plain innerPlain)]
        rfl
    _ = parts (outer.toList ++ '/' :: inner.toList) ++ parts path.toList := by
        rw [parts_slash, List.append_assoc]
    _ = parts (Route.underBasename (some (outer ++ "/" ++ inner)) path).toList := by
        rw [normal.parts_underBasename (plain both)]
        simp

/-! ## Resolution below a basename -/

/-- The route with its path below a basename and its component unchanged. -/
def Target.below (basename : Option String) (target : Target) : Target :=
  { target with path := underBasename basename target.path }

/-- The routes of placements, without a basename and before they are made distinct. -/
def visible (placed : List Placement) : List Target :=
  (placed.filter fun placement => !placement.skip).map fun placement =>
    { path := placement.fullPath, component := placement.declaration.component }

/-- Visible paths are normal when the declared paths hold no blank, because every full path is
canonical. -/
theorem normal_of_mem_visible {declarations : List Declaration}
    (solid : ∀ declaration ∈ declarations, Solid declaration.rawPath.toList)
    {target : Target} (listed : target ∈ visible (placeAll declarations)) :
    Normal target.path := by
  obtain ⟨placement, kept, rfl⟩ := List.mem_map.mp listed
  have placed := (List.mem_filter.mp kept).1
  exact ⟨fullPath_canonical placed, (solid_fullPath solid placement placed).getLast?⟩

/-- The routes below a basename are those without one, each prefixed.

Proof: prefixing tells the visible routes apart, so it makes no difference whether they are
made distinct before or after it. -/
theorem resolve_below {declarations : List Declaration}
    (solid : ∀ declaration ∈ declarations, Solid declaration.rawPath.toList)
    (plain : ∀ text ∈ basename, Solid text.toList) :
    resolve declarations basename = (resolve declarations none).map (Target.below basename) := by
  have prefixed : resolve declarations basename =
      distinct ((visible (placeAll declarations)).map (Target.below basename)) := by
    simp only [visible, List.map_map]
    rfl
  rw [prefixed]
  apply distinct_map
  rintro ⟨left, component⟩ first ⟨right, other⟩ second same
  obtain ⟨paths, components⟩ := Target.mk.inj same
  have equal := (normal_of_mem_visible solid first).eq_of_underBasename_eq
    (normal_of_mem_visible solid second) plain paths
  rw [show left = right from equal, show component = other from components]

/-- Routes below a basename: when neither the declared paths nor the basename hold a blank,
they are the routes without a basename, in the same order and with the same components.
Each path has the segments of the basename in front of its own, and is canonical. A path
below two basenames stands below the two joined by a slash. -/
theorem basename_only_prefixes (declarations : List Declaration) (basename : Option String)
    (solid : ∀ declaration ∈ declarations, Solid declaration.rawPath.toList)
    (plain : ∀ text ∈ basename, Solid text.toList) :
    resolve declarations basename =
        (resolve declarations none).map (fun target =>
          { target with path := underBasename basename target.path }) ∧
      (∀ target ∈ resolve declarations none,
        segments (underBasename basename target.path) =
            segments (basename.getD "") ++ segments target.path ∧
          Canonical (underBasename basename target.path).toList) ∧
      ∀ outer inner path : String, Solid outer.toList → Solid inner.toList → Normal path →
        underBasename (some outer) (underBasename (some inner) path) =
          underBasename (some (outer ++ "/" ++ inner)) path := by
  refine ⟨resolve_below solid plain, ?_, ?_⟩
  · intro target resolved
    have listed : target ∈ visible (placeAll declarations) := by
      obtain ⟨placement, placed, kept, rfl⟩ := mem_resolve.mp resolved
      exact List.mem_map_of_mem (List.mem_filter.mpr ⟨placed, by simpa using kept⟩)
    have normal := normal_of_mem_visible solid listed
    constructor
    · simp only [segments]
      rw [← List.map_append]
      exact congrArg (List.map String.ofList) (normal.parts_underBasename plain)
    · exact (normal.underBasename plain).canonical
  · intro outer inner path outerPlain innerPlain normal
    exact normal.underBasename_twice outerPlain innerPlain

/-- A declaration below the root. -/
def userDeclaration : Declaration :=
  { rawPath := "users/:id/", start := 0, stop := 40, component := some "User", skip := false }

/-- The declaration is resolved below a basename that is written with spare slashes, and mounting
twice agrees with mounting once. -/
theorem userDeclaration_prefixed :
    resolve [userDeclaration] (some "app//v1/") = [⟨"/app/v1/users/:id", some "User"⟩] ∧
      underBasename (some "app/") (underBasename (some "//v1") "/users/:id") =
        underBasename (some "app///v1") "/users/:id" := by
  have solid : Solid "/users/:id".toList := by decide
  have normal : Normal "/users/:id" := ⟨⟨by decide, by decide, by decide⟩, solid.getLast?⟩
  obtain ⟨routes, _, twice⟩ := basename_only_prefixes [userDeclaration] (some "app//v1/")
    (by decide) (by decide)
  refine ⟨routes.trans ?_, twice "app/" "//v1" "/users/:id" (by decide) (by decide) normal⟩
  decide +kernel

end ScreenAtlas.Route
