import ScreenAtlas.Analysis.Selection

/-!
# Which files are selected

For a limit that is not negative the selection has a plain description: the manifest if
it is listed, and behind it the supported files up to the limit, in the order of the
listing. A selection is selected from itself, and so is what is left of it when files
are taken away: nothing moves up into a place that becomes free.
-/
namespace ScreenAtlas.Analysis

/-- The path is that of a file that counts against the limit. -/
def isSource (settings : Settings) (path : String) : Bool :=
  path != Manifest.path && isSupported settings.supportedExtensions path

/-- The manifest by itself, where it is listed, and nothing otherwise. -/
def manifestOf (paths : List String) : List String :=
  if Manifest.path ∈ paths then [Manifest.path] else []

/-- The manifest does not count against the limit, even if its ending is among the supported ones.
-/
theorem isSource_manifest (settings : Settings) : isSource settings Manifest.path = false := by
  simp [isSource]

/-- A selection is the manifest and the first files that count, as many as the limit
allows. -/
theorem selectPaths_eq {settings : Settings} (capped : 0 ≤ settings.fileLimit)
    (paths : List String) :
    selectPaths settings paths =
      manifestOf paths ++ (paths.filter (isSource settings)).take settings.fileLimit.toNat := by
  have chosen : upTo settings.fileLimit (paths.filter (isSource settings)) =
      (paths.filter (isSource settings)).take settings.fileLimit.toNat := if_pos capped
  show (if paths.contains Manifest.path then
      Manifest.path :: upTo settings.fileLimit (paths.filter (isSource settings))
    else upTo settings.fileLimit (paths.filter (isSource settings))) = _
  rw [chosen, manifestOf]
  by_cases listed : Manifest.path ∈ paths
  · simp [listed]
  · simp [listed]

/-- The manifest is selected once if it is listed, and not otherwise, because it is no file that
counts. -/
theorem count_manifest_selectPaths {settings : Settings} (capped : 0 ≤ settings.fileLimit)
    (paths : List String) :
    (selectPaths settings paths).count Manifest.path =
      if Manifest.path ∈ paths then 1 else 0 := by
  have absent :
      Manifest.path ∉ (paths.filter (isSource settings)).take settings.fileLimit.toNat := by
    intro member
    have counted := (List.mem_filter.mp (List.mem_of_mem_take member)).2
    simp [isSource_manifest] at counted
  rw [selectPaths_eq capped, List.count_append, List.count_eq_zero_of_not_mem absent, manifestOf]
  split <;> simp

/-- The paths form a selection: the manifest may stand in front, and behind it stand no
more files than the limit allows, each of which counts. -/
def Selected (settings : Settings) (paths : List String) : Prop :=
  ∃ rest, paths = manifestOf paths ++ rest ∧ (∀ path ∈ rest, isSource settings path = true) ∧
    rest.length ≤ settings.fileLimit.toNat

/-- What is selected forms a selection, for every listing and every limit that is not negative. -/
theorem selected_selectPaths {settings : Settings} (capped : 0 ≤ settings.fileLimit)
    (paths : List String) : Selected settings (selectPaths settings paths) := by
  have kept : manifestOf (selectPaths settings paths) = manifestOf paths := by
    have count := count_manifest_selectPaths capped paths
    unfold manifestOf
    by_cases listed : Manifest.path ∈ paths
    · rw [if_pos listed, if_pos]
      rw [if_pos listed] at count
      exact List.count_pos_iff.mp (by omega)
    · rw [if_neg listed, if_neg]
      rw [if_neg listed] at count
      exact List.count_eq_zero.mp count
  refine ⟨(paths.filter (isSource settings)).take settings.fileLimit.toNat, ?_, ?_, ?_⟩
  · rw [kept]
    exact selectPaths_eq capped paths
  · intro path member
    exact (List.mem_filter.mp (List.mem_of_mem_take member)).2
  · exact List.length_take_le _ _

namespace Selected

variable {settings : Settings} {paths : List String}

/-- Taking files away leaves a selection, whether or not the manifest is among them. -/
theorem filter (selected : Selected settings paths) (keep : String → Bool) :
    Selected settings (paths.filter keep) := by
  obtain ⟨rest, shape, sources, short⟩ := selected
  have front : (manifestOf paths).filter keep = manifestOf (paths.filter keep) := by
    unfold manifestOf
    by_cases listed : Manifest.path ∈ paths
    · cases kept : keep Manifest.path <;> simp [listed, kept]
    · simp [listed]
  refine ⟨rest.filter keep, ?_, ?_, ?_⟩
  · rw [← front, ← List.filter_append, ← shape]
  · intro path member
    exact sources path (List.mem_filter.mp member).1
  · exact Nat.le_trans (List.length_filter_le keep rest) short

/-- Selecting from a selection changes nothing: the manifest stands in front already, and the
others all count and are few enough. -/
theorem selectPaths_eq_self (selected : Selected settings paths)
    (capped : 0 ≤ settings.fileLimit) : selectPaths settings paths = paths := by
  obtain ⟨rest, shape, sources, short⟩ := selected
  have front : (manifestOf paths).filter (isSource settings) = [] := by
    rw [List.filter_eq_nil_iff]
    intro path member
    unfold manifestOf at member
    split at member
    · rw [List.mem_singleton.mp member, isSource_manifest]
      decide
    · cases member
  have counted : paths.filter (isSource settings) = rest := by
    rw [shape, List.filter_append, front, List.nil_append]
    exact List.filter_eq_self.mpr sources
  rw [selectPaths_eq capped, counted, List.take_of_length_le short, ← shape]

end Selected

end ScreenAtlas.Analysis
