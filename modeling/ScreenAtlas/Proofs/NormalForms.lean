import ScreenAtlas.Proofs.PathSegments

/-!
# What normalization computes

Normalization trims a path, puts a slash in front, collapses slashes and drops the one at
the end. Taken together these steps do one thing: they list the segments of the trimmed path,
each behind a slash. Only the lone wildcard is read differently.

A rooted path can only lose characters on the way. So a path is its own normal form exactly
when there is nothing to lose: when it is canonical and trimming leaves it as it is. A rooted
path starts with no blank, so only a blank at its end can be trimmed.
-/
namespace ScreenAtlas.Route

open ScreenAtlas.Text

/-- A rooted path is trimmed at its end only, as the slash in front of it is no blank. -/
theorem trim_of_rooted (rest : List Char) :
    trim ('/' :: rest) = '/' :: dropTrailing isBlank rest :=
  trim_cons '/' rest (by decide)

/-- Of a rooted path the normal form only leaves out characters of the trimmed path, since there
is no slash to put in front. -/
theorem normalizeChars_sublist_trim {path : List Char} (rooted : path.head? = some '/') :
    (normalizeChars path).Sublist (trim path) := by
  obtain ⟨rest, rfl⟩ := List.head?_eq_some_iff.mp rooted
  have slash : ['/'].Sublist (trim ('/' :: rest)) := by
    rw [trim_of_rooted]
    exact (List.nil_sublist _).cons_cons '/'
  have leading : withLeadingSlash (trim ('/' :: rest)) = trim ('/' :: rest) := by
    simp [trim_of_rooted, withLeadingSlash]
  have collapsed := collapseSlashes_sublist (trim ('/' :: rest))
  have filled {result : List Char} (kept : result.Sublist (trim ('/' :: rest))) :
      (if result.isEmpty then ['/'] else result).Sublist (trim ('/' :: rest)) := by
    split
    · exact slash
    · exact kept
  unfold normalizeChars
  split
  · exact slash
  · rw [leading]
    apply filled
    split
    · exact (isPrefix_dropTrailing _ _).sublist.trans collapsed
    · exact collapsed

/-- Trimming leaves a rooted path as it is exactly when the path does not end in a blank. -/
theorem trim_eq_self_iff {path : List Char} (rooted : path.head? = some '/') :
    trim path = path ↔ path.getLast?.any isBlank = false := by
  obtain ⟨rest, rfl⟩ := List.head?_eq_some_iff.mp rooted
  have solid : isBlank '/' = false := by decide
  have whole : trim ('/' :: rest) = dropTrailing isBlank ('/' :: rest) := by
    rw [trim_of_rooted]
    exact (dropTrailing_append_cons isBlank [] '/' rest solid).symm
  rw [whole]
  cases last : ('/' :: rest).getLast? with
  | none => simp at last
  | some c =>
    rw [Option.any_some]
    constructor
    · intro same
      exact dropTrailing_getLast? isBlank ('/' :: rest) c (by rw [same, last])
    · intro ends
      apply dropTrailing_eq_self
      rintro d found
      rw [last, Option.mem_some] at found
      rwa [← found]

/-- A path is its own normal form exactly when it is canonical and does not end in a blank.

Proof: a normal form is canonical, hence rooted, and a rooted path that is its own normal form
is a part of its trimmed form, from which nothing can be missing. -/
theorem normalizeChars_eq_self_iff (path : List Char) :
    normalizeChars path = path ↔ Canonical path ∧ path.getLast?.any isBlank = false := by
  constructor
  · intro fixed
    have canonical : Canonical path := fixed ▸ normalizeChars_canonical path
    refine ⟨canonical, (trim_eq_self_iff canonical.rooted).mp ?_⟩
    have kept : path.Sublist (trim path) := by
      simpa only [fixed] using normalizeChars_sublist_trim canonical.rooted
    exact (trim_sublist path).antisymm kept
  · rintro ⟨canonical, ends⟩
    apply normalizeChars_eq_self canonical
    intro c last
    simpa [Option.mem_def.mp last] using ends

/-- The segments of a path are the parts between its slashes that are not empty, in their order.
-/
theorem parts_eq_filter (path : List Char) : parts path = (path.splitOn '/').filter (· ≠ []) := by
  rw [parts, fields_eq_filter]
  refine List.filter_congr fun part _ => ?_
  cases part <;> rfl

/-- Normalization computes the segment form.

* A path that is the wildcard, up to blanks around it, becomes the root. Any other path becomes
  a slash and behind it the non-empty parts between the slashes of the trimmed path, joined by
  slashes again.
* What comes out is always canonical.
* The paths that normalization leaves as they are, are the canonical ones that do not end in
  a blank. -/
theorem normalize_computes_segment_form (path : String) :
    normalize path =
        (if trimmed path = wildcard then "/"
        else "/" ++ "/".intercalate
          ((((trimmed path).toList.splitOn '/').filter (· ≠ [])).map String.ofList)) ∧
      Canonical (normalize path).toList ∧
      (normalize path = path ↔
        Canonical path.toList ∧ path.toList.getLast?.any isBlank = false) := by
  refine ⟨?_, ?_, ?_⟩
  · have spelled : trimmed path = wildcard ↔ trim path.toList = ['*'] := by
      rw [← String.toList_inj, trimmed, String.toList_ofList]
      rfl
    rw [← String.toList_inj, normalize, String.toList_ofList]
    split
    · next lone => simp [normalizeChars, spelled.mp lone]
    · next ordinary =>
      rw [normalizeChars_eq_joined (mt spelled.mpr ordinary), parts_eq_filter]
      simp [trimmed, String.toList_intercalate, Function.comp_def]
  · rw [normalize, String.toList_ofList]
    exact normalizeChars_canonical path.toList
  · rw [← normalizeChars_eq_self_iff, ← String.toList_inj, normalize, String.toList_ofList]

example : normalize " //a // b/ /" = "/a / b/ " := by decide +kernel

end ScreenAtlas.Route
