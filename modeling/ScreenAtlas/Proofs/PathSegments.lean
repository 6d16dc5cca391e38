import ScreenAtlas.Proofs.CanonicalPath
import ScreenAtlas.Proofs.JoinedText

/-!
# Paths and their segments

The segments of a path are what stands between its slashes. Slashes that are doubled,
leading or trailing make no segment, so collapsing and dropping them keeps the segments.
A canonical path is nothing but its segments, each behind a slash: two canonical paths
with the same segments are equal.
-/
namespace ScreenAtlas.Text

/-- The text holds no blank. -/
def Solid (text : List Char) : Prop := ∀ c ∈ text, isBlank c = false

instance (text : List Char) : Decidable (Solid text) := List.decidableBAll _ text

/-- A text that takes its characters from one without blanks holds none, in whatever order and
number it takes them. -/
theorem Solid.of_subset {text whole : List Char} (solid : Solid whole) (part : text ⊆ whole) :
    Solid text := fun c member => solid c (part member)

/-- Two texts without blanks hold none when they are put together. -/
theorem Solid.append {left right : List Char} (first : Solid left) (second : Solid right) :
    Solid (left ++ right) := List.forall_mem_append.mpr ⟨first, second⟩

/-- The last character of a text without blanks, where there is one, is no blank. -/
theorem Solid.getLast? {text : List Char} (solid : Solid text) :
    ∀ c ∈ text.getLast?, isBlank c = false :=
  fun c last => solid c (List.mem_of_getLast? last)

/-- Nothing is trimmed from a text without blanks, at either end. -/
theorem Solid.trim_eq {text : List Char} (solid : Solid text) : trim text = text := by
  cases text with
  | nil => rfl
  | cons c rest =>
    obtain ⟨first, others⟩ := List.forall_mem_cons.mp solid
    have ended : Solid rest := others
    rw [trim_cons c rest first, dropTrailing_eq_self ended.getLast?]

end ScreenAtlas.Text

namespace ScreenAtlas.Route

open ScreenAtlas.Text

/-- The non-empty segments of a path, character by character. -/
def parts (path : List Char) : List (List Char) := fields (· == '/') path

/-- The segments of a text are those on one side of any of its slashes and then those on the
other. -/
theorem parts_slash (left right : List Char) :
    parts (left ++ '/' :: right) = parts left ++ parts right :=
  fields_append_cons left right (by decide)

/-- A leading slash makes no segment, since nothing stands before it. -/
theorem parts_cons_slash (path : List Char) : parts ('/' :: path) = parts path :=
  parts_slash [] path

/-- Collapsed slashes leave the segments as they are.

Proof: the segments are collected with the run being read, which a second slash finds
empty. -/
theorem parts_collapseSlashes (path : List Char) : parts (collapseSlashes path) = parts path := by
  have collected (current : List Char) : fieldsFrom (· == '/') current (collapseSlashes path) =
      fieldsFrom (· == '/') current path := by
    induction path generalizing current with
    | nil => rfl
    | cons c rest inductionHypothesis =>
      by_cases doubled : (c == '/' && rest.head? == some '/') = true
      · simp only [collapseSlashes, doubled, ↓reduceIte, inductionHypothesis]
        simp only [Bool.and_eq_true, beq_iff_eq] at doubled
        obtain ⟨rfl, next⟩ := doubled
        obtain ⟨behind, rfl⟩ := List.head?_eq_some_iff.mp next
        simp [fieldsFrom]
      · simp only [collapseSlashes, doubled, Bool.false_eq_true, ↓reduceIte, fieldsFrom,
          inductionHypothesis]
  exact collected []

/-- Trailing slashes make no segments. The induction is on the path from its end. -/
theorem parts_dropTrailingSlashes (path : List Char) :
    parts (dropTrailingSlashes path) = parts path := by
  induction path using List.reverseRecOn with
  | nil => rfl
  | append_singleton front last inductionHypothesis =>
    by_cases slash : last = '/'
    · have dropped : dropTrailingSlashes (front ++ [last]) = dropTrailingSlashes front := by
        simp [dropTrailingSlashes, dropTrailing, slash]
      rw [dropped, inductionHypothesis, slash, parts_slash]
      exact (List.append_nil _).symm
    · rw [dropTrailingSlashes, dropTrailing_append_cons _ front last [] (by simpa using slash)]
      rfl

/-- A slash that is put in front where it is missing makes no segment. -/
theorem parts_withLeadingSlash (path : List Char) : parts (withLeadingSlash path) = parts path := by
  unfold withLeadingSlash
  split
  · rfl
  · exact parts_cons_slash path

/-- Normalization trims a path, unless it is a lone wildcard, and keeps the segments that
remain. -/
theorem parts_normalizeChars {path : List Char} (ordinary : trim path ≠ ['*']) :
    parts (normalizeChars path) = parts (trim path) := by
  have collapsed : parts (collapseSlashes (withLeadingSlash (trim path))) = parts (trim path) := by
    rw [parts_collapseSlashes, parts_withLeadingSlash]
  have filled {result : List Char} (kept : parts result = parts (trim path)) :
      parts (if result.isEmpty then ['/'] else result) = parts (trim path) := by
    split
    · next none =>
      rw [← kept, List.isEmpty_iff.mp none]
      rfl
    · exact kept
  unfold normalizeChars
  split
  · next none =>
    have empty : path = [] := by simpa [ordinary] using none
    rw [empty]
    rfl
  · apply filled
    split
    · rw [parts_dropTrailingSlashes, collapsed]
    · exact collapsed

/-- A text without slashes is one segment, unless it is empty. -/
theorem parts_of_plain {text : List Char} (filled : text ≠ []) (plain : '/' ∉ text) :
    parts text = [text] :=
  fields_of_clear filled fun _ member =>
    beq_eq_false_iff_ne.mpr fun slash => plain (slash ▸ member)

/-- Segments that slashes join are told apart again, provided that none is empty and none holds a
slash. -/
theorem parts_intercalate {segments : List (List Char)}
    (filled : ∀ segment ∈ segments, segment ≠ []) (plain : ∀ segment ∈ segments, '/' ∉ segment) :
    parts (['/'].intercalate segments) = segments := by
  by_cases none : segments = []
  · rw [none]
    rfl
  · have split : (['/'].intercalate segments).splitOnP (· == '/') = segments :=
      List.splitOn_intercalate '/' plain none
    rw [parts, fields_eq_filter, split, List.filter_eq_self]
    intro segment member
    simpa using filled segment member

/-- A text with single slashes that neither starts nor ends in one is its segments, joined
by slashes.

Proof: by induction on the length of the text. Its first segment ends before the first
slash, and what follows that slash is a text of the same kind. -/
theorem intercalate_parts {text : List Char} (started : text.head? ≠ some '/')
    (single : ¬ ['/', '/'] <:+: text) (ended : text.getLast? ≠ some '/') :
    ['/'].intercalate (parts text) = text := by
  induction size : text.length using Nat.strongRecOn generalizing text with
  | ind length inductionHypothesis =>
    by_cases slash : '/' ∈ text
    · obtain ⟨segment, rest, rfl, plain⟩ := List.eq_append_cons_of_mem slash
      have filled : segment ≠ [] := by
        rintro rfl
        exact started rfl
      have left : rest ≠ [] := by
        rintro rfl
        exact ended (List.getLast?_concat)
      have joined : ['/'].intercalate (parts rest) = rest := by
        apply inductionHypothesis rest.length _ _ _ _ rfl
        · rw [← size]
          simp only [List.length_append, List.length_cons]
          omega
        · intro doubled
          obtain ⟨behind, rfl⟩ := List.head?_eq_some_iff.mp doubled
          exact single ⟨segment, behind, by simp⟩
        · exact fun occurs => single (occurs.trans ⟨segment ++ ['/'], [], by simp⟩)
        · intro last
          apply ended
          simp [List.getLast?_append, List.getLast?_cons, last]
      have several : parts rest ≠ [] := by
        intro none
        exact left (by rw [← joined, none]; rfl)
      rw [parts_slash, parts_of_plain filled plain, List.singleton_append,
        List.intercalate_cons_of_ne_nil several, joined]
      simp
    · by_cases filled : text = []
      · rw [filled]
        rfl
      · rw [parts_of_plain filled slash]
        simp

/-- A canonical path is its segments, each behind a slash, because behind its first slash its
slashes are single and inside. -/
theorem Canonical.eq_joined {path : List Char} (canonical : Canonical path) :
    path = '/' :: ['/'].intercalate (parts path) := by
  obtain ⟨rest, rfl⟩ := List.head?_eq_some_iff.mp canonical.rooted
  rw [parts_cons_slash, intercalate_parts]
  · intro doubled
    obtain ⟨behind, rfl⟩ := List.head?_eq_some_iff.mp doubled
    exact canonical.single (List.IsPrefix.isInfix ⟨behind, rfl⟩)
  · exact fun occurs => canonical.single (List.infix_cons occurs)
  · rcases canonical.closed with root | closed
    · simp_all
    · intro last
      apply closed
      simp [List.getLast?_cons, last]

/-- A normal form is the segments of the trimmed path, each behind a slash, unless that is a
lone wildcard. -/
theorem normalizeChars_eq_joined {path : List Char} (ordinary : trim path ≠ ['*']) :
    normalizeChars path = '/' :: ['/'].intercalate (parts (trim path)) := by
  rw [(normalizeChars_canonical path).eq_joined, parts_normalizeChars ordinary]

/-- Segments behind slashes are their own normal form, when they hold neither slashes nor
blanks and none is empty. -/
theorem normalizeChars_joined {segments : List (List Char)}
    (filled : ∀ segment ∈ segments, segment ≠ []) (plain : ∀ segment ∈ segments, '/' ∉ segment)
    (solid : ∀ segment ∈ segments, Solid segment) :
    normalizeChars ('/' :: ['/'].intercalate segments) = '/' :: ['/'].intercalate segments := by
  have clear : Solid ('/' :: ['/'].intercalate segments) := by
    refine List.forall_mem_cons.mpr ⟨by decide, ?_⟩
    intro c member
    rcases of_mem_intercalate member with rfl | ⟨segment, listed, inside⟩
    · decide
    · exact solid segment listed c inside
  have ordinary : trim ('/' :: ['/'].intercalate segments) ≠ ['*'] := by
    rw [clear.trim_eq]
    simp
  rw [normalizeChars_eq_joined ordinary, clear.trim_eq, parts_cons_slash,
    parts_intercalate filled plain]

/-- Canonical paths with the same segments are equal, as each of them is its segments behind
slashes. -/
theorem Canonical.ext {left right : List Char} (first : Canonical left) (second : Canonical right)
    (same : parts left = parts right) : left = right := by
  rw [first.eq_joined, same, ← second.eq_joined]

end ScreenAtlas.Route
