import Mathlib.Data.List.Infix
import ScreenAtlas.Route.Path

/-!
# Canonical route paths

A canonical path starts with a slash, holds no two slashes in a row and ends in a
slash only when it is the root. Normalization always yields a canonical path, and
so does everything that is built from it: joined paths, paths without their splat
and paths below a basename.

Joining drops the trailing slashes of the parent before it puts a slash between
the two paths. For a canonical parent this makes no difference after
normalization, so a joined path is the normal form of the plain concatenation.
-/
namespace ScreenAtlas.Text

/-- What remains when trailing characters are dropped is a prefix of the text. -/
theorem isPrefix_dropTrailing (belongs : Char → Bool) (text : List Char) :
    dropTrailing belongs text <+: text := by
  rw [← List.reverse_suffix]
  simpa [dropTrailing] using List.dropWhile_suffix belongs (l := text.reverse)

/-- Trimming only leaves out characters: those of a prefix and then those of a suffix. -/
theorem trim_sublist (text : List Char) : (trim text).Sublist text :=
  (isPrefix_dropTrailing isBlank _).sublist.trans (List.dropWhile_sublist isBlank)

/-- What remains after dropping does not end in a dropped character, since dropping goes on up to
the first one that is kept. -/
theorem dropTrailing_getLast? (belongs : Char → Bool) (text : List Char) (c : Char)
    (last : (dropTrailing belongs text).getLast? = some c) : belongs c = false := by
  rw [dropTrailing, List.getLast?_reverse] at last
  have outside := List.head?_dropWhile_not belongs text.reverse
  rw [last] at outside
  simpa using outside

/-- Up to a character outside the class nothing is dropped, so it is enough to look at what stands
behind it. -/
theorem dropTrailing_append_cons (belongs : Char → Bool) (front : List Char) (c : Char)
    (text : List Char) (outside : belongs c = false) :
    dropTrailing belongs (front ++ c :: text) = front ++ c :: dropTrailing belongs text := by
  have stops : ∀ reversed tail : List Char,
      (reversed ++ c :: tail).dropWhile belongs = reversed.dropWhile belongs ++ c :: tail := by
    intro reversed tail
    induction reversed with
    | nil => simp [outside]
    | cons first rest inductionHypothesis =>
      by_cases dropped : belongs first = true
      · simpa [dropped] using inductionHypothesis
      · simp [dropped]
  simp [dropTrailing, stops]

/-- Nothing is dropped from a text that ends outside the class. -/
theorem dropTrailing_eq_self {belongs : Char → Bool} {text : List Char}
    (outside : ∀ c ∈ text.getLast?, belongs c = false) : dropTrailing belongs text = text := by
  cases text using List.reverseRecOn with
  | nil => rfl
  | append_singleton front c =>
    exact dropTrailing_append_cons belongs front c [] (outside c (by simp))

/-- Trimming a text that does not start with a blank only drops its trailing blanks. -/
theorem trim_cons (c : Char) (text : List Char) (solid : isBlank c = false) :
    trim (c :: text) = c :: dropTrailing isBlank text := by
  simpa [trim, trimOf, solid] using dropTrailing_append_cons isBlank [] c text solid

end ScreenAtlas.Text

namespace ScreenAtlas.Route

open ScreenAtlas.Text

/-- The canonical form of a path, on its characters. -/
structure Canonical (path : List Char) : Prop where
  rooted : path.head? = some '/'
  single : ¬ ['/', '/'] <:+: path
  closed : path = ['/'] ∨ path.getLast? ≠ some '/'

/-- Collapsing only drops characters and keeps the others in order. The induction is on the path.
-/
theorem collapseSlashes_sublist (path : List Char) : (collapseSlashes path).Sublist path := by
  induction path with
  | nil => exact List.Sublist.slnil
  | cons c rest inductionHypothesis =>
    unfold collapseSlashes
    split
    · exact inductionHypothesis.cons c
    · exact inductionHypothesis.cons_cons c

/-- Collapsing keeps the first character, since a slash that is dropped has another one right
behind it. -/
theorem collapseSlashes_head? (path : List Char) :
    (collapseSlashes path).head? = path.head? := by
  induction path with
  | nil => rfl
  | cons c rest inductionHypothesis =>
    by_cases doubled : (c == '/' && rest.head? == some '/') = true
    · simp only [collapseSlashes, doubled, ↓reduceIte, inductionHypothesis]
      simp only [Bool.and_eq_true, beq_iff_eq] at doubled
      simp [doubled.1, doubled.2]
    · simp [collapseSlashes, doubled]

/-- Collapsing keeps the last character, since a slash is only dropped when another one follows.
-/
theorem collapseSlashes_getLast? (path : List Char) :
    (collapseSlashes path).getLast? = path.getLast? := by
  induction path with
  | nil => rfl
  | cons c rest inductionHypothesis =>
    unfold collapseSlashes
    split
    · next doubled =>
      simp only [Bool.and_eq_true, beq_iff_eq] at doubled
      obtain ⟨behind, rfl⟩ := List.head?_eq_some_iff.mp doubled.2
      rw [inductionHypothesis, List.getLast?_cons_cons]
    · rw [List.getLast?_cons, List.getLast?_cons, inductionHypothesis]

/-- Collapsing leaves no two slashes in a row. The induction is on the path and uses that the
first character is kept. -/
theorem collapseSlashes_single (path : List Char) :
    ¬ ['/', '/'] <:+: collapseSlashes path := by
  induction path with
  | nil => simp [collapseSlashes]
  | cons c rest inductionHypothesis =>
    by_cases doubled : (c == '/' && rest.head? == some '/') = true
    · simpa [collapseSlashes, doubled] using inductionHypothesis
    · simp only [collapseSlashes, doubled, Bool.false_eq_true, ↓reduceIte]
      intro occurs
      rcases List.infix_cons_iff.mp occurs with atFront | inside
      · obtain ⟨same, next⟩ := List.cons_prefix_cons.mp atFront
        obtain ⟨behind, split⟩ := next
        have head := collapseSlashes_head? rest
        rw [← split] at head
        apply doubled
        simp [← same, ← head]
      · exact inductionHypothesis inside

/-- A path without two slashes in a row is left alone by collapsing. -/
theorem collapseSlashes_eq_self {path : List Char} (single : ¬ ['/', '/'] <:+: path) :
    collapseSlashes path = path := by
  induction path with
  | nil => rfl
  | cons c rest inductionHypothesis =>
    have within : ¬ ['/', '/'] <:+: rest := fun occurs => single (List.infix_cons occurs)
    have apart : ¬ (c == '/' && rest.head? == some '/') = true := by
      intro doubled
      simp only [Bool.and_eq_true, beq_iff_eq] at doubled
      obtain ⟨behind, rfl⟩ := List.head?_eq_some_iff.mp doubled.2
      exact single (doubled.1 ▸ List.IsPrefix.isInfix ⟨behind, rfl⟩)
    simp [collapseSlashes, apart, inductionHypothesis within]

/-- What does not start with a slash is collapsed by itself, because no run of slashes reaches
into it. -/
theorem collapseSlashes_append (front : List Char) {back : List Char}
    (solid : back.head? ≠ some '/') :
    collapseSlashes (front ++ back) = collapseSlashes front ++ collapseSlashes back := by
  induction front with
  | nil => rfl
  | cons c rest inductionHypothesis =>
    have heads : (c == '/' && (rest ++ back).head? == some '/') =
        (c == '/' && rest.head? == some '/') := by
      cases rest with
      | nil => simp [solid]
      | cons d rest => rfl
    rw [List.cons_append, collapseSlashes, heads, collapseSlashes, inductionHypothesis]
    split <;> rfl

/-- A path starts with a slash once one has been put in front where it was missing. -/
theorem withLeadingSlash_head? (path : List Char) :
    (withLeadingSlash path).head? = some '/' := by
  by_cases rooted : path.head? = some '/'
  · simp [withLeadingSlash, rooted]
  · simp [withLeadingSlash, rooted]

/-- A rooted path with single slashes becomes canonical when its trailing slash
is dropped, unless it is the root. -/
theorem canonical_dropTrailingSlashes (path : List Char) (rooted : path.head? = some '/')
    (single : ¬ ['/', '/'] <:+: path) (long : 1 < path.length) :
    Canonical (dropTrailingSlashes path) := by
  obtain ⟨second, rest, rfl⟩ : ∃ second rest, path = '/' :: second :: rest := by
    match path with
    | [] => simp at long
    | [_] => simp at long
    | first :: second :: rest =>
      have slash : first = '/' := by simpa using rooted
      exact ⟨second, rest, by rw [slash]⟩
  have solid : second ≠ '/' := by
    rintro rfl
    exact single (List.IsPrefix.isInfix ⟨rest, rfl⟩)
  have kept : dropTrailingSlashes ('/' :: second :: rest) =
      '/' :: second :: dropTrailing (· == '/') rest :=
    dropTrailing_append_cons (· == '/') ['/'] second rest (by simpa using solid)
  refine ⟨by rw [kept]; rfl, ?_, Or.inr ?_⟩
  · intro occurs
    exact single (occurs.trans (isPrefix_dropTrailing (· == '/') _).isInfix)
  · intro last
    simpa using dropTrailing_getLast? (· == '/') _ '/' last

/-- Every normal form is canonical, that of a wildcard included: it is rooted and collapsed before
its trailing slashes are dropped. -/
theorem normalizeChars_canonical (path : List Char) : Canonical (normalizeChars path) := by
  have root : Canonical ['/'] := ⟨rfl, by decide, Or.inl rfl⟩
  unfold normalizeChars
  split
  · exact root
  · have rooted := (collapseSlashes_head? (withLeadingSlash (trim path))).trans
      (withLeadingSlash_head? (trim path))
    have single := collapseSlashes_single (withLeadingSlash (trim path))
    generalize collapseSlashes (withLeadingSlash (trim path)) = collapsed at rooted single
    by_cases trailing : (1 < collapsed.length && collapsed.getLast? == some '/') = true
    · simp only [trailing, ↓reduceIte]
      simp only [Bool.and_eq_true, decide_eq_true_eq] at trailing
      split
      · exact root
      · exact canonical_dropTrailingSlashes collapsed rooted single trailing.1
    · simp only [trailing, Bool.false_eq_true, ↓reduceIte]
      split
      · exact root
      · refine ⟨rooted, single, ?_⟩
        simp only [Bool.and_eq_true, decide_eq_true_eq, beq_iff_eq, not_and] at trailing
        match collapsed, rooted with
        | [first], slash => exact Or.inl (by simpa using slash)
        | _ :: _ :: _, _ => exact Or.inr (trailing (by simp))

/-- Nothing but slashes is collapsed in a rooted path whose last character is neither a blank nor
a slash, since there is nothing to trim and nothing to drop. -/
theorem normalizeChars_of_solid (front : List Char) {last : Char} (solid : isBlank last = false)
    (open_ : last ≠ '/') :
    normalizeChars ('/' :: (front ++ [last])) = collapseSlashes ('/' :: (front ++ [last])) := by
  have trimmed : trim ('/' :: (front ++ [last])) = '/' :: (front ++ [last]) := by
    rw [trim_cons '/' _ (by decide), dropTrailing_eq_self (by simpa using solid)]
  have ends : collapseSlashes ('/' :: (front ++ [last])) =
      collapseSlashes ('/' :: front) ++ [last] := by
    have apart : [last].head? ≠ some '/' := by simpa using open_
    rw [← List.cons_append, collapseSlashes_append ('/' :: front) apart]
    simp [collapseSlashes]
  simp [normalizeChars, trimmed, withLeadingSlash, ends, open_]

/-- Of a rooted text that ends in neither a blank nor a slash only slashes are collapsed. Here the
last character need not be split off. -/
theorem normalizeChars_eq_collapseSlashes {text : List Char} (rooted : text.head? = some '/')
    (solid : ∀ c ∈ text.getLast?, isBlank c = false) (open_ : text.getLast? ≠ some '/') :
    normalizeChars text = collapseSlashes text := by
  obtain ⟨rest, rfl⟩ := List.head?_eq_some_iff.mp rooted
  cases rest using List.reverseRecOn with
  | nil => exact absurd rfl open_
  | append_singleton front last =>
    have ends : ('/' :: (front ++ [last])).getLast? = some last := by
      rw [← List.cons_append, List.getLast?_concat]
    exact normalizeChars_of_solid front (solid last ends) fun slash => open_ (slash ▸ ends)

/-- A canonical path that ends in no blank is its own normal form, because its slashes are single
already. -/
theorem normalizeChars_eq_self {path : List Char} (canonical : Canonical path)
    (solid : ∀ c ∈ path.getLast?, isBlank c = false) : normalizeChars path = path := by
  rcases canonical.closed with rfl | open_
  · decide
  · rw [normalizeChars_eq_collapseSlashes canonical.rooted solid open_,
      collapseSlashes_eq_self canonical.single]

/-- A canonical path stays canonical without its splat, since what is left of it is normalized
again. -/
theorem withoutSplat_canonical (path : String) (canonical : Canonical path.toList) :
    Canonical (withoutSplat path).toList := by
  unfold withoutSplat
  split
  · simpa using normalizeChars_canonical _
  · exact canonical

/-- Every joined path is canonical, whatever the parent and the raw path are, as joining ends in
normalization. -/
theorem join_canonical (parent : Option String) (raw : String) :
    Canonical (join parent raw).toList := by
  apply withoutSplat_canonical
  simpa using normalizeChars_canonical _

/-- A canonical path below any basename is canonical: either it stays as it is or the prefixed
path is normalized. -/
theorem underBasename_canonical (basename : Option String) (path : String)
    (canonical : Canonical path.toList) : Canonical (underBasename basename path).toList := by
  unfold underBasename
  split
  · exact canonical
  · dsimp only
    split
    · exact canonical
    · simpa using normalizeChars_canonical _

/-- Two leading slashes count as one, as neither is trimmed and both are collapsed. -/
theorem normalizeChars_doubled (path : List Char) :
    normalizeChars ('/' :: '/' :: path) = normalizeChars ('/' :: path) := by
  have solid : isBlank '/' = false := by decide
  have inner : dropTrailing isBlank ('/' :: path) = '/' :: dropTrailing isBlank path :=
    dropTrailing_append_cons isBlank [] '/' path solid
  simp [normalizeChars, trim_cons '/' _ solid, inner, withLeadingSlash, collapseSlashes]

/-- The slash between a canonical path and what follows it is needed once only,
so its own trailing slash need not be dropped. -/
theorem normalizeChars_below (path raw : List Char) (canonical : Canonical path) :
    normalizeChars (dropTrailingSlashes path ++ '/' :: raw) =
      normalizeChars (path ++ '/' :: raw) := by
  rcases canonical.closed with rfl | open_
  · simpa [dropTrailingSlashes, dropTrailing] using (normalizeChars_doubled raw).symm
  · have kept : dropTrailingSlashes path = path := by
      refine dropTrailing_eq_self fun c last => beq_eq_false_iff_ne.mpr ?_
      rintro rfl
      exact open_ last
    rw [kept]

/-- A rooted path stands for itself, and the path of the parent is not looked at. -/
theorem join_rooted (parent : Option String) (raw : String) (rooted : isRooted raw = true) :
    join parent raw = withoutSplat (normalize raw) := by
  simp [join, rooted, normalize]

/-- A relative path without a parent hangs below the root, as if it were written with a leading
slash. -/
theorem join_none (raw : String) (relative : isRooted raw = false) :
    join none raw = withoutSplat (normalize ("/" ++ raw)) := by
  simp [join, relative, normalize]

/-- A relative path is appended to a canonical parent with a slash between them, and the result is
normalized. -/
theorem join_some (parent raw : String) (relative : isRooted raw = false)
    (canonical : Canonical parent.toList) :
    join (some parent) raw = withoutSplat (normalize (parent ++ "/" ++ raw)) := by
  simp [join, relative, normalize, normalizeChars_below _ _ canonical]

end ScreenAtlas.Route
