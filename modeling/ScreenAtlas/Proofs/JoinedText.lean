import ScreenAtlas.Text.Blank

/-!
# Joining and splitting texts

Parts that are joined by a mark can be told apart again when the mark occurs in none
of them. The fields of a text are the parts between its marks, without the empty ones.
-/
namespace ScreenAtlas.Text

variable {α : Type}

/-- Parts without the mark are recovered from the joined text. There has to be at least one,
because no parts and one empty part are joined to the same text. -/
theorem intercalate_injective [DecidableEq α] {mark : α} {left right : List (List α)}
    (some : left ≠ []) (free : ∀ part ∈ left, mark ∉ part)
    (other : right ≠ []) (clear : ∀ part ∈ right, mark ∉ part)
    (same : [mark].intercalate left = [mark].intercalate right) : left = right := by
  rw [← List.splitOn_intercalate mark free some, ← List.splitOn_intercalate mark clear other, same]

/-- Parts that are joined by a mark stand behind one mark each, with one more in front. -/
theorem cons_intercalate (mark : α) {parts : List (List α)} (some : parts ≠ []) :
    mark :: [mark].intercalate parts = parts.flatMap (mark :: ·) := by
  induction parts with
  | nil => exact absurd rfl some
  | cons part rest inductionHypothesis =>
    cases rest with
    | nil => simp
    | cons next rest =>
      rw [List.flatMap_cons, ← inductionHypothesis (List.cons_ne_nil next rest),
        List.intercalate_cons_cons]
      simp

/-- A joined text holds nothing but the letters of its parts and the mark. -/
theorem of_mem_intercalate {mark c : α} {parts : List (List α)}
    (member : c ∈ [mark].intercalate parts) : c = mark ∨ ∃ part ∈ parts, c ∈ part := by
  have some : parts ≠ [] := by
    rintro rfl
    cases member
  have listed : c ∈ parts.flatMap (mark :: ·) := by
    rw [← cons_intercalate mark some]
    exact List.mem_cons_of_mem mark member
  obtain ⟨part, given, within⟩ := List.mem_flatMap.mp listed
  rcases List.mem_cons.mp within with same | inside
  · exact Or.inl same
  · exact Or.inr ⟨part, given, inside⟩

/-- The fields of a text are the parts between the marks that are not empty. The induction is on
the text, for any run that is being read. -/
theorem fields_eq_filter (separates : α → Bool) (text : List α) :
    fields separates text = (text.splitOnP separates).filter fun part => !part.isEmpty := by
  have collected (current : List α) : fieldsFrom separates current text =
      (text.splitOnPPrepend separates current).filter fun part => !part.isEmpty := by
    induction text generalizing current with
    | nil => cases current <;> simp [fieldsFrom]
    | cons c rest inductionHypothesis =>
      rw [fieldsFrom, List.splitOnPPrepend_cons_eq_if]
      split
      · rw [inductionHypothesis, List.splitOnPPrepend_nil_right]
        cases current <;> simp
      · exact inductionHypothesis (c :: current)
  exact collected []

/-- The fields of a text are those on one side of any separator and then those on the other,
because the separator ends the run being read. -/
theorem fields_append_cons {separates : α → Bool} (left right : List α) {c : α}
    (separator : separates c = true) :
    fields separates (left ++ c :: right) = fields separates left ++ fields separates right := by
  simp only [fields_eq_filter]
  rw [List.splitOnP_append_cons left right separator, List.filter_append]

/-- A text without separators is one field, unless it is empty, when it has none. -/
theorem fields_of_clear {separates : α → Bool} {text : List α} (filled : text ≠ [])
    (clear : ∀ c ∈ text, separates c = false) : fields separates text = [text] := by
  rw [fields_eq_filter, List.splitOnP_eq_singleton clear]
  simp [filled]

/-- Put together, the fields are the text without its separators: what was read of the current
run comes first, and of the rest nothing but separators is left out. -/
theorem flatten_fieldsFrom (separates : α → Bool) (current text : List α) :
    (fieldsFrom separates current text).flatten =
      current.reverse ++ text.filter fun c => !separates c := by
  induction text generalizing current with
  | nil => cases current <;> simp [fieldsFrom]
  | cons c rest inductionHypothesis =>
    rw [fieldsFrom]
    split
    · next separator =>
      cases current <;> simp [separator, inductionHypothesis]
    · next kept => simp [kept, inductionHypothesis]

/-- A letter lies in one of the fields exactly when it is in the text and separates nothing. -/
theorem exists_mem_fields_iff {separates : α → Bool} {text : List α} {c : α} :
    (∃ field ∈ fields separates text, c ∈ field) ↔ c ∈ text ∧ separates c = false := by
  rw [← List.mem_flatten, fields, flatten_fieldsFrom]
  simp

/-- A run that is collected holds no separator if what was read of it holds none. -/
theorem of_mem_fieldsFrom {separates : α → Bool} {current text field : List α}
    (clear : ∀ c ∈ current, separates c = false)
    (member : field ∈ fieldsFrom separates current text) :
    field ≠ [] ∧ ∀ c ∈ field, separates c = false := by
  induction text generalizing current with
  | nil =>
    cases current with
    | nil => cases member
    | cons last earlier =>
      obtain rfl := List.mem_singleton.mp member
      exact ⟨by simp, fun c within => clear c (List.mem_reverse.mp within)⟩
  | cons c rest inductionHypothesis =>
    rw [fieldsFrom] at member
    split at member
    · split at member
      · exact inductionHypothesis (List.forall_mem_nil _) member
      · next filled =>
        rcases List.mem_cons.mp member with rfl | later
        · exact ⟨by simpa using filled, fun c within => clear c (List.mem_reverse.mp within)⟩
        · exact inductionHypothesis (List.forall_mem_nil _) later
    · next kept =>
      exact inductionHypothesis
        (List.forall_mem_cons.mpr ⟨Bool.eq_false_iff.mpr kept, clear⟩) member

/-- A field is not empty and holds no separator, since nothing has been read when the first run
starts. -/
theorem of_mem_fields {separates : α → Bool} {text field : List α}
    (member : field ∈ fields separates text) :
    field ≠ [] ∧ ∀ c ∈ field, separates c = false :=
  of_mem_fieldsFrom (List.forall_mem_nil _) member

end ScreenAtlas.Text
