import Mathlib.Data.List.Nodup

/-!
# Gathering values

Many results are gathered step by step: each step keeps what has been gathered and
appends at most the value at hand. What is gathered is then a part of the values,
in their order.

Often the value at hand is appended exactly when no gathered value has its key.
Then the gathered keys are distinct, every key is gathered, and values with
distinct keys are gathered unchanged.
-/
namespace ScreenAtlas

/-- Each step keeps what is gathered and appends at most the value at hand. -/
def Gathers {α : Type} (step : List α → α → List α) : Prop :=
  ∀ found value, step found value = found ∨ step found value = found ++ [value]

/-- Some of the values are gathered behind what was gathered before, in order. The induction is on
the values. -/
theorem Gathers.foldl_eq_append {α : Type} {step : List α → α → List α} (gathers : Gathers step)
    (found values : List α) :
    ∃ kept, kept.Sublist values ∧ values.foldl step found = found ++ kept := by
  induction values generalizing found with
  | nil => exact ⟨[], List.Sublist.refl [], (List.append_nil found).symm⟩
  | cons value rest inductionHypothesis =>
    obtain ⟨kept, part, gathered⟩ := inductionHypothesis (step found value)
    rw [List.foldl_cons, gathered]
    rcases gathers found value with same | more
    · exact ⟨kept, part.cons value, by rw [same]⟩
    · exact ⟨value :: kept, part.cons_cons value, by simp [more]⟩

/-- What is gathered from some values is a part of them, in order. -/
theorem Gathers.foldl_sublist {α : Type} {step : List α → α → List α} (gathers : Gathers step)
    (values : List α) : (values.foldl step []).Sublist values := by
  obtain ⟨kept, part, gathered⟩ := gathers.foldl_eq_append [] values
  rw [gathered]
  exact part

/-- What is gathered from some values is one of them, so that properties of all values hold of the
gathered ones. -/
theorem Gathers.foldl_subset {α : Type} {step : List α → α → List α} (gathers : Gathers step)
    (values : List α) : values.foldl step [] ⊆ values :=
  (gathers.foldl_sublist values).subset

/-- Values with distinct keys have distinct marks if a mark determines the key. -/
theorem nodup_map_of_determines {α κ μ : Type} {values : List α} {key : α → κ} {mark : α → μ}
    (distinct : (values.map key).Nodup)
    (determines : ∀ left ∈ values, ∀ right ∈ values, mark left = mark right →
      key left = key right) : (values.map mark).Nodup := by
  refine List.pairwise_map.mpr ((List.pairwise_map.mp distinct).imp_of_mem ?_)
  intro left right first second apart same
  exact apart (determines left first right second same)

/-- Each step appends the value at hand exactly when no gathered value has its key. -/
def GathersBy {α κ : Type} (key : α → κ) (step : List α → α → List α) : Prop :=
  ∀ found value,
    (key value ∈ found.map key ∧ step found value = found) ∨
    (key value ∉ found.map key ∧ step found value = found ++ [value])

namespace GathersBy

variable {α κ : Type} {key : α → κ} {step : List α → α → List α}

/-- A step that appends the value at hand unless a test finds its key gathers by the key. -/
theorem of_test {taken : List α → α → Bool}
    (stepped : ∀ found value,
      step found value = if taken found value then found else found ++ [value])
    (told : ∀ found value, taken found value = true ↔ key value ∈ found.map key) :
    GathersBy key step := by
  intro found value
  rw [stepped]
  split
  · next present => exact Or.inl ⟨(told found value).mp present, rfl⟩
  · next fresh => exact Or.inr ⟨mt (told found value).mpr fresh, rfl⟩

/-- A step that gathers by a key appends at most the value at hand. -/
theorem gathers (gathersBy : GathersBy key step) : Gathers step := by
  intro found value
  rcases gathersBy found value with ⟨_, same⟩ | ⟨_, more⟩
  · exact Or.inl same
  · exact Or.inr more

/-- The keys of what is gathered are distinct, since a value is only appended when its key is new.
-/
theorem nodup (gathersBy : GathersBy key step) (values : List α) :
    ((values.foldl step []).map key).Nodup := by
  refine List.foldlRecOn (motive := fun found => (found.map key).Nodup) values step ?_ ?_
  · exact List.nodup_nil
  intro found distinct value _
  rcases gathersBy found value with ⟨_, same⟩ | ⟨fresh, more⟩
  · rw [same]
    exact distinct
  · rw [more, List.map_append]
    refine distinct.append (List.nodup_singleton (key value)) ?_
    simpa using fresh

/-- Values whose keys are distinct, and differ from those gathered before, are all gathered. The
induction is on the values. -/
theorem foldl_eq (gathersBy : GathersBy key step) {found values : List α}
    (distinct : ((found ++ values).map key).Nodup) :
    values.foldl step found = found ++ values := by
  induction values generalizing found with
  | nil => exact (List.append_nil found).symm
  | cons value rest inductionHypothesis =>
    have fresh : key value ∉ found.map key := by
      rw [List.map_append, List.map_cons] at distinct
      exact fun taken => List.disjoint_of_nodup_append distinct taken List.mem_cons_self
    rcases gathersBy found value with ⟨taken, _⟩ | ⟨_, more⟩
    · exact absurd taken fresh
    · rw [List.append_cons] at distinct ⊢
      rw [List.foldl_cons, more]
      exact inductionHypothesis distinct

/-- The keys of what is gathered are those gathered before and those of the values. The induction
is on the values. -/
theorem mem_keys (gathersBy : GathersBy key step) (found values : List α) (wanted : κ) :
    wanted ∈ (values.foldl step found).map key ↔
      wanted ∈ found.map key ∨ wanted ∈ values.map key := by
  induction values generalizing found with
  | nil => simp
  | cons value rest inductionHypothesis =>
    rw [List.foldl_cons, inductionHypothesis, List.map_cons, List.mem_cons]
    rcases gathersBy found value with ⟨taken, same⟩ | ⟨_, more⟩
    · rw [same]
      constructor
      · rintro (earlier | later)
        · exact Or.inl earlier
        · exact Or.inr (Or.inr later)
      · rintro (earlier | rfl | later)
        · exact Or.inl earlier
        · exact Or.inl taken
        · exact Or.inr later
    · rw [more, List.map_append, List.mem_append, List.map_singleton, List.mem_singleton, or_assoc]

/-- Something is gathered whenever there is a value, because the key of every value is gathered.
-/
theorem foldl_eq_nil_iff (gathersBy : GathersBy key step) (values : List α) :
    values.foldl step [] = [] ↔ values = [] := by
  constructor
  · intro none
    rw [List.eq_nil_iff_forall_not_mem]
    intro value member
    have kept := (gathersBy.mem_keys [] values (key value)).mpr
      (Or.inr (List.mem_map_of_mem member))
    simp [none] at kept
  · rintro rfl
    rfl

/-- What was gathered under other keys makes no difference to what is gathered behind it. -/
theorem foldl_append (gathersBy : GathersBy key step) {found values : List α}
    (apart : ∀ value ∈ values, key value ∉ found.map key) (others : List α) :
    values.foldl step (found ++ others) = found ++ values.foldl step others := by
  induction values generalizing others with
  | nil => rfl
  | cons value rest inductionHypothesis =>
    obtain ⟨fresh, behind⟩ := List.forall_mem_cons.mp apart
    have listed : key value ∈ (found ++ others).map key ↔ key value ∈ others.map key := by
      simp only [List.map_append, List.mem_append, fresh, false_or]
    have stepped : step (found ++ others) value = found ++ step others value := by
      rcases gathersBy (found ++ others) value with ⟨taken, same⟩ | ⟨new, more⟩
      · rcases gathersBy others value with ⟨_, kept⟩ | ⟨untaken, _⟩
        · rw [same, kept]
        · exact absurd (listed.mp taken) untaken
      · rcases gathersBy others value with ⟨taken, _⟩ | ⟨_, added⟩
        · exact absurd (listed.mpr taken) new
        · rw [more, added, List.append_assoc]
    rw [List.foldl_cons, List.foldl_cons, stepped, inductionHypothesis behind]

/-- Images whose keys agree exactly when those of the values do are gathered like the
values. -/
theorem foldl_map {β μ : Type} {mark : β → μ} {next : List β → β → List β}
    (gathersBy : GathersBy key step) (alike : GathersBy mark next) (image : α → β)
    {found values : List α} (faithful : ∀ left ∈ found ++ values, ∀ right ∈ found ++ values,
      mark (image left) = mark (image right) ↔ key left = key right) :
    (values.map image).foldl next (found.map image) = (values.foldl step found).map image := by
  induction values generalizing found with
  | nil => rfl
  | cons value rest inductionHypothesis =>
    have listed : mark (image value) ∈ (found.map image).map mark ↔ key value ∈ found.map key := by
      simp only [List.map_map, List.mem_map, Function.comp_apply]
      constructor
      · rintro ⟨other, member, same⟩
        exact ⟨other, member, (faithful other (by simp [member]) value (by simp)).mp same⟩
      · rintro ⟨other, member, same⟩
        exact ⟨other, member, (faithful other (by simp [member]) value (by simp)).mpr same⟩
    have stepped : next (found.map image) (image value) = (step found value).map image := by
      rcases alike (found.map image) (image value) with ⟨taken, same⟩ | ⟨new, more⟩
      · rcases gathersBy found value with ⟨_, kept⟩ | ⟨untaken, _⟩
        · rw [same, kept]
        · exact absurd (listed.mp taken) untaken
      · rcases gathersBy found value with ⟨taken, _⟩ | ⟨_, added⟩
        · exact absurd (listed.mpr taken) new
        · rw [more, added, List.map_append, List.map_singleton]
    have within : step found value ++ rest ⊆ found ++ value :: rest := by
      rcases gathersBy.gathers found value with same | more
      · rw [same]
        exact (List.Sublist.append_left (List.sublist_cons_self value rest) found).subset
      · rw [more, List.append_assoc]
        exact List.Subset.refl _
    rw [List.map_cons, List.foldl_cons, List.foldl_cons, stepped]
    apply inductionHypothesis
    exact fun left first right second => faithful left (within first) right (within second)

end GathersBy

end ScreenAtlas
