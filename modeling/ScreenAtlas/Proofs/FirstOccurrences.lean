import Mathlib.Order.Bounds.Basic
import ScreenAtlas.Proofs.ScopedCalls

/-!
# What is gathered first

A value is gathered when it is the first one of its key. So what is gathered stands in the
order in which the keys occur first. When the values come in the order of some rank, as
captures do that are sorted by place or events that are raised node by node, the gathered
value of a key has the lowest rank of all values with this key. Values that sources give one
after another are ranked by the places of their sources.

Gathering goes along with images and with parts: it makes no difference whether values are
gathered before or after they are mapped, or before or after some classes of keys are left
out.
-/
namespace ScreenAtlas

/-- Appends a value unless one with its key is listed already. -/
def addBy {α κ : Type} [DecidableEq κ] (key : α → κ) (found : List α) (value : α) : List α :=
  if key value ∈ found.map key then found else found ++ [value]

/-- Appending a value unless its key is listed gathers values by the key. -/
theorem gathersBy_addBy {α κ : Type} [DecidableEq κ] (key : α → κ) :
    GathersBy key (addBy key) := by
  intro found value
  unfold addBy
  split
  · next taken => exact Or.inl ⟨taken, rfl⟩
  · next fresh => exact Or.inr ⟨fresh, rfl⟩

/-- What sources give one after another, each value beside the place of its source. -/
def placed {α σ : Type} (gives : σ → List α) (sources : List σ) : List (α × Nat) :=
  sources.zipIdx.flatMap fun source => (gives source.1).map fun value => (value, source.2)

/-- A value stands beside exactly the places of the sources that give it, so beside several if
several give it. -/
theorem mem_placed {α σ : Type} {gives : σ → List α} {sources : List σ} {value : α} {place : Nat} :
    (value, place) ∈ placed gives sources ↔
      ∃ source, sources[place]? = some source ∧ value ∈ gives source := by
  simp only [placed, List.mem_flatMap, List.mem_map, Prod.mk.injEq, Prod.exists,
    List.mem_zipIdx_iff_getElem?]
  constructor
  · rintro ⟨source, _, found, _, given, rfl, rfl⟩
    exact ⟨source, found, given⟩
  · rintro ⟨source, found, given⟩
    exact ⟨source, place, found, value, given, rfl, rfl⟩

/-- Without the places the values are those that the sources give, one source after the other. -/
theorem map_fst_placed {α σ : Type} (gives : σ → List α) (sources : List σ) :
    (placed gives sources).map Prod.fst = sources.flatMap gives := by
  simp only [placed, List.map_flatMap, List.map_map, Function.comp_def, List.map_id']
  rw [← List.flatMap_map Prod.fst gives, List.zipIdx_map_fst]

/-- The places never go down along the values: those of one source share their place, and those of
later sources have a larger one. -/
theorem placed_ordered {α σ : Type} (gives : σ → List α) (sources : List σ) :
    (placed gives sources).Pairwise fun left right => left.2 ≤ right.2 := by
  refine List.pairwise_flatMap.mpr ⟨?_, ?_⟩
  · intro source _
    exact List.pairwise_map.mpr (List.pairwise_of_forall fun _ _ => le_refl source.2)
  · have increasing : (sources.zipIdx.map Prod.snd).Pairwise (· < ·) := by
      rw [List.zipIdx_map_snd]
      exact List.pairwise_lt_range'
    refine (List.pairwise_map.mp increasing).imp ?_
    intro source other below left first right second
    obtain ⟨_, _, rfl⟩ := List.mem_map.mp first
    obtain ⟨_, _, rfl⟩ := List.mem_map.mp second
    exact below.le

/-- The places of the sources that give a value with the key. -/
def givenAt {α κ σ : Type} (key : α → κ) (gives : σ → List α) (sources : List σ) (wanted : κ) :
    Set Nat :=
  {place | ∃ source, sources[place]? = some source ∧ wanted ∈ (gives source).map key}

namespace GathersBy

variable {α κ : Type} {key : α → κ} {step : List α → α → List α}

/-- The gathered keys are in the order of their first occurrences. The induction is on the values
from their end. -/
theorem inFirstOrder {key : α → String} (gathersBy : GathersBy key step) (values : List α) :
    Flow.InFirstOrder (values.map key) ((values.foldl step []).map key) := by
  induction values using List.reverseRecOn with
  | nil => exact Flow.InFirstOrder.nil
  | append_singleton values value inductionHypothesis =>
    rw [List.foldl_append, List.map_append]
    rcases gathersBy (values.foldl step []) value with ⟨taken, same⟩ | ⟨fresh, more⟩
    · simpa [same] using inductionHypothesis.again taken
    · simpa [more] using inductionHypothesis.fresh fresh

/-- Of values in the order of their ranks the first one of each key is gathered, and it has
the lowest rank. -/
theorem rank_le (gathersBy : GathersBy key step) {rank : α → Nat} {values : List α}
    (ordered : values.Pairwise fun left right => rank left ≤ rank right) {value other : α}
    (kept : value ∈ values.foldl step []) (member : other ∈ values)
    (same : key other = key value) : rank value ≤ rank other := by
  induction values using List.reverseRecOn with
  | nil => cases member
  | append_singleton values last inductionHypothesis =>
    obtain ⟨earlier, _, behind⟩ := List.pairwise_append.mp ordered
    rw [List.foldl_append] at kept
    rcases gathersBy (values.foldl step []) last with ⟨_, stays⟩ | ⟨fresh, more⟩
    · replace kept : value ∈ values.foldl step [] := by simpa [stays] using kept
      rcases List.mem_append.mp member with present | final
      · exact inductionHypothesis earlier kept present
      · exact behind value (gathersBy.gathers.foldl_subset values kept) other final
    · replace kept : value ∈ values.foldl step [] ∨ value = last := by simpa [more] using kept
      rcases kept with kept | rfl
      · rcases List.mem_append.mp member with present | final
        · exact inductionHypothesis earlier kept present
        · exact behind value (gathersBy.gathers.foldl_subset values kept) other final
      · rcases List.mem_append.mp member with present | final
        · -- A value of the same key before the last one would have been gathered.
          have taken := (gathersBy.mem_keys [] values (key value)).mpr
            (Or.inr (same ▸ List.mem_map_of_mem present))
          exact absurd taken fresh
        · rw [List.mem_singleton.mp final]

/-- The rank of a gathered value is the lowest one among the values with its key, if the values
come in the order of their ranks. -/
theorem isLeast_rank (gathersBy : GathersBy key step) {rank : α → Nat} {values : List α}
    (ordered : values.Pairwise fun left right => rank left ≤ rank right) {value : α}
    (kept : value ∈ values.foldl step []) :
    IsLeast {n | ∃ other ∈ values, key other = key value ∧ rank other = n} (rank value) := by
  constructor
  · exact ⟨value, gathersBy.gathers.foldl_subset values kept, rfl, rfl⟩
  · rintro n ⟨other, member, same, rfl⟩
    exact gathersBy.rank_le ordered kept member same

/-- Images are gathered like the values they are made of, where a value has the key of its image.
-/
theorem foldl_image {β : Type} [DecidableEq κ] (gathersBy : GathersBy key step) (image : β → α)
    (values : List β) :
    (values.map image).foldl step [] = (values.foldl (addBy (key ∘ image)) []).map image := by
  have faithful : ∀ left ∈ [] ++ values, ∀ right ∈ [] ++ values,
      key (image left) = key (image right) ↔ (key ∘ image) left = (key ∘ image) right :=
    fun _ _ _ _ => Iff.rfl
  exact (gathersBy_addBy (key ∘ image)).foldl_map gathersBy image faithful

/-- The value that is gathered for a key stands beside the first source that gives one, since the
places come in order. -/
theorem isLeast_givenAt [DecidableEq κ] {σ : Type} {key : α → κ} {gives : σ → List α}
    {sources : List σ} {entry : α × Nat}
    (kept : entry ∈ (placed gives sources).foldl (addBy (key ∘ Prod.fst)) []) :
    IsLeast (givenAt key gives sources (key entry.1)) entry.2 := by
  have places : givenAt key gives sources (key entry.1) = {place | ∃ other ∈ placed gives sources,
      (key ∘ Prod.fst) other = (key ∘ Prod.fst) entry ∧ other.2 = place} := by
    ext place
    constructor
    · rintro ⟨source, found, given⟩
      obtain ⟨value, member, same⟩ := List.mem_map.mp given
      exact ⟨(value, place), mem_placed.mpr ⟨source, found, member⟩, same, rfl⟩
    · rintro ⟨⟨value, _⟩, member, same, rfl⟩
      obtain ⟨source, found, given⟩ := mem_placed.mp member
      exact ⟨source, found, List.mem_map.mpr ⟨value, given, same⟩⟩
  rw [places]
  exact (gathersBy_addBy _).isLeast_rank (placed_ordered gives sources) kept

/-- What sources give one after another is gathered source by source: two gathered values
stand in the order of the first sources that give their keys. -/
theorem pairwise_flatMap [DecidableEq κ] {σ : Type} (gathersBy : GathersBy key step)
    (gives : σ → List α) (sources : List σ) :
    ((sources.flatMap gives).foldl step []).Pairwise fun left right => ∃ first second,
      IsLeast (givenAt key gives sources (key left)) first ∧
        IsLeast (givenAt key gives sources (key right)) second ∧ first ≤ second := by
  rw [← map_fst_placed, gathersBy.foldl_image, List.pairwise_map]
  have part := (gathersBy_addBy (key ∘ Prod.fst)).gathers.foldl_sublist (placed gives sources)
  refine ((placed_ordered gives sources).sublist part).imp_of_mem ?_
  intro left right first second places
  exact ⟨left.2, right.2, isLeast_givenAt first, isLeast_givenAt second, places⟩

/-- Behind what is gathered already, a class of values that their keys tell from the others is
gathered by itself. -/
theorem filter_foldl_from (gathersBy : GathersBy key step) {keep : α → Bool} {found values : List α}
    (told : ∀ left ∈ found ++ values, ∀ right ∈ found ++ values,
      key left = key right → keep left = keep right) :
    (values.foldl step found).filter keep =
      (values.filter keep).foldl step (found.filter keep) := by
  induction values generalizing found with
  | nil => rfl
  | cons value rest inductionHypothesis =>
    have within : step found value ++ rest ⊆ found ++ value :: rest := by
      rcases gathersBy.gathers found value with same | more
      · rw [same]
        exact (List.Sublist.append_left (List.sublist_cons_self value rest) found).subset
      · rw [more, List.append_assoc]
        exact List.Subset.refl _
    have listed (kept : keep value = true) :
        key value ∈ (found.filter keep).map key ↔ key value ∈ found.map key := by
      constructor
      · exact fun taken => (List.filter_sublist.map key).subset taken
      · intro taken
        obtain ⟨other, member, same⟩ := List.mem_map.mp taken
        have alike : keep other = keep value :=
          told other (List.mem_append_left _ member) value (by simp) same
        exact List.mem_map.mpr ⟨other, List.mem_filter.mpr ⟨member, alike.trans kept⟩, same⟩
    rw [List.foldl_cons, inductionHypothesis fun left first right second =>
      told left (within first) right (within second)]
    cases kept : keep value with
    | false =>
      rw [List.filter_cons_of_neg (by simp [kept])]
      rcases gathersBy.gathers found value with same | more
      · rw [same]
      · simp [more, kept]
    | true =>
      rw [List.filter_cons_of_pos kept, List.foldl_cons]
      congr 1
      rcases gathersBy found value with ⟨taken, same⟩ | ⟨fresh, more⟩
      · rcases gathersBy (found.filter keep) value with ⟨_, stays⟩ | ⟨absent, _⟩
        · rw [same, stays]
        · exact absurd ((listed kept).mpr taken) absent
      · rcases gathersBy (found.filter keep) value with ⟨present, _⟩ | ⟨_, added⟩
        · exact absurd ((listed kept).mp present) fresh
        · simp [more, added, kept]

/-- A class of values that their keys tell from the others is gathered by itself: what is outside
the class may be left out before or afterwards. -/
theorem filter_foldl (gathersBy : GathersBy key step) {keep : α → Bool} {values : List α}
    (told : ∀ left ∈ values, ∀ right ∈ values, key left = key right → keep left = keep right) :
    (values.foldl step []).filter keep = (values.filter keep).foldl step [] :=
  gathersBy.filter_foldl_from told

end GathersBy

end ScreenAtlas
