import Mathlib.Data.String.Basic
import ScreenAtlas.Proofs.WrittenDocuments

/-!
# Objects with their members in order

A stored document orders the members of every object by name. This changes nothing
about what is found under a name, as long as each name occurs once: the value that is
found is the ordered form of the value before. Ordering is done once and for all, and
what could be written before can be written afterwards.
-/
namespace ScreenAtlas.Json

/-- The items of a list are ordered one by one, and the list stays in its order. -/
theorem sortedItems_eq (items : List Json) : sortedItems items = items.map sorted := by
  induction items with
  | nil => rfl
  | cons item items inductionHypothesis => rw [sortedItems, inductionHypothesis, List.map_cons]

/-- The values of the members of an object are ordered one by one, before the members are put in
order. -/
theorem sortedMembers_eq (members : Members) :
    sortedMembers members = members.map fun member => (member.1, sorted member.2) := by
  induction members with
  | nil => rfl
  | cons member members inductionHypothesis =>
    obtain ⟨name, value⟩ := member
    rw [sortedMembers, inductionHypothesis, List.map_cons]

/-- The members of an ordered object: their values are ordered, and they come by name. -/
def arranged (members : Members) : Members := sortMembers (sortedMembers members)

/-- The members of an ordered object are the members with ordered values, in another order. -/
theorem arranged_perm (members : Members) :
    (arranged members).Perm (members.map fun member => (member.1, sorted member.2)) := by
  rw [arranged, sortMembers, sortedMembers_eq]
  exact List.mergeSort_perm _ _

/-- An ordered object has the same names, each as often as before. -/
theorem names_arranged_perm (members : Members) :
    ((arranged members).map Prod.fst).Perm (members.map Prod.fst) := by
  have names := (arranged_perm members).map Prod.fst
  rw [List.map_map] at names
  exact names

/-- A member comes before another exactly when its name does, compared character by character. -/
theorem nameBefore_iff (left right : String × Json) :
    nameBefore left right = true ↔ left.1 ≤ right.1 := by
  simp [nameBefore, le_iff_lt_or_eq]

/-- The members of an ordered object come by name, since the order of names is total and
transitive. -/
theorem arranged_pairwise (members : Members) :
    (arranged members).Pairwise fun left right => nameBefore left right = true := by
  apply List.pairwise_mergeSort
  · intro first second third before behind
    rw [nameBefore_iff] at *
    exact before.trans behind
  · intro left right
    rw [Bool.or_eq_true, nameBefore_iff, nameBefore_iff]
    exact le_total left.1 right.1

/-- With distinct names a value is found under a name exactly when they are a member. The
induction is on the members. -/
theorem get?_eq_some_iff {members : Members} (once : (members.map Prod.fst).Nodup) (name : String)
    (value : Json) : Members.get? members name = some value ↔ (name, value) ∈ members := by
  induction members with
  | nil => simp [Members.get?]
  | cons member members inductionHypothesis =>
    obtain ⟨other, old⟩ := member
    rw [List.map_cons, List.nodup_cons] at once
    rw [Members.get?, List.lookup_cons]
    by_cases same : name = other
    · subst same
      have absent : (name, value) ∉ members := fun member =>
        once.1 (List.mem_map.mpr ⟨_, member, rfl⟩)
      simp [absent, eq_comm]
    · have apart : (name == other) = false := beq_eq_false_iff_ne.mpr same
      rw [apart]
      simpa [same, Members.get?] using inductionHypothesis once.2

/-- Under a name an ordered object has the ordered value, provided that the names are distinct.
Otherwise another of the members could come first. -/
theorem get?_arranged {members : Members} (once : (members.map Prod.fst).Nodup) (name : String) :
    Members.get? (arranged members) name = (Members.get? members name).map sorted := by
  have still := (names_arranged_perm members).nodup_iff.mpr once
  apply Option.ext
  intro value
  rw [get?_eq_some_iff still, (arranged_perm members).mem_iff]
  simp [get?_eq_some_iff once]

/-- The members of an object can be written when the values of all of them can. -/
theorem membersWritable_iff (members : Members) :
    membersWritable members = true ↔ ∀ member ∈ members, member.2.isWritable = true := by
  induction members with
  | nil => simp [membersWritable]
  | cons member members inductionHypothesis =>
    simp [membersWritable, inductionHypothesis]

mutual

/-- What can be written can be written in order as well: the names of an object stay distinct. The
induction is on the value, along with lists and objects. -/
theorem isWritable_sorted : ∀ value : Json, value.isWritable = true → value.sorted.isWritable = true
  | .null, writable | .bool _, writable | .int _, writable | .double _, writable
  | .text _, writable => writable
  | .list items, writable => by
    rw [sorted, isWritable]
    exact areWritable_sorted items writable
  | .object members, writable => by
    simp only [isWritable, Bool.and_eq_true, decide_eq_true_eq] at writable
    have values := membersWritable_sorted members writable.2
    rw [membersWritable_iff, sortedMembers_eq] at values
    simp only [sorted, isWritable, Bool.and_eq_true, decide_eq_true_eq, membersWritable_iff]
    refine ⟨(names_arranged_perm members).nodup_iff.mpr writable.1, fun member listed => ?_⟩
    exact values member ((arranged_perm members).mem_iff.mp listed)

/-- Items that can be written can be written when each of them is put in order. -/
theorem areWritable_sorted : ∀ items : List Json, areWritable items = true →
    areWritable (sortedItems items) = true
  | [], _ => rfl
  | item :: items, writable => by
    rw [areWritable, Bool.and_eq_true] at writable
    rw [sortedItems, areWritable, isWritable_sorted item writable.1,
      areWritable_sorted items writable.2]
    rfl

/-- Members whose values can be written have such values when each value is put in order. -/
theorem membersWritable_sorted : ∀ members : List (String × Json), membersWritable members = true →
    membersWritable (sortedMembers members) = true
  | [], _ => rfl
  | (name, value) :: members, writable => by
    rw [membersWritable, Bool.and_eq_true] at writable
    rw [sortedMembers, membersWritable, isWritable_sorted value writable.1,
      membersWritable_sorted members writable.2]
    rfl

end

mutual

/-- Ordering an ordered value changes nothing: its members are in order already, and so is each of
their values. -/
theorem sorted_sorted : ∀ value : Json, value.sorted.sorted = value.sorted
  | .null | .bool _ | .int _ | .double _ | .text _ => rfl
  | .list items => by
    rw [sorted, sorted, sortedItems_sorted items]
  | .object members => by
    have values : ∀ member ∈ arranged members, (member.1, sorted member.2) = member := by
      have fixed := sortedMembers_sorted members
      rw [sortedMembers_eq, sortedMembers_eq] at fixed
      intro member listed
      have mapped := fixed.trans (List.map_id _).symm
      exact List.map_inj_left.mp mapped member ((arranged_perm members).mem_iff.mp listed)
    have still : sortedMembers (arranged members) = arranged members := by
      rw [sortedMembers_eq]
      exact (List.map_inj_left.mpr values).trans (List.map_id _)
    have inOrder : sortMembers (arranged members) = arranged members :=
      List.mergeSort_of_pairwise (arranged_pairwise members)
    have made : sorted (.object members) = .object (arranged members) := by
      rw [sorted]
      rfl
    rw [made, sorted, still, inOrder]

/-- Ordering the items of a list twice is the same as ordering them once. -/
theorem sortedItems_sorted : ∀ items : List Json,
    sortedItems (sortedItems items) = sortedItems items
  | [] => rfl
  | item :: items => by
    rw [sortedItems, sortedItems, sorted_sorted item, sortedItems_sorted items]

/-- Ordering the values of members twice is the same as ordering them once. -/
theorem sortedMembers_sorted : ∀ members : List (String × Json),
    sortedMembers (sortedMembers members) = sortedMembers members
  | [] => rfl
  | (name, value) :: members => by
    rw [sortedMembers, sortedMembers, sorted_sorted value, sortedMembers_sorted members]

end

end ScreenAtlas.Json
