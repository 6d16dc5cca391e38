/-!
# Named entries

The members of an object, the entries of a folder, the records in memory and the versions in
a manifest are all lists of named values, in the order in which the names first appeared.
They change in one way only: a value is put under a name.
-/
namespace ScreenAtlas.Entries

/-- Entries with a value put under a name: an entry of this name gives way and keeps its
place, and a name that is new goes to the end. -/
def put {β : Type} (name : String) (value : β) : List (String × β) → List (String × β)
  | [] => [(name, value)]
  | (other, old) :: rest =>
    if other == name then (name, value) :: rest else (other, old) :: put name value rest

variable {β : Type}

/-- A lookup is decided by the first entry under that entry's own name, and by the entries
behind it under every other name. -/
theorem lookup_first (name other : String) (value : β) (rest : List (String × β)) :
    List.lookup other ((name, value) :: rest) =
      if other = name then some value else rest.lookup other := by
  rw [List.lookup_cons]
  by_cases same : other = name
  · simp [same]
  · rw [beq_eq_false_iff_ne.mpr same, if_neg same]

/-- What was put under a name is found there, and every other name keeps its entry. The
entries are taken one by one: the first either gives way, and nothing behind it is looked at,
or it has another name and stays. -/
theorem lookup_put (name other : String) (value : β) (entries : List (String × β)) :
    (put name value entries).lookup other =
      if other = name then some value else entries.lookup other := by
  induction entries with
  | nil => exact lookup_first name other value []
  | cons first entries inductionHypothesis =>
    obtain ⟨present, old⟩ := first
    rw [put]
    by_cases replaced : present = name
    · rw [if_pos (beq_iff_eq.mpr replaced), replaced, lookup_first, lookup_first]
      split <;> rfl
    · rw [if_neg (fun equal => replaced (beq_iff_eq.mp equal)), lookup_first, lookup_first,
        inductionHypothesis]
      by_cases same : other = present
      · rw [if_pos same, if_pos same, if_neg fun equal => replaced (same.symm.trans equal)]
      · rw [if_neg same, if_neg same]

/-- A name that no entry has is put behind all of them, since none gives way. -/
theorem put_new {entries : List (String × β)} {name : String} (value : β)
    (fresh : name ∉ entries.map Prod.fst) :
    put name value entries = entries ++ [(name, value)] := by
  induction entries with
  | nil => rfl
  | cons entry entries inductionHypothesis =>
    obtain ⟨other, old⟩ := entry
    simp only [List.map_cons, List.mem_cons, not_or] at fresh
    have apart : (other == name) = false := beq_eq_false_iff_ne.mpr (Ne.symm fresh.1)
    rw [put, apart, if_neg Bool.false_ne_true, inductionHypothesis fresh.2]
    rfl

end ScreenAtlas.Entries
