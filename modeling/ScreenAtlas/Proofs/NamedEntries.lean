import Mathlib.Data.List.Nodup
import ScreenAtlas.Proofs.FolderFiles
import ScreenAtlas.Proofs.JoinedText
import ScreenAtlas.Repository.Listing

/-!
# Trees whose entries have names

On a disk the entries of a folder have distinct names. A name is not empty, holds no
slash and is neither the step that stays nor the step up. In such a tree an entry is
found under its own name, every location that leads somewhere is made of names, and
the path that names make gives the names back.
-/
namespace ScreenAtlas

/-- What an entry of a folder can be called. -/
structure Location.IsName (name : String) : Prop where
  filled : name ≠ ""
  single : '/' ∉ name.toList
  ahead : name ≠ "." ∧ name ≠ Location.stepUp

instance (name : String) : Decidable (Location.IsName name) :=
  decidable_of_iff (name ≠ "" ∧ '/' ∉ name.toList ∧ name ≠ "." ∧ name ≠ Location.stepUp)
    ⟨fun facts => ⟨facts.1, facts.2.1, facts.2.2⟩,
      fun named => ⟨named.filled, named.single, named.ahead⟩⟩

/-- Names are recovered from the path that they make, since no name holds the slash between them.
-/
theorem Repository.pathOf_injective {left right : List String} (some : left ≠ [])
    (named : ∀ name ∈ left, Location.IsName name) (other : right ≠ [])
    (alike : ∀ name ∈ right, Location.IsName name) (same : pathOf left = pathOf right) :
    left = right := by
  have free {names : List String} (named : ∀ name ∈ names, Location.IsName name) :
      ∀ letters ∈ names.map String.toList, '/' ∉ letters := by
    intro letters member
    obtain ⟨name, listed, rfl⟩ := List.mem_map.mp member
    exact (named name listed).single
  have letters : left.map String.toList = right.map String.toList := by
    apply Text.intercalate_injective (by simpa using some) (free named) (by simpa using other)
      (free alike)
    have joined := congrArg String.toList same
    rwa [pathOf, pathOf, String.toList_intercalate, String.toList_intercalate] at joined
  exact List.map_injective_iff.mpr (fun _ _ => String.toList_injective) letters

namespace FileTree

/-- The entries of every folder in the tree have names, and distinct ones. -/
inductive WellNamed : FileTree → Prop
  | file (bytes : List UInt8) : WellNamed (file bytes)
  | folder {entries : List (String × FileTree)} (distinct : (entries.map Prod.fst).Nodup)
      (named : ∀ entry ∈ entries, Location.IsName entry.1)
      (inner : ∀ entry ∈ entries, WellNamed entry.2) : WellNamed (folder entries)

namespace WellNamed

variable {tree found : FileTree} {entries : List (String × FileTree)}

/-- An entry of a well-named folder is found under a name exactly when it is listed with it, as
names are distinct. -/
theorem lookup_eq_some_iff (wellNamed : (FileTree.folder entries).WellNamed) (name : String)
    (entry : FileTree) : entries.lookup name = some entry ↔ (name, entry) ∈ entries := by
  cases wellNamed with
  | folder distinct _ _ =>
    constructor
    · intro found
      obtain ⟨before, after, rfl, _⟩ := List.lookup_eq_some_iff.mp found
      simp
    · intro member
      obtain ⟨before, after, rfl⟩ := List.append_of_mem member
      refine List.lookup_eq_some_iff.mpr ⟨before, after, rfl, ?_⟩
      rintro ⟨other, _⟩ earlier
      rw [List.map_append, List.map_cons] at distinct
      have apart : other ≠ name := by
        rintro rfl
        exact List.disjoint_of_nodup_append distinct (List.mem_map_of_mem earlier)
          List.mem_cons_self
      simpa using apart.symm

/-- In a well-named folder a location leads through the entry that its first name belongs to, and
from there on by the rest. -/
theorem lookup_cons_eq_ok_iff (wellNamed : (FileTree.folder entries).WellNamed) {name : String}
    {rest : Location} : (FileTree.folder entries).lookup (name :: rest) = .ok found ↔
      ∃ entry, (name, entry) ∈ entries ∧ entry.lookup rest = .ok found := by
  simp only [← wellNamed.lookup_eq_some_iff, lookup]
  cases entries.lookup name <;> simp

/-- A location leads from a well-named tree to a well-named tree, and it is made of names. The
induction is on the location, for any tree. -/
theorem of_lookup (wellNamed : tree.WellNamed) {location : Location}
    (leads : tree.lookup location = .ok found) :
    found.WellNamed ∧ ∀ name ∈ location, Location.IsName name := by
  induction location generalizing tree with
  | nil =>
    obtain rfl := Except.ok.inj leads
    exact ⟨wellNamed, by simp⟩
  | cons name rest inductionHypothesis =>
    cases tree with
    | file bytes => cases leads
    | folder entries =>
      obtain ⟨entry, member, leads⟩ := wellNamed.lookup_cons_eq_ok_iff.mp leads
      cases wellNamed with
      | folder _ named inner =>
        obtain ⟨reached, names⟩ := inductionHypothesis (inner _ member) leads
        exact ⟨reached, List.forall_mem_cons.mpr ⟨named _ member, names⟩⟩

end WellNamed

end FileTree

end ScreenAtlas
