import ScreenAtlas.Disk.FileTree
import ScreenAtlas.Proofs.EncodedText

/-!
# Files in a folder that exists

A file that is written into a folder is found there afterwards, next to everything else
that the folder held. No folder disappears: whatever path led to a folder before leads
to the same place. Making a folder that exists changes nothing.
-/
namespace ScreenAtlas

namespace FileTree

/-- A location is looked up in two parts: first what leads to an entry, and then the rest from
there. The induction is on the first part. -/
theorem lookup_append {tree found : FileTree} {front : Location}
    (given : tree.lookup front = .ok found) (back : Location) :
    tree.lookup (front ++ back) = found.lookup back := by
  induction front generalizing tree with
  | nil =>
    obtain rfl := Except.ok.inj given
    rfl
  | cons name front inductionHypothesis =>
    cases tree with
    | file bytes => cases given
    | folder entries =>
      simp only [lookup, List.cons_append] at given ⊢
      cases entry : entries.lookup name with
      | none => simp [entry] at given
      | some inner =>
        simp only [entry] at given ⊢
        exact inductionHypothesis given

/-- Every folder of a tree is a folder of another one and has at least its names there. -/
def Extends (before after : FileTree) : Prop :=
  ∀ location entries, before.lookup location = .ok (folder entries) →
    ∃ more, after.lookup location = .ok (folder more) ∧
      ∀ name, (entries.lookup name).isSome → (more.lookup name).isSome

/-- A path that leads somewhere leads to the same place in a larger tree. The induction is on the
steps, from anywhere. -/
theorem Extends.follow {before after : FileTree} (larger : Extends before after)
    {here found : Location} {steps : List String} (given : before.follow here steps = .ok found) :
    after.follow here steps = .ok found := by
  induction steps generalizing here with
  | nil => exact given
  | cons step steps inductionHypothesis =>
    rw [FileTree.follow] at given ⊢
    cases start : before.lookup here with
    | error obstacle => simp [start] at given
    | ok entry =>
      cases entry with
      | file bytes => simp [start] at given
      | folder entries =>
        obtain ⟨more, kept, names⟩ := larger here entries start
        simp only [start] at given
        simp only [kept]
        by_cases up : (step == Location.stepUp) = true
        · simp only [up, ↓reduceIte] at given ⊢
          exact inductionHypothesis given
        · simp only [up, Bool.false_eq_true, ↓reduceIte] at given ⊢
          by_cases listed : (entries.lookup step).isSome = true
          · simp only [listed, names step listed, ↓reduceIte] at given ⊢
            exact inductionHypothesis given
          · simp [listed] at given

/-- A file has no folders to lose, so every tree extends it. -/
theorem extends_file (bytes : List UInt8) (tree : FileTree) : Extends (file bytes) tree := by
  intro location entries found
  cases location <;> cases found

/-- When an entry of a folder gives way to one that extends it, the folder is extended. A name
that is new takes nothing away. -/
theorem extends_put {entries : List (String × FileTree)} {name : String} {entry : FileTree}
    (larger : ∀ old, entries.lookup name = some old → Extends old entry) :
    Extends (folder entries) (folder (Entries.put name entry entries)) := by
  intro location inner found
  cases location with
  | nil =>
    obtain rfl := folder.inj (Except.ok.inj found)
    refine ⟨_, rfl, ?_⟩
    intro other listed
    by_cases same : other = name
    · rw [Entries.lookup_put, if_pos same]
      rfl
    · rw [Entries.lookup_put, if_neg same]
      exact listed
  | cons step rest =>
    simp only [lookup, Entries.lookup_put] at found ⊢
    by_cases same : step = name
    · rw [same] at found
      rw [if_pos same]
      cases entry : entries.lookup name with
      | none => simp [entry] at found
      | some old =>
        simp only [entry] at found
        exact larger old entry rest inner found
    · rw [if_neg same]
      exact ⟨inner, found, fun _ listed => listed⟩

/-- A file is put into a folder: the folder has it afterwards, and no folder is lost.

Proof: by induction on the steps to the folder. On the way every entry gives way to the
changed one, which loses no folder by hypothesis; at the end a file or nothing gives
way to the file. -/
theorem place_spec {tree : FileTree} {parent : Location} {entries : List (String × FileTree)}
    {name : String} (bytes : List UInt8) (given : tree.lookup parent = .ok (folder entries))
    (free : ∀ inner, entries.lookup name ≠ some (folder inner)) :
    ∃ changed, tree.place (file bytes) (parent ++ [name]) = .ok changed ∧
      changed.lookup parent = .ok (folder (Entries.put name (file bytes) entries)) ∧
      Extends tree changed := by
  induction parent generalizing tree with
  | nil =>
    obtain rfl := Except.ok.inj given
    refine ⟨_, rfl, rfl, extends_put ?_⟩
    intro old listed
    cases old with
    | file held => exact extends_file held _
    | folder inner => exact absurd listed (free inner)
  | cons step parent inductionHypothesis =>
    cases tree with
    | file held => cases given
    | folder outer =>
      simp only [lookup] at given
      cases entry : outer.lookup step with
      | none => simp [entry] at given
      | some inner =>
        simp only [entry] at given
        obtain ⟨changed, placed, found, larger⟩ := inductionHypothesis given
        refine ⟨folder (Entries.put step changed outer), ?_, ?_, extends_put ?_⟩
        · simp only [List.cons_append, place, entry, Option.getD_some, placed]
          rfl
        · simp only [lookup, Entries.lookup_put, ↓reduceIte, found]
        · intro old listed
          obtain rfl := Option.some.inj (entry.symm.trans listed)
          exact larger

/-- A file is written into a folder that has no folder of that name: the folder has it afterwards,
and no folder is lost. -/
theorem writeFile_spec {tree : FileTree} {parent : Location} {entries : List (String × FileTree)}
    {name : String} (bytes : List UInt8) (given : tree.lookup parent = .ok (folder entries))
    (free : ∀ inner, entries.lookup name ≠ some (folder inner)) :
    ∃ changed, tree.writeFile parent name bytes = .ok changed ∧
      changed.lookup parent = .ok (folder (Entries.put name (file bytes) entries)) ∧
      Extends tree changed := by
  have written : tree.writeFile parent name bytes =
      tree.place (file bytes) (parent ++ [name]) := by
    simp only [writeFile, given]
  rw [written]
  exact place_spec bytes given free

/-- Steps are followed one after the other, so a path that leads somewhere has a place in its
middle. The induction is on the first steps. -/
theorem follow_append {tree : FileTree} {here found : Location} {front back : List String}
    (given : tree.follow here (front ++ back) = .ok found) :
    ∃ middle, tree.follow here front = .ok middle ∧ tree.follow middle back = .ok found := by
  induction front generalizing here with
  | nil => exact ⟨here, rfl, given⟩
  | cons step front inductionHypothesis =>
    rw [List.cons_append, FileTree.follow] at given
    split at given
    · cases given
    · cases given
    · rename_i entries start
      simp only [FileTree.follow, start]
      split at given
      · rename_i up
        simp only [up, ↓reduceIte]
        exact inductionHypothesis given
      · rename_i ahead
        simp only [ahead, Bool.false_eq_true, ↓reduceIte]
        split at given
        · rename_i listed
          simp only [listed, ↓reduceIte]
          exact inductionHypothesis given
        · cases given

/-- Making a folder that exists changes nothing: everything above its last step is found, and so
is the folder there. -/
theorem makeFolders_existing {tree : FileTree} {here found : Location} {steps : List String}
    {entries : List (String × FileTree)} (given : tree.follow here steps = .ok found)
    (present : tree.lookup found = .ok (folder entries)) :
    tree.makeFolders here steps.reverse = .ok tree := by
  rcases List.eq_nil_or_concat steps with rfl | ⟨above, last, rfl⟩
  · rfl
  · rw [List.concat_eq_append] at given ⊢
    obtain ⟨parent, reached, step⟩ := follow_append given
    rw [List.reverse_append, List.reverse_singleton, List.singleton_append, makeFolders,
      List.reverse_reverse, reached]
    rw [FileTree.follow] at step
    split at step
    · cases step
    · cases step
    · rename_i outer start
      simp only [makeFolder, start]
      split at step
      · rename_i up
        rw [if_pos up]
      · rename_i ahead
        split at step
        · obtain rfl := Except.ok.inj step
          rw [lookup_append start, lookup] at present
          rw [if_neg ahead]
          cases entry : outer.lookup last with
          | none => simp [entry] at present
          | some inner =>
            simp only [entry, lookup] at present
            obtain rfl := Except.ok.inj present
            rfl
        · cases step

end FileTree

end ScreenAtlas
