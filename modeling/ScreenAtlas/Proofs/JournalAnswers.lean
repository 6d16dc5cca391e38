import ScreenAtlas.Framework.Detection

/-!
# What computations with notes answer

Notes are left beside the computation: they never decide its answer. A
computation answers a value, or a fault, when it does so whatever notes have been
left before it. Answers compose along the computation, and the only fault of the
extraction comes from a manifest that holds a whole number with too many figures.
-/
namespace ScreenAtlas

namespace Journal

variable {α β : Type}

/-- The computation ends with the given value or fault, whatever notes have been
left before it. -/
def Answers (journal : Journal α) (answer : Except Fault α) : Prop :=
  ∀ notes, (journal.run.run notes).1 = answer

/-- A computation has at most one answer, which is the one it gives before any notes are left. -/
theorem Answers.unique {journal : Journal α} {answer other : Except Fault α}
    (first : journal.Answers answer) (second : journal.Answers other) : answer = other :=
  (first []).symm.trans (second [])

/-- A value that is given right away is the answer, and no note plays a part in it. -/
theorem answers_pure (value : α) : Answers (pure value) (.ok value) := fun _ => rfl

/-- A fault that is raised right away is the answer, and no note plays a part in it. -/
theorem answers_throw (fault : Fault) : Answers (throw fault : Journal α) (.error fault) :=
  fun _ => rfl

/-- Leaving a note always succeeds and has no value of interest. -/
theorem answers_leave (note : Note) : Answers (leave note) (.ok ()) := fun _ => rfl

/-- An attempt within a computation is its own answer, whether it succeeds or fails. -/
theorem answers_liftExcept (attempt : Except Fault α) :
    Answers (liftExcept attempt : Journal α) attempt := by
  cases attempt with
  | ok value => exact answers_pure value
  | error fault => exact answers_throw fault

/-- Two computations one after the other: the second starts with the answer and the
notes of the first. -/
theorem run_bind (journal : Journal α) (next : α → Journal β) (notes : List Note) :
    (journal >>= next).run.run notes =
      match journal.run.run notes with
      | (.ok value, later) => (next value).run.run later
      | (.error fault, later) => (.error fault, later) := by
  simp only [ExceptT.run_bind, StateT.run_bind]
  rcases journal.run.run notes with ⟨result | result, later⟩ <;> rfl

/-- When a computation answers with a value, what follows it decides, started with this value. -/
theorem Answers.bind {journal : Journal α} {next : α → Journal β} {value : α}
    {answer : Except Fault β} (first : journal.Answers (.ok value))
    (second : (next value).Answers answer) : (journal >>= next).Answers answer := by
  intro notes
  have given := first notes
  rw [run_bind]
  rcases shown : journal.run.run notes with ⟨result, later⟩
  rw [shown] at given
  obtain rfl : result = .ok value := given
  exact second later

/-- A fault of the first computation is the answer of the whole, whatever would have followed. -/
theorem Answers.bind_error {journal : Journal α} {fault : Fault}
    (first : journal.Answers (.error fault)) (next : α → Journal β) :
    (journal >>= next).Answers (.error fault) := by
  intro notes
  have given := first notes
  rw [run_bind]
  rcases shown : journal.run.run notes with ⟨result, later⟩
  rw [shown] at given
  obtain rfl : result = .error fault := given
  rfl

/-- The computation ends with a value after some notes. -/
def Ends (journal : Journal α) (value : α) : Prop :=
  ∃ notes, (journal.run.run notes).1 = .ok value

/-- An answer that does not depend on notes is the one that a computation ends with after some
notes. -/
theorem Answers.eq_of_ends {journal : Journal α} {answer : Except Fault α} {value : α}
    (first : journal.Answers answer) (ended : journal.Ends value) : answer = .ok value := by
  obtain ⟨notes, given⟩ := ended
  exact (first notes).symm.trans given

/-- When two computations one after the other end with a value, the first ends with
one that the second starts with. -/
theorem Ends.of_bind {journal : Journal α} {next : α → Journal β} {value : β}
    (ended : (journal >>= next).Ends value) :
    ∃ first, journal.Ends first ∧ (next first).Ends value := by
  obtain ⟨notes, given⟩ := ended
  rw [run_bind] at given
  rcases shown : journal.run.run notes with ⟨fault | first, later⟩
  · simp [shown] at given
  · exact ⟨first, ⟨notes, by rw [shown]⟩, later, by simpa only [shown] using given⟩

/-- A computation that gives a value right away ends with that value and no other. -/
theorem Ends.eq_of_pure {value other : α} (ended : (pure value : Journal α).Ends other) :
    value = other :=
  Except.ok.inj ((answers_pure value).eq_of_ends ended)

/-- An attempt that ends with a value has succeeded with it, since a fault would have been the
answer. -/
theorem Ends.of_liftExcept {attempt : Except Fault α} {value : α}
    (ended : (liftExcept attempt : Journal α).Ends value) : attempt = .ok value := by
  cases attempt with
  | ok first => rw [Ends.eq_of_pure ended]
  | error fault => cases (answers_throw fault).eq_of_ends ended

end Journal

namespace Manifest

/-- The manifest holds a whole number with too many figures, where anything that
precedes this number is well-formed. -/
def Unreadable (files : List SourceFile) : Prop :=
  ∃ file, find? files = some file ∧ Json.read file.content = .error .tooManyDigits

/-- Every other manifest is read, as an empty one when it is missing or malformed. A malformed one
leaves a note. -/
theorem consult_answers {files : List SourceFile} (readable : ¬ Unreadable files) :
    ∃ members, (consult files).Answers (.ok members) := by
  unfold consult
  cases found : find? files with
  | none => exact ⟨[], Journal.answers_pure []⟩
  | some file =>
    simp only [read]
    split
    · exact ⟨_, Journal.answers_pure _⟩
    · exact ⟨[], Journal.answers_pure []⟩
    · exact ⟨[], (Journal.answers_leave _).bind (Journal.answers_pure [])⟩
    · next refused => exact absurd ⟨file, found, refused⟩ readable

/-- A manifest that holds a whole number with too many figures is refused with a fault. -/
theorem consult_fault {files : List SourceFile} (unreadable : Unreadable files) :
    (consult files).Answers (.error .malformedNumber) := by
  obtain ⟨file, found, refused⟩ := unreadable
  simp only [consult, found, read, refused]
  exact Journal.answers_throw .malformedNumber

end Manifest

namespace Framework

/-- The frameworks are detected unless the manifest is refused, as reading it is all that can
fail. -/
theorem detect_answers {files : List SourceFile} (readable : ¬ Manifest.Unreadable files) :
    ∃ framework, (detect files).Answers (.ok framework) := by
  obtain ⟨members, consulted⟩ := Manifest.consult_answers readable
  exact ⟨_, consulted.bind ((Journal.answers_leave _).bind (Journal.answers_pure _))⟩

/-- A refused manifest ends the detection with the same fault, before any file is looked at. -/
theorem detect_fault {files : List SourceFile} (unreadable : Manifest.Unreadable files) :
    (detect files).Answers (.error .malformedNumber) :=
  (Manifest.consult_fault unreadable).bind_error _

end Framework

end ScreenAtlas
