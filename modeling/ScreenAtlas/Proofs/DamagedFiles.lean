import Mathlib
import ScreenAtlas.Proofs.JournalAnswers
import ScreenAtlas.Proofs.LegibleRecords
import ScreenAtlas.Store.Folder

/-!
# Looking up a record in a damaged file

Whatever bytes the file of an identifier holds, a lookup ends in one of three
ways: with the record, with the answer that nothing is kept under the identifier,
or with a fault of another kind. Which of them it is depends on the bytes alone,
and this module says how. Malformed data, another version and a document without
a record count as nothing kept. Bytes that are no text, a whole number with too
many figures and a record with a field that has no reading do not: their faults
leave the store.

Data are read here however deeply they are nested. A reader that runs out of its stack in a
file of great depth would let one more fault leave the store; that limit belongs to the
machine and is left out.
-/
namespace ScreenAtlas.FolderStore

open Journal Members

/-- The file of an identifier is there and holds the given bytes. -/
def Keeps (store : FolderStore) (id : String) (bytes : List UInt8) : Prop :=
  ∃ steps folder, store.steps = .ok steps ∧ store.tree.follow store.start steps = .ok folder ∧
    store.tree.readBytes (folder ++ [fileName id]) = .ok bytes

/-- The bytes are a text, and reading it as data gives the value or the error. -/
def Spells (bytes : List UInt8) (reading : Except Json.ReadError Json) : Prop :=
  ∃ text, Text.decode? bytes = some text ∧
    Json.read (String.ofList (Text.unifyBreaks text)) = reading

/-- The members of the record that a document of this version carries. -/
def carried? : Json → Option Members
  | .object members =>
    if (Members.get? members "version").any isVersion then
      match Members.get? members "record" with
      | some (.object record) => some record
      | _ => none
    else none
  | _ => none

/-- The bytes are a document with a record that can be read. -/
def Sound (bytes : List UInt8) : Prop :=
  ∃ value members, Spells bytes (.ok value) ∧ carried? value = some members ∧ Legible members

/-- The bytes are damaged in a way that a lookup does not pass over. -/
inductive Damaged (bytes : List UInt8) : Prop
  /-- They are no text. -/
  | noText (undecodable : Text.decode? bytes = none)
  /-- They hold a whole number with too many figures, where anything that precedes
  this number is well-formed. -/
  | endlessNumber (refused : Spells bytes (.error .tooManyDigits))
  /-- They are a document whose record has a field without a reading. -/
  | illegible {value : Json} {members : Members} (read : Spells bytes (.ok value))
      (carried : carried? value = some members) (unread : ¬ Legible members)

/-- The faults with which damage leaves the store: bytes that are no text, and those of fields
without a reading. -/
def escapes : List Fault := .blocked .undecodable :: fieldFaults

/-- Bytes spell one thing only: they are at most one text, and reading a text has one result. -/
theorem Spells.unique {bytes : List UInt8} {first second : Except Json.ReadError Json}
    (left : Spells bytes first) (right : Spells bytes second) : first = second := by
  obtain ⟨text, decoded, rfl⟩ := left
  obtain ⟨other, again, rfl⟩ := right
  obtain rfl : text = other := Option.some.inj (decoded.symm.trans again)
  rfl

/-- Bytes that spell something are a text, whether reading it as data gives a value or an error.
-/
theorem Spells.ne_none {bytes : List UInt8} {reading : Except Json.ReadError Json}
    (spelled : Spells bytes reading) : Text.decode? bytes ≠ none := by
  obtain ⟨text, decoded, _⟩ := spelled
  simp [decoded]

/-- A sound file is not damaged in any of the three ways: its bytes are a text, this text is read
as a value, and the record in it is legible. -/
theorem Sound.not_damaged {bytes : List UInt8} (sound : Sound bytes) : ¬ Damaged bytes := by
  obtain ⟨value, members, read, carried, legible⟩ := sound
  rintro (undecodable | refused | ⟨again, also, unread⟩)
  · exact read.ne_none undecodable
  · cases read.unique refused
  · obtain rfl := Except.ok.inj (read.unique again)
    obtain rfl := Option.some.inj (carried.symm.trans also)
    exact unread legible

/-- What is read of a file that is there depends on its bytes alone: they are decoded, and bytes
that are no text are an obstacle. -/
theorem readFile_of_keeps {store : FolderStore} {id : String} {bytes : List UInt8}
    (kept : store.Keeps id bytes) :
    store.readFile id =
      match Text.decode? bytes with
      | some text => .ok (String.ofList (Text.unifyBreaks text))
      | none => .error (.blocked .undecodable) := by
  obtain ⟨steps, folder, given, followed, read⟩ := kept
  simp only [readFile, given, followed, FileTree.readText, read, bind, Except.bind]
  cases Text.decode? bytes <;> rfl

/-- The members found in a value are those that it carries; a value that carries none
costs at most a note. -/
theorem recordIn_answers (store : FolderStore) (id : String) (value : Json) :
    (store.recordIn id value).Answers (.ok (carried? value)) := by
  have passed : ∀ note, (do leave note; return none : Journal (Option Members)).Answers
      (.ok none) := fun note => (answers_leave note).bind (answers_pure none)
  cases value with
  | object members =>
    simp only [recordIn, carried?]
    cases Members.get? members "version" with
    | none => exact passed _
    | some number =>
      by_cases current : isVersion number = true
      · simp only [current, ↓reduceIte, Option.any_some]
        cases Members.get? members "record" with
        | none => exact answers_pure none
        | some inner => cases inner <;> exact answers_pure _
      · simp only [current, Bool.false_eq_true, ↓reduceIte, Option.any_some]
        exact passed _
  | null => exact passed _
  | bool value => exact passed _
  | int value => exact passed _
  | double value => exact passed _
  | text text => exact passed _
  | list items => exact passed _

section Kept

variable {store : FolderStore} {id : String} {bytes : List UInt8}

/-- Bytes that are no text end the lookup with a fault, as no answer of the store covers them. -/
theorem loadMembers_of_noText (kept : store.Keeps id bytes)
    (undecodable : Text.decode? bytes = none) :
    (store.loadMembers id).Answers (.error (.blocked .undecodable)) := by
  simp only [loadMembers, readFile_of_keeps kept, undecodable]
  exact answers_throw _

/-- A whole number with too many figures ends the lookup with a fault, because the reader of data
refuses it in another way than malformed data. -/
theorem loadMembers_of_endlessNumber (kept : store.Keeps id bytes)
    (refused : Spells bytes (.error .tooManyDigits)) :
    (store.loadMembers id).Answers (.error .malformedNumber) := by
  obtain ⟨text, decoded, read⟩ := refused
  simp only [loadMembers, readFile_of_keeps kept, decoded, read]
  exact answers_throw _

/-- Malformed data are passed over: the lookup goes on as if nothing were kept under the
identifier. -/
theorem loadMembers_of_malformed (kept : store.Keeps id bytes)
    (refused : Spells bytes (.error .malformed)) : (store.loadMembers id).Answers (.ok none) := by
  obtain ⟨text, decoded, read⟩ := refused
  simp only [loadMembers, readFile_of_keeps kept, decoded, read]
  exact (answers_leave _).bind (answers_pure none)

/-- Of a value the members are taken that it carries, or none if it is no document of this version
with a record. -/
theorem loadMembers_of_value (kept : store.Keeps id bytes) {value : Json}
    (spelled : Spells bytes (.ok value)) :
    (store.loadMembers id).Answers (.ok (carried? value)) := by
  obtain ⟨text, decoded, read⟩ := spelled
  simp only [loadMembers, readFile_of_keeps kept, decoded, read]
  exact store.recordIn_answers id value

/-- Under an identifier that can name no file nothing is found, and the disk is not asked at all.
-/
theorem get_of_unsafe (store : FolderStore) {id : String} (rejected : isSafe id = false) :
    (store.get id).Answers (.error (.unknownAnalysis id)) := by
  simp only [get, rejected, Bool.false_eq_true, ↓reduceIte]
  exact answers_throw _

/-- A fault on the way to the members is the answer of the lookup, if only the identifier can name
a file. -/
theorem get_of_fault {fault : Fault} (safe : isSafe id = true)
    (loaded : (store.loadMembers id).Answers (.error fault)) :
    (store.get id).Answers (.error fault) := by
  simp only [get, safe, ↓reduceIte]
  exact loaded.bind_error _

/-- Without members the answer is that nothing is kept under the identifier. -/
theorem get_of_none (safe : isSafe id = true) (loaded : (store.loadMembers id).Answers (.ok none)) :
    (store.get id).Answers (.error (.unknownAnalysis id)) := by
  simp only [get, safe, ↓reduceIte]
  exact loaded.bind (answers_throw _)

/-- Members that are found are read as a record, and what this gives is the answer, be it the
record or a fault. -/
theorem get_of_members {members : Members} (safe : isSafe id = true)
    (loaded : (store.loadMembers id).Answers (.ok (some members))) :
    (store.get id).Answers (Record.decode members) := by
  simp only [get, safe, ↓reduceIte]
  exact loaded.bind (answers_liftExcept _)

/-- A sound file gives a record: its members are found, and legible members are read without a
fault. -/
theorem get_of_sound (safe : isSafe id = true) (kept : store.Keeps id bytes)
    (sound : Sound bytes) : ∃ record, (store.get id).Answers (.ok record) := by
  obtain ⟨value, members, spelled, carried, legible⟩ := sound
  have loaded := loadMembers_of_value kept spelled
  rw [carried] at loaded
  obtain ⟨record, decoded⟩ := (Record.hinges_decode members).succeeds legible
  exact ⟨record, decoded ▸ get_of_members safe loaded⟩

/-- Damage leaves the store with one of four faults, one for bytes that are no text and the others
for numbers and fields that have no reading. -/
theorem get_of_damaged (safe : isSafe id = true) (kept : store.Keeps id bytes)
    (damaged : Damaged bytes) : ∃ fault ∈ escapes, (store.get id).Answers (.error fault) := by
  cases damaged with
  | noText undecodable =>
    exact ⟨_, by decide, get_of_fault safe (loadMembers_of_noText kept undecodable)⟩
  | endlessNumber refused =>
    exact ⟨_, by decide, get_of_fault safe (loadMembers_of_endlessNumber kept refused)⟩
  | @illegible value members spelled carried unread =>
    have loaded := loadMembers_of_value kept spelled
    rw [carried] at loaded
    obtain ⟨fault, known, failed⟩ := (Record.hinges_decode members).fails unread
    exact ⟨fault, List.mem_cons_of_mem _ known, failed ▸ get_of_members safe loaded⟩

/-- A file that is neither sound nor damaged counts as none: its data are malformed, or they carry
no record. -/
theorem get_of_passed (safe : isSafe id = true) (kept : store.Keeps id bytes)
    (unsound : ¬ Sound bytes) (undamaged : ¬ Damaged bytes) :
    (store.get id).Answers (.error (.unknownAnalysis id)) := by
  cases decoded : Text.decode? bytes with
  | none => exact absurd (.noText decoded) undamaged
  | some text =>
    cases read : Json.read (String.ofList (Text.unifyBreaks text)) with
    | error refusal =>
      cases refusal with
      | malformed => exact get_of_none safe (loadMembers_of_malformed kept ⟨text, decoded, read⟩)
      | tooManyDigits => exact absurd (.endlessNumber ⟨text, decoded, read⟩) undamaged
    | ok value =>
      have spelled : Spells bytes (.ok value) := ⟨text, decoded, read⟩
      have loaded := loadMembers_of_value kept spelled
      cases carried : carried? value with
      | none => exact get_of_none safe (carried ▸ loaded)
      | some members =>
        by_cases legible : Legible members
        · exact absurd ⟨value, members, spelled, carried, legible⟩ unsound
        · exact absurd (.illegible spelled carried legible) undamaged

end Kept

/-- For every store, identifier and content of its file the lookup has an answer, and
the content decides which: a record exactly for a sound file, a fault other than
that nothing is kept exactly for a damaged one, and in all other cases, as for an
identifier that can name no file, that nothing is kept.

Proof: the identifier and the content fall into four cases, and each has its answer
by a lemma above. The equivalences follow because the three kinds of answers exclude
each other, as soundness and damage do. -/
theorem damage_alone_escapes (store : FolderStore) (id : String) (bytes : List UInt8)
    (kept : store.Keeps id bytes) :
    ∃ answer, (store.get id).Answers answer ∧
      ((∃ record, answer = .ok record) ↔ isSafe id = true ∧ Sound bytes) ∧
      ((∃ fault ∈ escapes, answer = .error fault) ↔ isSafe id = true ∧ Damaged bytes) ∧
      (answer = .error (.unknownAnalysis id) ↔
        isSafe id = false ∨ ¬ Sound bytes ∧ ¬ Damaged bytes) := by
  have apart : Fault.unknownAnalysis id ∉ escapes := by simp [escapes, fieldFaults]
  cases safe : isSafe id with
  | false =>
    refine ⟨_, store.get_of_unsafe safe, ?_, ?_, ?_⟩ <;> simp_all
  | true =>
    by_cases sound : Sound bytes
    · obtain ⟨record, given⟩ := get_of_sound safe kept sound
      refine ⟨_, given, ?_, ?_, ?_⟩ <;> simp [sound, sound.not_damaged]
    · by_cases damaged : Damaged bytes
      · obtain ⟨fault, known, given⟩ := get_of_damaged safe kept damaged
        refine ⟨_, given, ?_, ?_, ?_⟩
        · simp [sound]
        · simp [damaged, known]
        · simp only [damaged, not_true_eq_false, and_false, or_false, Bool.true_eq_false, iff_false]
          intro same
          exact apart (Except.error.inj same ▸ known)
      · refine ⟨_, get_of_passed safe kept sound damaged, ?_, ?_, ?_⟩ <;> simp_all

/-- A store whose folder holds one file, that of the identifier `a`. -/
def holding (bytes : List UInt8) : FolderStore where
  tree := .folder [("a.json", .file bytes)]
  directory := "."

/-- The file of the identifier is there in this store, with the bytes that were given. -/
theorem keeps_holding (bytes : List UInt8) : (holding bytes).Keeps "a" bytes := by
  refine ⟨[], [], ?_, ?_, rfl⟩
  · cbv
  · rw [start, Location.startOf]
    split <;> rfl

/-- A record whose flows are a number. -/
def numberForFlows : String :=
  "\x7b\"version\": 1, \"record\": \x7b\"flows\": 7\x7d\x7d"

/-- A record whose number of files is a word. -/
def wordForNumber : String :=
  "\x7b\"version\": 1, \"record\": \x7b\"filesAnalyzed\": \"x\"\x7d\x7d"

/-- A file with a byte that starts no character is damaged, and looking it up ends
with a fault that leaves the store. -/
theorem holding_stray_byte_escapes :
    (holding [0xFF]).Keeps "a" [0xFF] ∧ isSafe "a" = true ∧ Damaged [0xFF] ∧
      ∃ fault ∈ escapes, ((holding [0xFF]).get "a").Answers (.error fault) := by
  have kept := keeps_holding [0xFF]
  have safe : isSafe "a" = true := by decide
  have damaged : Damaged [0xFF] := .noText (by decide)
  obtain ⟨answer, given, -, escaped, -⟩ := damage_alone_escapes (holding [0xFF]) "a" [0xFF] kept
  obtain ⟨fault, known, rfl⟩ := escaped.mpr ⟨safe, damaged⟩
  exact ⟨kept, safe, damaged, fault, known, given⟩

/-- Three files of an identifier that could name a record, each with a content for
which the lookup gives neither a record nor the answer that nothing is kept. -/
theorem damaged_files_end_lookups :
    ((holding [0xFF]).get "a").outcome = (.error (.blocked .undecodable), []) ∧
      ((holding (Text.encode numberForFlows.toList)).get "a").outcome = (.error .wrongType, []) ∧
      ((holding (Text.encode wordForNumber.toList)).get "a").outcome =
        (.error .malformedNumber, []) := by
  refine ⟨rfl, ?_, ?_⟩ <;> cbv

end ScreenAtlas.FolderStore
