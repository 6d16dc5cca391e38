import ScreenAtlas.Proofs.DamagedFiles
import ScreenAtlas.Proofs.FolderFiles
import ScreenAtlas.Proofs.StoredRecords
import ScreenAtlas.Store.Memory

/-!
# The two stores answer alike

Records are kept in memory or in a folder. Over any history of saving and getting, with
identifiers that can name files, both answer every request as a ledger of what was saved
does: a get finds the record that was saved last under its identifier, and nothing when
none was. An identifier that can name no file is refused by the folder, which stays as
it is.

Two records count as equal when they differ at most in the sign of a zero confidence
and in the order of the members of their values of free form. What is saved has to be
writable. A whole number with more digits than a document may hold is where the stores part:
the folder refuses the record and keeps its files, while the memory takes it.
-/
namespace ScreenAtlas.Store

open FolderStore (isSafe)

/-- A request to a store: a record is saved, or asked for. -/
inductive Operation where
  | save (id : String) (record : Record)
  | get (id : String)

namespace Operation

/-- The identifier that a request is about. -/
def id : Operation → String
  | save id _ => id
  | get id => id

/-- What is saved can be written as a document. -/
def isWritable : Operation → Bool
  | save _ record => Json.isWritable (.object record.encode)
  | get _ => true

end Operation

/-- The answer of a store to a request. -/
inductive Answer where
  | saved
  | found (record : Record)
  | refused (fault : Fault)

namespace Answer

/-- The answer to a get, from what the store gives. -/
def ofGet : Except Fault Record → Answer
  | .ok record => found record
  | .error fault => refused fault

/-- An answer up to what does not count as a difference between records. -/
def canonical : Answer → Answer
  | found record => found record.canonical
  | answer => answer

end Answer

/-- Two lists of answers are equal, one by one. -/
def Agree (left right : List Answer) : Prop :=
  left.map Answer.canonical = right.map Answer.canonical

/-- The answers of a store to a history of requests, each of which changes the store. -/
def answers {σ : Type} (step : σ → Operation → Answer × σ) (store : σ) :
    List Operation → List Answer
  | [] => []
  | operation :: history =>
    (step store operation).1 :: answers step (step store operation).2 history

/-- A request to the records in memory. -/
def stepMemory (store : MemoryStore) : Operation → Answer × MemoryStore
  | .save id record => (.saved, store.save id record)
  | .get id => (.ofGet (store.get id), store)

/-- A request to the records in a folder. A fault leaves the folder as it is. -/
def stepFolder (store : FolderStore) : Operation → Answer × FolderStore
  | .save id record =>
    match store.save id record with
    | .ok changed => (.saved, changed)
    | .error fault => (.refused fault, store)
  | .get id => (.ofGet ((store.get id).run.run []).1, store)

/-- What was saved, with the latest first. -/
abbrev Ledger := List (String × Record)

/-- A request to a ledger. Saving adds an entry when the identifier can name a file; a
get finds the latest entry of its identifier. -/
def stepLedger (ledger : Ledger) : Operation → Answer × Ledger
  | .save id record =>
    if isSafe id then (.saved, (id, record) :: ledger) else (.refused (.unknownAnalysis id), ledger)
  | .get id =>
    match ledger.lookup id with
    | some record => (.found record, ledger)
    | none => (.refused (.unknownAnalysis id), ledger)

/-- If one request keeps a store in step with a ledger and is answered alike, a whole history is.
The induction is on the history and carries both states. -/
theorem agree_of_step {σ : Type} {step : σ → Operation → Answer × σ} {InStep : σ → Ledger → Prop}
    {allowed : Operation → Prop}
    (keeps : ∀ store ledger operation, InStep store ledger → allowed operation →
      (step store operation).1.canonical = (stepLedger ledger operation).1.canonical ∧
        InStep (step store operation).2 (stepLedger ledger operation).2)
    {store : σ} {ledger : Ledger} (start : InStep store ledger) {history : List Operation}
    (every : ∀ operation ∈ history, allowed operation) :
    Agree (answers step store history) (answers stepLedger ledger history) := by
  induction history generalizing store ledger with
  | nil => rfl
  | cons operation history inductionHypothesis =>
    obtain ⟨same, next⟩ := keeps store ledger operation start (every operation List.mem_cons_self)
    have rest := inductionHypothesis next fun other member =>
      every other (List.mem_cons_of_mem _ member)
    simp only [Agree, answers, List.map_cons] at rest ⊢
    rw [same, rest]

section Memory

/-- The records in memory are those of a ledger. -/
def InMemory (store : MemoryStore) (ledger : Ledger) : Prop :=
  ∀ id, store.records.lookup id = (ledger.lookup id).map Record.encode

/-- One request with an identifier that can name a file keeps the records in memory in step with
the ledger and is answered as the ledger answers it. -/
theorem stepMemory_inStep (store : MemoryStore) (ledger : Ledger) (operation : Operation)
    (same : InMemory store ledger) (safe : isSafe operation.id = true) :
    (stepMemory store operation).1.canonical = (stepLedger ledger operation).1.canonical ∧
      InMemory (stepMemory store operation).2 (stepLedger ledger operation).2 := by
  cases operation with
  | save id record =>
    have accepted : isSafe id = true := safe
    simp only [stepMemory, stepLedger, accepted, ↓reduceIte, true_and]
    intro other
    rw [MemoryStore.save, Entries.lookup_put, Entries.lookup_first, same other]
    split <;> rfl
  | get name =>
    simp only [stepMemory, stepLedger, MemoryStore.get, same name]
    cases ledger.lookup name with
    | none => exact ⟨rfl, same⟩
    | some record =>
      have read : Record.decode record.encode = .ok (record.restored id) :=
        Record.decode_arrange Faithful.plain record
      simp only [Option.map_some, read]
      exact ⟨congrArg Answer.found (Record.restored_agrees (fun _ => rfl) record), same⟩

end Memory

/-- The path of a store leads to a folder with the given entries. -/
def Holds (store : FolderStore) (entries : List (String × FileTree)) : Prop :=
  ∃ steps folder, store.steps = .ok steps ∧ store.tree.follow store.start steps = .ok folder ∧
    store.tree.lookup folder = .ok (.folder entries)

/-- The files in the folder are the documents of a ledger. -/
structure InFolder (store : FolderStore) (ledger : Ledger) : Prop where
  files : ∃ entries, Holds store entries ∧ ∀ id, isSafe id = true →
    entries.lookup (FolderStore.fileName id) = (ledger.lookup id).map fun record =>
      .file (Text.encode (FolderStore.documentOf record).toList)
  writable : ∀ id record, ledger.lookup id = some record →
    Json.isWritable (.object record.encode) = true
  safe : ∀ id record, ledger.lookup id = some record → isSafe id = true

section Folder

variable {store : FolderStore} {entries : List (String × FileTree)} {id : String}

/-- Distinct identifiers name distinct files, because the ending that is added to them is always
the same. -/
theorem fileName_injective {left right : String}
    (same : FolderStore.fileName left = FolderStore.fileName right) : left = right := by
  have texts := congrArg String.toList same
  simp only [FolderStore.fileName, String.toList_append] at texts
  exact String.toList_inj.mp (List.append_cancel_right texts)

/-- A record without overlong numbers is saved as a file of its own: the entry of this name is put
into the folder, unless a folder of that name stands in the way. -/
theorem save_of_holds (held : Holds store entries) (safe : isSafe id = true) {record : Record}
    (printable : Json.isPrintable (.object record.encode) = true)
    (free : ∀ inner, entries.lookup (FolderStore.fileName id) ≠ some (.folder inner)) :
    ∃ changed, store.save id record = .ok changed ∧
      Holds changed (Entries.put (FolderStore.fileName id)
        (.file (Text.encode (FolderStore.documentOf record).toList)) entries) := by
  obtain ⟨steps, folder, given, followed, present⟩ := held
  obtain ⟨tree, written, found, larger⟩ := FileTree.writeFile_spec
    (Text.encode (FolderStore.documentOf record).toList) present free
  refine ⟨{ store with tree }, ?_, steps, folder, given, larger.follow followed, found⟩
  simp only [FolderStore.save, safe, ↓reduceIte, given, bind, Except.bind,
    FileTree.makeFolders_existing followed present, Except.mapError, printable, followed, written]
  rfl

/-- A record with a whole number of too many digits is refused before its file is touched. -/
theorem save_of_unprintable (held : Holds store entries) (safe : isSafe id = true)
    {record : Record} (long : Json.isPrintable (.object record.encode) = false) :
    store.save id record = .error .malformedNumber := by
  obtain ⟨steps, folder, given, followed, present⟩ := held
  simp only [FolderStore.save, safe, ↓reduceIte, given, bind, Except.bind,
    FileTree.makeFolders_existing followed present, Except.mapError, long, Bool.false_eq_true]

/-- Nothing is found where there is no file: the lookup passes over the missing file and answers
that nothing is kept. -/
theorem get_of_absent (held : Holds store entries) (safe : isSafe id = true)
    (absent : entries.lookup (FolderStore.fileName id) = none) :
    (store.get id).Answers (.error (.unknownAnalysis id)) := by
  obtain ⟨steps, folder, given, followed, present⟩ := held
  have missing : store.readFile id = .error (.blocked .missing) := by
    simp only [FolderStore.readFile, given, followed, bind, Except.bind, FileTree.readText,
      FileTree.readBytes, FileTree.lookup_append present, FileTree.lookup, absent]
    rfl
  apply FolderStore.get_of_none safe
  simp only [FolderStore.loadMembers, missing]
  exact Journal.answers_pure none

/-- A text without carriage returns is read as it was written, since only they make a difference
to line breaks. The induction is on the text. -/
theorem unifyBreaks_of_unbroken {text : List Char} (unbroken : Json.Unbroken text) :
    Text.unifyBreaks text = text := by
  induction text with
  | nil => rfl
  | cons c text inductionHypothesis =>
    rw [Json.unbroken_cons] at unbroken
    rw [Text.unifyBreaks, inductionHypothesis unbroken.2]
    · rintro rest rfl
      exact absurd rfl unbroken.1
    · rintro rfl
      exact absurd rfl unbroken.1

/-- The document of a record spells its ordered form, if the record can be written: its bytes are
decoded, its line breaks stay, and it is read back. -/
theorem spells_documentOf {record : Record}
    (writable : Json.isWritable (.object record.encode) = true) :
    FolderStore.Spells (Text.encode (FolderStore.documentOf record).toList)
      (.ok (Json.sorted (.object
        [("version", .int FolderStore.version), ("record", .object record.encode)]))) := by
  have whole : Json.isWritable (.object
      [("version", .int FolderStore.version), ("record", .object record.encode)]) = true := by
    rw [Json.isWritable, Json.membersWritable, Json.membersWritable, Json.membersWritable, writable]
    rfl
  refine ⟨_, Text.decode?_encode _, ?_⟩
  rw [unifyBreaks_of_unbroken]
  · rw [String.ofList_toList]
    exact Json.read_document (Json.isWritable_sorted _ whole)
  · rw [FolderStore.documentOf, Json.document, String.toList_ofList]
    exact Json.unbroken_writeIndented 0 _

/-- The ordered form of a document carries the ordered members of its record, under the version of
the store. -/
theorem carried?_sorted (record : Record) :
    FolderStore.carried? (Json.sorted (.object
        [("version", .int FolderStore.version), ("record", .object record.encode)])) =
      some (Json.arranged record.encode) := by
  have once : ([("version", Json.int FolderStore.version),
      ("record", .object record.encode)].map Prod.fst).Nodup := by
    show ["version", "record"].Nodup
    decide
  have found := Faithful.ordered.found once
  rw [Faithful.ordered.object]
  simp only [FolderStore.carried?, found]
  rfl

/-- A record that can be written is found in its file, with its values of free form in order and
its confidences as they are read back. -/
theorem get_of_present (held : Holds store entries) (safe : isSafe id = true) {record : Record}
    (writable : Json.isWritable (.object record.encode) = true)
    (present : entries.lookup (FolderStore.fileName id) =
      some (.file (Text.encode (FolderStore.documentOf record).toList))) :
    (store.get id).Answers (.ok (record.restored Json.sorted)) := by
  obtain ⟨steps, folder, given, followed, listed⟩ := held
  have kept : store.Keeps id (Text.encode (FolderStore.documentOf record).toList) := by
    refine ⟨steps, folder, given, followed, ?_⟩
    simp only [FileTree.readBytes, FileTree.lookup_append listed, FileTree.lookup, present]
  have loaded := FolderStore.loadMembers_of_value kept (spells_documentOf writable)
  rw [carried?_sorted] at loaded
  have read := FolderStore.get_of_members safe loaded
  rw [Record.decode_arrange Faithful.ordered] at read
  exact read

end Folder

/-- A record with a whole number of too many digits is kept in memory only: the folder refuses
it and stays as it is. -/
theorem steps_of_unprintable {store : FolderStore} {entries : List (String × FileTree)}
    (held : Holds store entries) {id : String} (safe : isSafe id = true) {record : Record}
    (long : Json.isPrintable (.object record.encode) = false) (memory : MemoryStore) :
    stepFolder store (.save id record) = (.refused .malformedNumber, store) ∧
      (stepMemory memory (.save id record)).1 = .saved := by
  refine ⟨?_, rfl⟩
  simp only [stepFolder, save_of_unprintable held safe long]

/-- An identifier that can name no file is refused, and the folder stays as it is. -/
theorem stepFolder_of_rejected (store : FolderStore) {id : String} (rejected : isSafe id = false)
    (record : Record) :
    stepFolder store (.save id record) = (.refused (.unknownAnalysis id), store) ∧
      stepFolder store (.get id) = (.refused (.unknownAnalysis id), store) := by
  constructor
  · simp [stepFolder, FolderStore.save, rejected]
  · rw [stepFolder, FolderStore.get_of_unsafe store rejected []]
    rfl

/-- A record that is saved in the folder and in the ledger keeps them in step. The other files
stay, for distinct identifiers name distinct files. -/
theorem InFolder.save {store : FolderStore} {ledger : Ledger} (same : InFolder store ledger)
    {id : String} (safe : isSafe id = true) {record : Record}
    (writable : Json.isWritable (.object record.encode) = true) :
    ∃ changed, store.save id record = .ok changed ∧ InFolder changed ((id, record) :: ledger) := by
  obtain ⟨entries, held, files⟩ := same.files
  have free : ∀ inner, entries.lookup (FolderStore.fileName id) ≠ some (.folder inner) := by
    intro inner listed
    rw [files id safe] at listed
    cases kept : ledger.lookup id with
    | none => simp [kept] at listed
    | some old => simp [kept] at listed
  obtain ⟨changed, saved, holds⟩ := save_of_holds held safe
    (Json.isPrintable_of_isWritable _ writable) free
  refine ⟨changed, saved, ⟨⟨_, holds, ?_⟩, ?_, ?_⟩⟩
  · intro other accepted
    rw [Entries.lookup_first]
    by_cases equal : other = id
    · rw [Entries.lookup_put, if_pos equal, equal, if_pos rfl]
      rfl
    · rw [Entries.lookup_put, if_neg equal,
        if_neg fun named => equal (fileName_injective named)]
      exact files other accepted
  · intro other found listed
    rw [Entries.lookup_first] at listed
    split at listed
    · cases listed
      exact writable
    · exact same.writable other found listed
  · intro other found listed
    rw [Entries.lookup_first] at listed
    split at listed
    · rename_i equal
      rw [equal]
      exact safe
    · exact same.safe other found listed

/-- A get in the folder is answered as in the ledger, up to the order of members: the file is
there exactly when the ledger has an entry. -/
theorem InFolder.get {store : FolderStore} {ledger : Ledger} (same : InFolder store ledger)
    {id : String} (safe : isSafe id = true) :
    (store.get id).Answers (match ledger.lookup id with
      | some record => .ok (record.restored Json.sorted)
      | none => .error (.unknownAnalysis id)) := by
  obtain ⟨entries, held, files⟩ := same.files
  have file := files id safe
  cases kept : ledger.lookup id with
  | none =>
    rw [kept] at file
    exact get_of_absent held safe file
  | some record =>
    rw [kept] at file
    exact get_of_present held safe (same.writable id record kept) file

/-- One request whose record can be written keeps the folder in step with the ledger and is
answered as the ledger answers it, also for identifiers that name no file. -/
theorem stepFolder_inStep (store : FolderStore) (ledger : Ledger) (operation : Operation)
    (same : InFolder store ledger) (writable : operation.isWritable = true) :
    (stepFolder store operation).1.canonical = (stepLedger ledger operation).1.canonical ∧
      InFolder (stepFolder store operation).2 (stepLedger ledger operation).2 := by
  cases operation with
  | save id record =>
    cases safe : isSafe id with
    | false =>
      rw [(stepFolder_of_rejected store safe record).1]
      simp only [stepLedger, safe, Bool.false_eq_true, ↓reduceIte, true_and]
      exact same
    | true =>
      obtain ⟨changed, saved, next⟩ := same.save safe writable
      simp only [stepFolder, saved, stepLedger, safe, ↓reduceIte, true_and]
      exact next
  | get id =>
    cases safe : isSafe id with
    | false =>
      have nothing : ledger.lookup id = none := by
        cases kept : ledger.lookup id with
        | none => rfl
        | some record =>
          rw [same.safe id record kept] at safe
          cases safe
      rw [stepFolder, FolderStore.get_of_unsafe store safe []]
      simp only [stepLedger, nothing]
      exact ⟨rfl, same⟩
    | true =>
      rw [stepFolder, same.get safe []]
      simp only [stepLedger]
      cases ledger.lookup id with
      | none => exact ⟨rfl, same⟩
      | some record =>
        exact ⟨congrArg Answer.found (Record.restored_agrees Json.sorted_sorted record), same⟩

/-- The two stores are interchangeable.

Over any history of requests whose records can be written, a folder that starts empty
answers as the ledger does. If moreover all identifiers can name files, the records in
memory do so, too, and both stores answer alike. An identifier that can name no file is
refused by the folder, whatever it holds, and leaves it as it is. A record that cannot be
written because of a whole number with too many digits is refused by a folder that exists,
which keeps its files, and is taken by the memory.

Proof: a request keeps the folder, and the records in memory, in step with the ledger;
so does a history, by induction. -/
theorem stores_answer_alike {start : FolderStore} (empty : Holds start [])
    {history : List Operation} (writable : ∀ operation ∈ history, operation.isWritable = true) :
    Agree (answers stepFolder start history) (answers stepLedger [] history) ∧
      ((∀ operation ∈ history, isSafe operation.id = true) →
        Agree (answers stepMemory {} history) (answers stepLedger [] history) ∧
          Agree (answers stepMemory {} history) (answers stepFolder start history)) ∧
      (∀ (store : FolderStore) (id : String) (record : Record), isSafe id = false →
        stepFolder store (.save id record) = (.refused (.unknownAnalysis id), store) ∧
          stepFolder store (.get id) = (.refused (.unknownAnalysis id), store)) ∧
      ∀ (store : FolderStore) (entries : List (String × FileTree)) (memory : MemoryStore)
        (id : String) (record : Record), Holds store entries → isSafe id = true →
        Json.isPrintable (.object record.encode) = false →
        stepFolder store (.save id record) = (.refused .malformedNumber, store) ∧
          (stepMemory memory (.save id record)).1 = .saved := by
  have begins : InFolder start [] := by
    refine ⟨⟨[], empty, fun _ _ => rfl⟩, ?_, ?_⟩
    · intro id record listed
      cases listed
    · intro id record listed
      cases listed
  have folder := agree_of_step stepFolder_inStep begins writable
  refine ⟨folder, ?_, ?_, ?_⟩
  · intro safe
    have fresh : InMemory {} [] := fun _ => rfl
    have memory := agree_of_step stepMemory_inStep fresh safe
    exact ⟨memory, memory.trans folder.symm⟩
  · intro store id record rejected
    exact stepFolder_of_rejected store rejected record
  · intro store entries memory id record held safe long
    exact steps_of_unprintable held safe long memory

/-- A store whose folder is there and empty. -/
def emptyFolder : FolderStore := { tree := .folder [("data", .folder [])], directory := "data" }

/-- A record with a negative zero and a value of free form out of order. -/
def zeroRecord (commit : String) : Record where
  analysisId := "a-1"
  repo := "shop"
  branch := "main"
  commit := commit
  timestamp := "now"
  filesAnalyzed := 2
  screens := [{
    id := "home", name := "Home", path := "/", filePath := "Home.tsx", kind := "page"
    framework := Framework.router, flows := ["f"]
    componentCode := .object [("b", .int 7), ("a", .double (Double.ofDecimal false 1 (-1)))] }]
  flows := [{
    id := "f", kind := Flow.apiCall, name := "load", file := "Home.tsx", line := 3
    code := "fetch(\"/é\")" }]
  framework := { detected := [Framework.router], confidence := .finite true ⟨0, by decide⟩ }

/-- Gets before and after a record is replaced, and under another identifier. -/
def replacingHistory : List Operation :=
  [.get "a-1", .save "a-1" (zeroRecord "c1"), .save "b.2" (zeroRecord "c2"),
    .save "a-1" (zeroRecord "c3"), .get "a-1", .get "b.2", .get "missing"]

/-- The history with the replaced record is answered alike, and an identifier that leads out of
the folder is refused. -/
theorem replacingHistory_is_answered_alike :
    Holds emptyFolder [] ∧
      (∀ operation ∈ replacingHistory, operation.isWritable = true) ∧
      (∀ operation ∈ replacingHistory, isSafe operation.id = true) ∧
      Agree (answers stepMemory {} replacingHistory)
        (answers stepFolder emptyFolder replacingHistory) ∧
      isSafe "../a" = false ∧
      stepFolder emptyFolder (.get "../a") = (.refused (.unknownAnalysis "../a"), emptyFolder) := by
  have empty : Holds emptyFolder [] := ⟨["data"], ["data"], by decide +kernel, rfl, rfl⟩
  have writable : ∀ operation ∈ replacingHistory, operation.isWritable = true := by
    decide +kernel
  have safe : ∀ operation ∈ replacingHistory, isSafe operation.id = true := by
    decide +kernel
  have alike := stores_answer_alike empty writable
  have rejected : isSafe "../a" = false := by decide +kernel
  exact ⟨empty, writable, safe, (alike.2.1 safe).2, rejected,
    (alike.2.2.1 emptyFolder "../a" (zeroRecord "c1") rejected).2⟩

end ScreenAtlas.Store
