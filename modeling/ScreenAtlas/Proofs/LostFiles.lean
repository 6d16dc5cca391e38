import ScreenAtlas.Proofs.FileSelection
import ScreenAtlas.Proofs.RunFlows

/-!
# A lost file changes nothing about the others

A file that cannot be retrieved is passed over. Two runs are compared: one in which some
of the selected files are lost, and one over a provider that lists only the other
selected files and loses none of them. Both find the same. What they note on the way
differs, but notes decide nothing; a run depends on the revision and on the files that
were fetched, and these are the same, because selecting from what is left of a selection
changes nothing.

The runs may end with a fault, when reading a file ends with another fault than that of
a retrieval or when the manifest is refused. Then both end with the same fault.
-/
namespace ScreenAtlas.Analysis

open ScreenAtlas.Repository

/-! ## Fetching files -/

/-- The file at a path cannot be retrieved. -/
def isLost (read : String → Except Fault String) (path : String) : Bool :=
  match read path with
  | .error (.retrieval _ _) => true
  | _ => false

/-- The files at some paths without the lost ones, or the first other fault. -/
def fetched (read : String → Except Fault String) : List String → Except Fault (List SourceFile)
  | [] => .ok []
  | path :: rest =>
    if isLost read path then fetched read rest
    else do
      let content ← read path
      let others ← fetched read rest
      return ⟨path, content⟩ :: others

section Fetching

variable {read other : String → Except Fault String}

/-- Fetching files answers with the readable ones or the first other fault, whatever is noted on
the way. The induction carries the count of files, which only the notes use. -/
theorem answers_fetchFrom (read : String → Except Fault String) (every : Int)
    (total count : Nat) (paths : List String) :
    (fetchFrom read every total count paths).Answers (fetched read paths) := by
  induction paths generalizing count with
  | nil => exact Journal.answers_pure []
  | cons path rest inductionHypothesis =>
    have behind := inductionHypothesis (count + 1)
    unfold fetchFrom
    split
    · next content found =>
      have kept : isLost read path = false := by simp [isLost, found]
      have others : (do
          let others ← fetchFrom read every total (count + 1) rest
          pure (SourceFile.mk path content :: others) : Journal (List SourceFile)).Answers
            (fetched read (path :: rest)) := by
        simp only [fetched, kept, Bool.false_eq_true, ↓reduceIte, found, bind, Except.bind]
        cases files : fetched read rest with
        | ok files => exact Journal.Answers.bind (files ▸ behind) (Journal.answers_pure _)
        | error fault => exact Journal.Answers.bind_error (files ▸ behind) _
      dsimp only
      split
      · exact (Journal.answers_leave _).bind others
      · exact others
    · next found =>
      have lost : isLost read path = true := by simp [isLost, found]
      simp only [fetched, lost, ↓reduceIte]
      exact (Journal.answers_leave _).bind behind
    · next fault another found =>
      have kept : isLost read path = false := by
        unfold isLost
        split
        · next same => exact absurd (Except.error.inj (found.symm.trans same)) (another _ _)
        · rfl
      simp only [fetched, kept, Bool.false_eq_true, ↓reduceIte, found]
      exact Journal.answers_throw fault

/-- Lost files can be left out before fetching, since they are passed over anyway. The induction
is on the paths. -/
theorem fetched_filter (paths : List String) :
    fetched read (paths.filter fun path => !isLost read path) = fetched read paths := by
  induction paths with
  | nil => rfl
  | cons path rest inductionHypothesis =>
    cases lost : isLost read path with
    | true =>
      rw [List.filter_cons_of_neg (by simp [lost]), inductionHypothesis]
      simp [fetched, lost]
    | false =>
      rw [List.filter_cons_of_pos (by simp [lost])]
      simp only [fetched, inductionHypothesis]

/-- Only what is read at the given paths counts for what is fetched, so that two ways of reading
may differ elsewhere. -/
theorem fetched_congr {paths : List String} (same : ∀ path ∈ paths, read path = other path) :
    fetched read paths = fetched other paths := by
  induction paths with
  | nil => rfl
  | cons path rest inductionHypothesis =>
    have behind := inductionHypothesis fun later member =>
      same later (List.mem_cons_of_mem path member)
    have lost : isLost read path = isLost other path := by
      rw [isLost, isLost, same path List.mem_cons_self]
    simp only [fetched, lost, behind, same path List.mem_cons_self]

/-- When all files but the lost ones can be read, these are fetched in the order of their paths,
and there is no fault. -/
theorem fetched_eq_readable {paths : List String}
    (each : ∀ path ∈ paths, isLost read path = true ∨ ∃ content, read path = .ok content) :
    fetched read paths = .ok (readable read paths) := by
  induction paths with
  | nil => rfl
  | cons path rest inductionHypothesis =>
    have behind := inductionHypothesis fun later member =>
      each later (List.mem_cons_of_mem path member)
    rw [fetched, behind]
    simp only [readable, List.filterMap_cons]
    rcases each path List.mem_cons_self with lost | ⟨content, found⟩
    · have nothing : (read path).toOption = none := by
        unfold isLost at lost
        split at lost
        · next found => rw [found]; rfl
        · cases lost
      simp only [lost, ↓reduceIte, nothing, Option.map_none]
    · have kept : isLost read path = false := by simp [isLost, found]
      simp only [kept, found]
      rfl

end Fetching

/-! ## What a run depends on -/

/-- The files that a run fetches: those of the selected paths. -/
def filesOf (settings : Settings) (provider : Provider) : Except Fault (List SourceFile) := do
  fetched provider.read (selectPaths settings (← provider.listing))

/-- The outcome of a run that finds something under a revision, or ends with a fault. -/
def outcomeOf {σ : Type} (found : Except Fault (String × Findings)) (subject : Subject)
    (stamp : Stamp) (keep : Record → Except Fault σ) : Except Fault (Result × σ) := do
  let (revision, findings) ← found
  let record := recordOf subject stamp revision findings
  return (resultOf record, ← keep record)

/-- Whatever the run is called and wherever its record is kept, it finds the given. -/
def Finds (reading : Script.Reading) (settings : Settings) (provider : Provider)
    (found : Except Fault (String × Findings)) : Prop :=
  ∀ (σ : Type) subject stamp (keep : Record → Except Fault σ),
    (run reading provider settings subject stamp keep).Answers (outcomeOf found subject stamp keep)

section Runs

variable {reading : Script.Reading} {settings : Settings} {provider : Provider}

/-- A run ends as its observation does, or with the record that it keeps. So it is enough to know
what is observed. -/
theorem finds_of_observe {found : Except Fault (String × Findings)}
    (observed : ∀ subject stamp, (observe reading provider settings subject stamp).Answers
      (found.map fun (revision, findings) => recordOf subject stamp revision findings)) :
    Finds reading settings provider found := by
  intro σ subject stamp keep
  have record := observed subject stamp
  cases found with
  | error fault => exact record.bind_error _
  | ok pair =>
    refine record.bind ?_
    simp only [outcomeOf, bind, Except.bind]
    cases kept : keep (recordOf subject stamp pair.1 pair.2) with
    | error fault => exact Journal.Answers.bind_error (Journal.answers_liftExcept _) _
    | ok value =>
      exact (Journal.answers_liftExcept _).bind
        ((Journal.answers_leave _).bind (Journal.answers_pure _))

/-- A survey of files always has an answer, and it finds something unless the extraction is
interrupted by a refused manifest. -/
theorem exists_answers_survey (reading : Script.Reading) (settings : Settings) (revision : String)
    (files : List SourceFile) :
    ∃ answer, (survey reading settings revision files).Answers answer ∧
      (¬ Extraction.Interrupted reading files settings none →
        ∃ findings, answer = .ok findings ∧
          findings.filesAnalyzed = (sourcesOf files).length) := by
  by_cases interrupted : Extraction.Interrupted reading files settings none
  · exact ⟨.error .malformedNumber,
      (Extraction.extractScreens_fault interrupted).bind_error _, fun never =>
        absurd interrupted never⟩
  · obtain ⟨framework, screens, guided, decided⟩ := Extraction.exists_guided_decided interrupted
    have extracted := Extraction.extractScreens_answers guided decided
    exact ⟨_, extracted.bind (Journal.answers_pure _), fun _ => ⟨_, rfl, rfl⟩⟩

/-- An attempt whose result is known answers with it as a part of a run. -/
theorem answers_attempt {α : Type} {attempt answer : Except Fault α} (known : attempt = answer) :
    (liftExcept attempt : Journal α).Answers answer :=
  known ▸ Journal.answers_liftExcept attempt

/-- An observation that surveys files answers with the record of its findings, or with the fault
of the survey, if there are a revision and files. -/
theorem answers_observe {revision : String} {files : List SourceFile}
    {answer : Except Fault Findings} (revised : provider.revision = .ok revision)
    (given : filesOf settings provider = .ok files)
    (surveyed : (survey reading settings revision files).Answers answer)
    (subject : Subject) (stamp : Stamp) :
    (observe reading provider settings subject stamp).Answers
      (answer.map fun findings => recordOf subject stamp revision findings) := by
  unfold filesOf at given
  cases listed : provider.listing with
  | error fault => simp [listed, bind, Except.bind] at given
  | ok listing =>
    have fetching := answers_fetchFrom provider.read settings.progressEvery
      (selectPaths settings listing).length 1 (selectPaths settings listing)
    simp only [listed, bind, Except.bind] at given
    rw [given] at fetching
    refine (Journal.answers_leave _).bind (Journal.Answers.bind (answers_attempt revised) ?_)
    refine Journal.Answers.bind (answers_attempt listed) (Journal.Answers.bind fetching ?_)
    cases answer with
    | error fault => exact surveyed.bind_error _
    | ok findings => exact surveyed.bind (Journal.answers_pure _)

/-- An observation without a revision, or with one but without files, ends with the fault that is
in the way. -/
theorem answers_observe_fault {fault : Fault}
    (failed : provider.revision = .error fault ∨
      (∃ revision, provider.revision = .ok revision) ∧ filesOf settings provider = .error fault)
    (subject : Subject) (stamp : Stamp) :
    (observe reading provider settings subject stamp).Answers (.error fault) := by
  refine (Journal.answers_leave _).bind ?_
  rcases failed with unrevised | ⟨⟨revision, revised⟩, unfetched⟩
  · exact Journal.Answers.bind_error (answers_attempt unrevised) _
  · refine Journal.Answers.bind (answers_attempt revised) ?_
    unfold filesOf at unfetched
    cases listed : provider.listing with
    | error cause =>
      obtain rfl : cause = fault := by simpa [listed, bind, Except.bind] using unfetched
      exact Journal.Answers.bind_error (answers_attempt rfl) _
    | ok listing =>
      have fetching := answers_fetchFrom provider.read settings.progressEvery
        (selectPaths settings listing).length 1 (selectPaths settings listing)
      simp only [listed, bind, Except.bind] at unfetched
      rw [unfetched] at fetching
      exact Journal.Answers.bind (answers_attempt rfl) (Journal.Answers.bind_error fetching _)

/-- All providers with the same revision and the same files find the same, and something
unless the extraction is interrupted. -/
theorem exists_finds (reading : Script.Reading) (settings : Settings)
    (revision : Except Fault String) (files : Except Fault (List SourceFile)) :
    ∃ found, (∀ provider : Provider, provider.revision = revision →
        filesOf settings provider = files → Finds reading settings provider found) ∧
      ∀ name given, revision = .ok name → files = .ok given →
        ¬ Extraction.Interrupted reading given settings none →
          ∃ findings, found = .ok (name, findings) ∧
            findings.filesAnalyzed = (sourcesOf given).length := by
  cases revision with
  | error fault =>
    refine ⟨.error fault, ?_, fun _ _ never => nomatch never⟩
    intro provider unrevised _
    exact finds_of_observe (answers_observe_fault (.inl unrevised))
  | ok name =>
    cases files with
    | error fault =>
      refine ⟨.error fault, ?_, fun _ _ _ never => nomatch never⟩
      intro provider revised unfetched
      exact finds_of_observe (answers_observe_fault (.inr ⟨⟨name, revised⟩, unfetched⟩))
    | ok given =>
      obtain ⟨answer, surveyed, complete⟩ := exists_answers_survey reading settings name given
      refine ⟨answer.map (name, ·), ?_, ?_⟩
      · intro provider revised fetched
        apply finds_of_observe
        intro subject stamp
        have observed := answers_observe revised fetched surveyed subject stamp
        cases answer <;> exact observed
      · rintro _ _ ⟨⟩ ⟨⟩ uninterrupted
        obtain ⟨findings, rfl, counted⟩ := complete uninterrupted
        exact ⟨findings, rfl, counted⟩

end Runs

/-! ## Two runs -/

/-- A provider that lists what is selected of another one's files and not lost there,
and reads the files as the other one does. -/
structure Spares (settings : Settings) (provider spared : Provider) : Prop where
  revision : spared.revision = provider.revision
  listing : spared.listing = provider.listing.map fun paths =>
    (selectPaths settings paths).filter fun path => !isLost provider.read path
  read : ∀ path, isLost provider.read path = false → spared.read path = provider.read path

namespace Spares

variable {settings : Settings} {provider spared : Provider}

/-- A provider that spares lost files loses nothing that it lists, as it reads these files like
the other provider. -/
theorem isLost_eq_false (spares : Spares settings provider spared) {paths : List String}
    (listed : spared.listing = .ok paths) {path : String} (member : path ∈ paths) :
    isLost spared.read path = false := by
  rw [spares.listing] at listed
  cases whole : provider.listing with
  | error fault => simp [whole, Except.map] at listed
  | ok listing =>
    simp only [whole, Except.map, Except.ok.injEq] at listed
    rw [← listed] at member
    have kept : isLost provider.read path = false := by simpa using (List.mem_filter.mp member).2
    rw [isLost, spares.read path kept]
    exact kept

/-- A provider that spares the lost files gives the same files as the one that loses them.

Proof: what it lists is a selection already, so that all of it is selected; and lost files can be
left out. -/
theorem filesOf_eq (spares : Spares settings provider spared) (capped : 0 ≤ settings.fileLimit) :
    filesOf settings spared = filesOf settings provider := by
  unfold filesOf
  rw [spares.listing]
  cases provider.listing with
  | error fault => rfl
  | ok listing =>
    have selected := (selected_selectPaths capped listing).filter fun path =>
      !isLost provider.read path
    simp only [Except.map, bind, Except.bind]
    rw [selected.selectPaths_eq_self capped, ← fetched_filter (selectPaths settings listing)]
    apply fetched_congr
    intro path member
    exact spares.read path (by simpa using (List.mem_filter.mp member).2)

end Spares

/-- Lost files change nothing about the others.

A run in which some files cannot be retrieved, the manifest included, ends exactly as a
run over a provider that lists only the selected files that can be: with the same
screens, flows, frameworks and number of files under the same revision, or with the same
fault. No file beyond the limit takes the place of a lost one. When the other files can
be read and the extraction is not interrupted, the runs do find something. -/
theorem lost_files_change_nothing (reading : Script.Reading) {settings : Settings}
    (capped : 0 ≤ settings.fileLimit) {provider spared : Provider}
    (spares : Spares settings provider spared) :
    (∀ paths, spared.listing = .ok paths → ∀ path ∈ paths, isLost spared.read path = false) ∧
    ∃ found : Except Fault (String × Findings),
      Finds reading settings provider found ∧ Finds reading settings spared found ∧
      ∀ revision listing, provider.revision = .ok revision → provider.listing = .ok listing →
        (∀ path ∈ selectPaths settings listing, isLost provider.read path = true ∨
          ∃ content, provider.read path = .ok content) →
        ¬ Extraction.Interrupted reading (readable provider.read (selectPaths settings listing))
          settings none →
        ∃ findings, found = .ok (revision, findings) ∧ findings.filesAnalyzed =
          (sourcesOf (readable provider.read (selectPaths settings listing))).length := by
  constructor
  · intro paths listed path member
    exact spares.isLost_eq_false listed member
  · obtain ⟨found, finds, complete⟩ :=
      exists_finds reading settings provider.revision (filesOf settings provider)
    refine ⟨found, finds provider rfl rfl,
      finds spared spares.revision (spares.filesOf_eq capped), ?_⟩
    intro revision listing revised listed each uninterrupted
    apply complete revision _ revised _ uninterrupted
    simp only [filesOf, listed, bind, Except.bind]
    exact fetched_eq_readable each

/-- Settings with a limit of three files. -/
def threeFiles : Settings := { fileLimit := 3 }

/-- A provider of five files that loses the manifest and another file. -/
def losingProvider : Provider :=
  { revision := .ok "r1"
    listing := .ok ["lib.ts", "package.json", "app/page.tsx", "util.ts", "late.ts"]
    read := fun path =>
      if path == "package.json" || path == "lib.ts" then
        .error (.retrieval (.ofString path) .escapesRoot)
      else .ok "<b onClick=\x7bgo\x7d />" }

/-- The provider that is left with two of them. -/
def sparedProvider : Provider := { losingProvider with listing := .ok ["app/page.tsx", "util.ts"] }

/-- Both runs over the sample find two files; the file behind the limit stays there, although two
files before it are lost. -/
theorem losingProvider_loses_two :
    0 ≤ threeFiles.fileLimit ∧ Spares threeFiles losingProvider sparedProvider ∧
      ∃ findings, findings.filesAnalyzed = 2 ∧
        Finds (fun _ _ => none) threeFiles losingProvider (.ok ("r1", findings)) ∧
        Finds (fun _ _ => none) threeFiles sparedProvider (.ok ("r1", findings)) := by
  have capped : 0 ≤ threeFiles.fileLimit := by decide
  have selected : selectPaths threeFiles
      ["lib.ts", "package.json", "app/page.tsx", "util.ts", "late.ts"] =
        ["package.json", "lib.ts", "app/page.tsx", "util.ts"] := by
    decide +kernel
  have spares : Spares threeFiles losingProvider sparedProvider := by
    refine ⟨rfl, ?_, fun _ _ => rfl⟩
    refine congrArg Except.ok ?_
    beta_reduce
    rw [selected]
    rfl
  obtain ⟨_, found, first, second, complete⟩ :=
    lost_files_change_nothing (fun _ _ => none) capped spares
  have files : readable losingProvider.read ["package.json", "lib.ts", "app/page.tsx", "util.ts"] =
      [⟨"app/page.tsx", "<b onClick=\x7bgo\x7d />"⟩, ⟨"util.ts", "<b onClick=\x7bgo\x7d />"⟩] :=
    rfl
  have each : ∀ path ∈ ["package.json", "lib.ts", "app/page.tsx", "util.ts"],
      isLost losingProvider.read path = true ∨
        ∃ content, losingProvider.read path = .ok content := by
    simp [isLost, losingProvider]
  have whole := complete "r1" _ rfl rfl
  rw [selected, files] at whole
  obtain ⟨findings, rfl, counted⟩ := whole each (by
    rintro ⟨⟨file, manifest, _⟩, _⟩
    cases manifest)
  exact ⟨capped, spares, findings, counted, first, second⟩

end ScreenAtlas.Analysis
