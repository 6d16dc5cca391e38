import ScreenAtlas.Analysis.Run
import ScreenAtlas.Proofs.ExtractedScreens
import ScreenAtlas.Proofs.FlowRefinement

/-!
# The flows of a run and the screens they go to

The flows of a run are those of its files, one file after the other. An identifier
holds the file, the line and the mark of its flow and can be read in one way only,
so that over files with distinct paths no two flows share one. A screen is handed
the identifiers of the flows of its file, in the order of the run.
-/
namespace ScreenAtlas

namespace Flow

open ScreenAtlas.Script

/-- What is found out about some screens once the flows of a run are handed to
them: the flows can be told apart, and every screen has those of its file. -/
structure Joined (revision : String) (before after : List Screen) (flows : List Flow) : Prop where
  distinct : (flows.map Flow.id).Nodup
  told : ∀ flow ∈ flows, ∃ mark : Mark, flow.kind = mark.kind ∧ ∀ file line other,
    flow.id = identifier file line (Mark.text other) ↔
      file = flow.file ∧ line = flow.line ∧ other = mark
  owned : ∀ screen ∈ after, ∀ id ∈ screen.flows, ∃ flow ∈ flows,
    flow.id = id ∧ flow.file = screen.filePath ∧ ∀ other ∈ flows, other.id = id → other = flow
  handed : ∀ screen ∈ after, ∀ flow ∈ flows, flow.id ∈ screen.flows ↔ flow.file = screen.filePath
  ordered : ∀ screen ∈ after, screen.flows.Sublist (flows.map Flow.id)
  unchanged : List.Forall₂ (fun screen joined => joined =
    { screen with
      flows := joined.flows
      lastAnalyzedCommit := .text revision
      screenshotStatus := .text "none" }) before after

/-- The identifiers of the flows of one file are a part of those of all flows, in the same order.
-/
theorem idsOf_sublist (file : String) (flows : List Flow) :
    (idsOf file flows).Sublist (flows.map Flow.id) :=
  List.filter_sublist.map Flow.id

/-- An identifier is handed to the screens of a file exactly when some flow of this file has it.
-/
theorem mem_idsOf {file id : String} {flows : List Flow} :
    id ∈ idsOf file flows ↔ ∃ flow ∈ flows, flow.file = file ∧ flow.id = id := by
  simp [idsOf, and_assoc]

/-- Flows with distinct identifiers are handed to screens as described.

Proof: only a flow of the screen's file hands its identifier to the screen, and no
other flow has this identifier. -/
theorem joined_assign (screens : List Screen) {flows : List Flow} (revision : String)
    (distinct : (flows.map Flow.id).Nodup)
    (marked : ∀ flow ∈ flows, ∃ mark : Mark, flow.kind = mark.kind ∧
      flow.id = identifier flow.file flow.line mark.text) :
    Joined revision screens (assign screens flows revision) flows := by
  have same : ∀ flow ∈ flows, ∀ other ∈ flows, other.id = flow.id → other = flow :=
    fun flow member other present equal => List.inj_on_of_nodup_map distinct present member equal
  refine ⟨distinct, ?_, ?_, ?_, ?_, ?_⟩
  · intro flow member
    obtain ⟨mark, kind, id⟩ := marked flow member
    refine ⟨mark, kind, fun file line other => ?_⟩
    rw [id]
    constructor
    · intro equal
      obtain ⟨rfl, rfl, rfl⟩ := identifier_injective equal
      exact ⟨rfl, rfl, rfl⟩
    · rintro ⟨rfl, rfl, rfl⟩
      rfl
  · intro screen member id listed
    obtain ⟨origin, _, rfl⟩ := List.mem_map.mp member
    obtain ⟨flow, present, file, rfl⟩ := mem_idsOf.mp listed
    exact ⟨flow, present, rfl, file, same flow present⟩
  · intro screen member flow present
    obtain ⟨origin, _, rfl⟩ := List.mem_map.mp member
    constructor
    · intro listed
      obtain ⟨other, found, file, equal⟩ := mem_idsOf.mp listed
      rwa [same flow present other found equal] at file
    · intro file
      exact mem_idsOf.mpr ⟨flow, present, file, rfl⟩
  · intro screen member
    obtain ⟨origin, _, rfl⟩ := List.mem_map.mp member
    exact idsOf_sublist origin.filePath flows
  · exact List.forall₂_map_right_iff.mpr (List.forall₂_same.mpr fun _ _ => rfl)

end Flow

namespace Analysis

open ScreenAtlas.Repository ScreenAtlas.Flow

/-- The flows of a run have identifiers that are made of their files, lines and marks, since every
one of them is a flow of some file. -/
theorem exists_mark_of_mem_flowsOf {reading : Script.Reading} {sources : List SourceFile}
    {flow : Flow} (member : flow ∈ flowsOf reading sources) :
    ∃ mark : Mark, flow.kind = mark.kind ∧
      flow.id = Flow.identifier flow.file flow.line mark.text := by
  obtain ⟨file, _, found⟩ := List.mem_flatMap.mp member
  obtain ⟨mark, stands, kind, id⟩ := exists_mark_of_mem_ofFile found
  exact ⟨mark, kind, stands ▸ id⟩

/-- Over files with distinct paths the identifiers of a run are distinct.

Proof: they are distinct in every file, and flows of different files have
identifiers that read differently. -/
theorem nodup_flowsOf (reading : Script.Reading) {sources : List SourceFile}
    (apart : (sources.map SourceFile.path).Nodup) :
    ((flowsOf reading sources).map Flow.id).Nodup := by
  rw [flowsOf, List.map_flatMap, List.nodup_flatMap]
  refine ⟨fun file _ => (listed_ofFile reading file.path file.content).distinct, ?_⟩
  refine (List.pairwise_map.mp apart).imp ?_
  intro left right different id first second
  obtain ⟨flow, member, rfl⟩ := List.mem_map.mp first
  obtain ⟨other, present, equal⟩ := List.mem_map.mp second
  obtain ⟨mark, _, _, id⟩ := exists_mark_of_mem_ofFile member
  obtain ⟨sign, _, _, same⟩ := exists_mark_of_mem_ofFile present
  exact different (identifier_injective (id.symm.trans (equal.symm.trans same))).1

/-- The files at some paths, without those that cannot be read. -/
def readable (read : String → Except Fault String) (paths : List String) : List SourceFile :=
  paths.filterMap fun path => (read path).toOption.map (SourceFile.mk path)

/-- Reading files that ends well ends with those that can be read, in the order of their paths.
The induction is on the paths. -/
theorem eq_readable_of_ends {read : String → Except Fault String} {every : Int}
    {total count : Nat} {paths : List String} {files : List SourceFile}
    (ended : (fetchFrom read every total count paths).Ends files) :
    files = readable read paths := by
  induction paths generalizing count files with
  | nil => exact (Journal.Ends.eq_of_pure ended).symm
  | cons path rest inductionHypothesis =>
    unfold fetchFrom at ended
    split at ended
    · next content found =>
      -- Progress may be noted before the rest is read.
      have later : (do
          let others ← fetchFrom read every total (count + 1) rest
          pure (SourceFile.mk path content :: others) : Journal (List SourceFile)).Ends files := by
        dsimp only at ended
        split at ended
        · obtain ⟨_, _, noted⟩ := ended.of_bind
          exact noted
        · exact ended
      obtain ⟨others, fetched, given⟩ := later.of_bind
      rw [← given.eq_of_pure, inductionHypothesis fetched]
      simp [readable, found, Except.toOption]
    · next found =>
      obtain ⟨_, _, fetched⟩ := ended.of_bind
      rw [inductionHypothesis fetched]
      simp [readable, found, Except.toOption]
    · next fault _ _ => cases (Journal.answers_throw fault).eq_of_ends ended

/-- An extraction of screens that ends well after some notes answers the same whatever was noted
before, as it is either interrupted or not. -/
theorem answers_of_ends_extractScreens {reading : Script.Reading} {files : List SourceFile}
    {settings : Settings} {hints : Option Framework} {extraction : Extraction}
    (ended : (extractScreens reading files settings hints).Ends extraction) :
    (extractScreens reading files settings hints).Answers (.ok extraction) := by
  by_cases interrupted : Extraction.Interrupted reading files settings hints
  · cases (Extraction.extractScreens_fault interrupted).eq_of_ends ended
  · obtain ⟨framework, screens, guided, decided⟩ :=
      Extraction.exists_guided_decided interrupted
    have answered := Extraction.extractScreens_answers guided decided
    rwa [answered.eq_of_ends ended] at answered

/-- The files of an analysis whose flows are looked for: all but the manifest. -/
def sourcesOf (files : List SourceFile) : List SourceFile :=
  files.filter fun file => file.path != Manifest.path

/-- A run that ends well has read the revision and the listing, extracted screens from the files
that could be read, searched all of these but the manifest for flows, and handed the flows to the
screens. -/
theorem exists_of_ends_run {σ : Type} {reading : Script.Reading} {provider : Provider}
    {settings : Settings} {subject : Subject} {stamp : Stamp} {keep : Record → Except Fault σ}
    {result : Result} {kept : σ}
    (ended : (run reading provider settings subject stamp keep).Ends (result, kept)) :
    ∃ revision listing extraction, provider.revision = .ok revision ∧
      provider.listing = .ok listing ∧
      (extractScreens reading (readable provider.read (selectPaths settings listing)) settings
        none).Answers (.ok extraction) ∧
      result.flows = flowsOf reading
        (sourcesOf (readable provider.read (selectPaths settings listing))) ∧
      result.screens = assign extraction.screens result.flows revision := by
  obtain ⟨record, observed, ended⟩ := ended.of_bind
  obtain ⟨_, _, ended⟩ := ended.of_bind
  obtain ⟨_, _, ended⟩ := ended.of_bind
  obtain ⟨rfl, rfl⟩ := Prod.mk.inj ended.eq_of_pure
  obtain ⟨_, _, observed⟩ := observed.of_bind
  obtain ⟨revision, revised, observed⟩ := observed.of_bind
  obtain ⟨listing, listed, observed⟩ := observed.of_bind
  obtain ⟨files, fetched, observed⟩ := observed.of_bind
  obtain rfl := eq_readable_of_ends fetched
  obtain ⟨findings, surveyed, observed⟩ := observed.of_bind
  obtain rfl := observed.eq_of_pure
  obtain ⟨extraction, extracted, surveyed⟩ := surveyed.of_bind
  obtain rfl := surveyed.eq_of_pure
  exact ⟨revision, listing, extraction, revised.of_liftExcept, listed.of_liftExcept,
    answers_of_ends_extractScreens extracted, rfl, rfl⟩

/-- The flows of every run over files with distinct paths can be told apart by their
identifiers, and the screens of the run are the extracted ones with the flows of
their files.

Proof: a run that ends well has extracted screens and searched the files that could
be read. Identifiers are distinct within a file, and those of different files start
with different paths, since the last colons of an identifier tell where its path
ends. -/
theorem run_hands_flows_to_screens {σ : Type} (reading : Script.Reading) (provider : Provider)
    (settings : Settings) (subject : Subject) (stamp : Stamp) (keep : Record → Except Fault σ)
    (result : Result) (kept : σ)
    (ended : (run reading provider settings subject stamp keep).Ends (result, kept)) :
    ∃ revision listing extraction, provider.revision = .ok revision ∧
      provider.listing = .ok listing ∧
      (extractScreens reading (readable provider.read (selectPaths settings listing)) settings
        none).Answers (.ok extraction) ∧
      result.flows = flowsOf reading
        (sourcesOf (readable provider.read (selectPaths settings listing))) ∧
      (((sourcesOf (readable provider.read (selectPaths settings listing))).map
          SourceFile.path).Nodup →
        Joined revision extraction.screens result.screens result.flows) := by
  obtain ⟨revision, listing, extraction, revised, listed, extracted, flows, screens⟩ :=
    exists_of_ends_run ended
  refine ⟨revision, listing, extraction, revised, listed, extracted, flows, ?_⟩
  intro apart
  rw [screens]
  apply joined_assign
  · rw [flows]
    exact nodup_flowsOf reading apart
  · intro flow member
    rw [flows] at member
    exact exists_mark_of_mem_flowsOf member

/-- A page and another file that handle the same event on the same line. The path of
the other file starts like the identifier of the page's event. -/
def sampleProvider : Provider :=
  { revision := .ok "r1"
    listing := .ok ["app/page.tsx", "app/page.tsx:1:event.ts"]
    read := fun _ => .ok "<b onClick=\x7bgo\x7d />" }

/-- The run over the page and the other file, which keeps nothing. -/
def sampleRun : Journal (Result × Unit) :=
  run (fun _ _ => none) sampleProvider {} ⟨"repo", "main"⟩ ⟨"id", "now"⟩ fun _ => .ok ()

/-- The run has two flows, and the screen of the page is handed the one of its own file, although
both identifiers start alike. -/
theorem sampleRun_hands_flows_to_screens :
    ∃ result, sampleRun.Ends (result, ()) ∧
      result.flows.map Flow.id =
        ["app/page.tsx:1:event:onClick", "app/page.tsx:1:event.ts:1:event:onClick"] ∧
      result.screens.map Screen.flows = [["app/page.tsx:1:event:onClick"]] ∧
      ∃ revision screens, Joined revision screens result.screens result.flows := by
  have found : (sampleRun.outcome.1.toOption.map fun (result, _) =>
      (result.flows.map Flow.id, result.screens.map Screen.flows)) =
      some (["app/page.tsx:1:event:onClick", "app/page.tsx:1:event.ts:1:event:onClick"],
        [["app/page.tsx:1:event:onClick"]]) := by
    decide +kernel
  rcases shown : sampleRun.outcome.1 with fault | ⟨result, _⟩
  · simp [shown, Except.toOption] at found
  · simp only [shown, Except.toOption, Option.map_some, Option.some.injEq, Prod.mk.injEq] at found
    have ended : sampleRun.Ends (result, ()) := ⟨[], shown⟩
    obtain ⟨revision, listing, extraction, _, listed, _, _, joined⟩ :=
      run_hands_flows_to_screens _ _ _ _ _ _ _ _ ended
    obtain rfl := Except.ok.inj listed
    exact ⟨result, ended, found.1, found.2, revision, extraction.screens,
      joined (by decide +kernel)⟩

end Analysis

end ScreenAtlas
