import ScreenAtlas.Analysis.Selection
import ScreenAtlas.Analysis.Stamp
import ScreenAtlas.Flow.Analysis
import ScreenAtlas.Record.Basic
import ScreenAtlas.Repository.Provider
import ScreenAtlas.Screen.Extraction

/-!
# Running an analysis

An analysis asks a provider for a revision and for files, finds the flows and the
screens in them, keeps a record, and answers with the result. A file that cannot be
retrieved is passed over with a warning and changes nothing about the others.
-/
namespace ScreenAtlas.Analysis

open ScreenAtlas.Repository

/-- What is analyzed, as the user names it. -/
structure Subject where
  repo : String
  branch : String

/-- What an analysis finds in the files of a repository. -/
structure Findings where
  filesAnalyzed : Nat
  screens : List Screen
  flows : List Flow
  framework : Framework

/-- Progress is noted after this many files. -/
def marksProgress (every : Int) (count : Nat) : Bool := every != 0 && (count : Int) % every == 0

/-- Reads files one after the other; `total` are to be read, and `count` is the number
of the first of these. -/
def fetchFrom (read : String → Except Fault String) (every : Int) (total count : Nat) :
    List String → Journal (List SourceFile)
  | [] => return []
  | path :: rest => do
    match read path with
    | .ok content =>
      if marksProgress every count then
        Journal.inform ("Scanned " ++ toString count ++ "/" ++ toString total ++ " files")
      let others ← fetchFrom read every total (count + 1) rest
      return { path, content } :: others
    | .error (.retrieval _ cause) =>
      Journal.warn ("Skipping " ++ path) (some cause.reason)
      fetchFrom read every total (count + 1) rest
    | .error fault => throw fault

/-- The files at some paths that can be read. -/
def fetch (read : String → Except Fault String) (every : Int) (paths : List String) :
    Journal (List SourceFile) :=
  fetchFrom read every paths.length 1 paths

/-- The flows of all files but the manifest. -/
def flowsOf (reading : Script.Reading) (sources : List SourceFile) : List Flow :=
  sources.flatMap fun file => Flow.ofFile reading file.path file.content

/-- What is found in the files of a revision. -/
def survey (reading : Script.Reading) (settings : Settings) (revision : String)
    (files : List SourceFile) : Journal Findings := do
  let sources := files.filter fun file => file.path != Manifest.path
  let flows := flowsOf reading sources
  let extraction ← extractScreens reading files settings none
  return {
    filesAnalyzed := sources.length
    screens := Flow.assign extraction.screens flows revision
    flows
    framework := extraction.framework }

/-- The record of an analysis. -/
def recordOf (subject : Subject) (stamp : Stamp) (revision : String) (findings : Findings) :
    Record :=
  { analysisId := stamp.id
    repo := subject.repo
    branch := subject.branch
    commit := revision
    timestamp := stamp.time
    filesAnalyzed := findings.filesAnalyzed
    screens := findings.screens
    flows := findings.flows
    framework := findings.framework }

/-- The result that goes with a record. -/
def resultOf (record : Record) : Result :=
  { analysisId := record.analysisId
    commit := record.commit
    screens := record.screens
    flows := record.flows
    framework := record.framework }

/-- Analyzes a repository up to the record. -/
def observe (reading : Script.Reading) (provider : Provider) (settings : Settings)
    (subject : Subject) (stamp : Stamp) : Journal Record := do
  Journal.inform ("Starting analysis of " ++ subject.repo ++ " (" ++ subject.branch ++ ")")
  let revision ← liftExcept provider.revision
  let listing ← liftExcept provider.listing
  let files ← fetch provider.read settings.progressEvery (selectPaths settings listing)
  let findings ← survey reading settings revision files
  return recordOf subject stamp revision findings

/-- Says what an analysis found. -/
def conclude (record : Record) : Journal Unit :=
  Journal.inform ("Analysis " ++ record.analysisId ++ " complete: " ++
    toString record.filesAnalyzed ++ " files, " ++ toString record.screens.length ++
    " screens, " ++ toString record.flows.length ++ " flows")

/-- Analyzes a repository and keeps the record. The outcome is the result and what
keeping the record gives back. -/
def run {σ : Type} (reading : Script.Reading) (provider : Provider) (settings : Settings)
    (subject : Subject) (stamp : Stamp) (keep : Record → Except Fault σ) :
    Journal (Result × σ) := do
  let record ← observe reading provider settings subject stamp
  let kept ← liftExcept (keep record)
  conclude record
  return (resultOf record, kept)

end ScreenAtlas.Analysis
