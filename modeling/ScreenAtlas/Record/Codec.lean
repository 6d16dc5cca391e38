import ScreenAtlas.Record.Basic
import ScreenAtlas.Record.Field

/-!
# The stored form of records

Each type is written as an object with a fixed order of members and read back
leniently. Writing and reading a value gives the value again.
-/
namespace ScreenAtlas

/-- A list of texts. -/
def Json.ofTexts (texts : List String) : Json := .list (texts.map .text)

/-- A member that is left out when it is null. -/
def Json.unlessNull (name : String) : Json → Members
  | .null => []
  | value => [(name, value)]

/-- The stored form of a screen. -/
def Screen.encode (screen : Screen) : Members :=
  [("id", .text screen.id), ("name", .text screen.name), ("path", .text screen.path),
    ("filePath", .text screen.filePath), ("type", .text screen.kind),
    ("flows", .ofTexts screen.flows), ("navigatesTo", .ofTexts screen.navigatesTo),
    ("framework", .text screen.framework)] ++
  Json.unlessNull "componentCode" screen.componentCode ++
  Json.unlessNull "lastAnalyzedCommit" screen.lastAnalyzedCommit ++
  Json.unlessNull "screenshotStatus" screen.screenshotStatus

/-- Reads a screen. -/
def Screen.decode (members : Members) : Except Fault Screen := do
  let flows ← members.textsOf "flows"
  let navigatesTo ← members.textsOf "navigatesTo"
  return {
    id := members.textOr "id" ""
    name := members.textOr "name" ""
    path := members.textOr "path" "/"
    filePath := members.textOr "filePath" "unknown"
    kind := members.textOr "type" "page"
    framework := members.textOr "framework" ""
    flows
    navigatesTo
    componentCode := members.valueOf "componentCode"
    lastAnalyzedCommit := members.valueOf "lastAnalyzedCommit"
    screenshotStatus := members.valueOf "screenshotStatus" }

/-- The stored form of a flow. -/
def Flow.encode (flow : Flow) : Members :=
  [("id", .text flow.id), ("type", .text flow.kind), ("name", .text flow.name),
    ("file", .text flow.file), ("line", .int flow.line), ("code", .text flow.code),
    ("calls", .ofTexts flow.calls)]

/-- Reads a flow. -/
def Flow.decode (members : Members) : Except Fault Flow := do
  let line ← members.intOf "line"
  let calls ← members.textsOf "calls"
  return {
    id := members.textOr "id" ""
    kind := members.textOr "type" ""
    name := members.textOr "name" ""
    file := members.textOr "file" ""
    line
    code := members.textOr "code" ""
    calls }

/-- The stored form of the frameworks. -/
def Framework.encode (framework : Framework) : Members :=
  [("detected", .ofTexts framework.detected),
    ("primary",
      match framework.primary with
      | some primary => .text primary
      | none => .null),
    ("confidence", .double framework.confidence)]

/-- Reads the frameworks. -/
def Framework.decode (members : Members) : Except Fault Framework := do
  let detected ← members.textsOf "detected"
  let confidence ← members.doubleOf "confidence"
  let primary :=
    match members.valueOf "primary" with
    | .null => none
    | value => some value.asText
  return { detected, primary, confidence }

/-- The form in which a result is printed. -/
def Result.encode (result : Result) : Members :=
  [("analysisId", .text result.analysisId), ("commitSha", .text result.commit),
    ("screens", .list (result.screens.map fun screen => .object screen.encode)),
    ("flows", .list (result.flows.map fun flow => .object flow.encode)),
    ("framework", .object result.framework.encode)]

/-- The stored form of a record. -/
def Record.encode (record : Record) : Members :=
  [("analysisId", .text record.analysisId), ("repo", .text record.repo),
    ("branch", .text record.branch), ("commitSha", .text record.commit),
    ("timestamp", .text record.timestamp), ("filesAnalyzed", .int record.filesAnalyzed),
    ("flowsCount", .int record.flows.length),
    ("screens", .list (record.screens.map fun screen => .object screen.encode)),
    ("flows", .list (record.flows.map fun flow => .object flow.encode)),
    ("framework", .object record.framework.encode)]

/-- Reads a record. Items that are no objects are passed over. -/
def Record.decode (members : Members) : Except Fault Record := do
  let flows ← (← members.objectsOf "flows").mapM Flow.decode
  let screens ← (← members.objectsOf "screens").mapM Screen.decode
  let framework ←
    match members.valueOf "framework" with
    | .object inner => Framework.decode inner
    | _ => .ok {}
  let filesAnalyzed ← members.intOf "filesAnalyzed"
  return {
    analysisId := members.textOr "analysisId" ""
    repo := members.textOr "repo" ""
    branch := members.textOr "branch" ""
    commit := members.textOr "commitSha" ""
    timestamp := members.textOr "timestamp" ""
    filesAnalyzed
    screens
    flows
    framework }

end ScreenAtlas
