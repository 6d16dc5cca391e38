import ScreenAtlas.Proofs.LegibleRecords
import ScreenAtlas.Proofs.OrderedMembers

/-!
# Reading back stored records

A record is stored as an object, in memory as it is and in a document with the members
of every object in order. Both are faithful: under every name of an object the stored
form has the stored form of the value. So both are read back as the record, whose
values of free form are stored, too, and whose confidence has lost the sign of zero.
-/
namespace ScreenAtlas

/-- A faithful way to store values: scalars and texts stay what they are, lists are stored
item by item, and an object with distinct names is stored name by name. -/
structure Faithful (change : Json → Json) (arrange : Members → Members) : Prop where
  null : change .null = .null
  int (value : Int) : change (.int value) = .int value
  double (value : Double) : change (.double value) = .double value
  text (value : String) : change (.text value) = .text value
  list (items : List Json) : change (.list items) = .list (items.map change)
  object (members : Members) : change (.object members) = .object (arrange members)
  found {members : Members} (once : (members.map Prod.fst).Nodup) (name : String) :
    Members.get? (arrange members) name = (Members.get? members name).map change

namespace Faithful

/-- Storing values as they are is faithful, and so is keeping the members of an object where they
stand. -/
theorem plain : Faithful id id where
  null := rfl
  int _ := rfl
  double _ := rfl
  text _ := rfl
  list items := by rw [List.map_id]; rfl
  object _ := rfl
  found _ _ := by rw [Option.map_id]; rfl

/-- Storing values with the members of every object in order is faithful, because sorting moves
members and keeps each value under its name. -/
theorem ordered : Faithful Json.sorted Json.arranged where
  null := rfl
  int _ := rfl
  double _ := rfl
  text _ := rfl
  list items := by rw [Json.sorted, Json.sortedItems_eq]
  object members := by rw [Json.sorted, Json.arranged]
  found once name := Json.get?_arranged once name

end Faithful

/-- A number without the sign of zero. -/
def Double.unsigned (number : Double) : Double := if number.isZero then .zero else number

section Fields

variable {change : Json → Json} {arrange : Members → Members} (faithful : Faithful change arrange)
  {members : Members} (once : (members.map Prod.fst).Nodup) {name : String}

include faithful once

/-- The value under a name is stored in place of the value that was there. A missing member counts
as null, and null is stored as null. -/
theorem Faithful.valueOf (name : String) :
    Members.valueOf (arrange members) name = change (members.valueOf name) := by
  rw [Members.valueOf, faithful.found once, Members.valueOf]
  cases Members.get? members name with
  | none => exact faithful.null.symm
  | some value => rfl

/-- A text that stands under a name is read back from the stored object, whatever text is taken
for a missing one. -/
theorem Faithful.textOr {content : String} (given : members.get? name = some (.text content))
    (missing : String) : Members.textOr (arrange members) name missing = content := by
  rw [Members.textOr, faithful.found once, given, Option.map_some, faithful.text]
  rfl

/-- A whole number that stands under a name is read back from the stored object, as scalars stay
what they are. -/
theorem Faithful.intOf {value : Int} (given : members.valueOf name = .int value) :
    Members.intOf (arrange members) name = .ok value := by
  simp only [Members.intOf, faithful.valueOf once, given, faithful.int, Json.isEmpty, beq_iff_eq]
  split
  · rename_i zero
    rw [zero]
  · rfl

/-- A double is read back, but for the sign of zero: a zero counts as empty and is replaced. -/
theorem Faithful.doubleOf {value : Double} (given : members.valueOf name = .double value) :
    Members.doubleOf (arrange members) name = .ok value.unsigned := by
  simp only [Members.doubleOf, faithful.valueOf once, given, faithful.double, Json.isEmpty,
    Double.unsigned]
  split <;> rfl

/-- The items of a list that stands under a name are read back in the form in which each of them
is stored. -/
theorem Faithful.itemsOf {items : List Json} (given : members.valueOf name = .list items) :
    Members.itemsOf (arrange members) name = .ok (items.map change) := by
  simp only [Members.itemsOf, faithful.valueOf once, given, faithful.list, Json.isEmpty,
    List.isEmpty_iff]
  split
  · rename_i none
    rw [none]
  · rfl

/-- A list of texts is read back as it was, since texts stay what they are when they are stored.
-/
theorem Faithful.textsOf {texts : List String} (given : members.valueOf name = .ofTexts texts) :
    Members.textsOf (arrange members) name = .ok texts := by
  have same : (texts.map Json.text).map change = texts.map Json.text := by
    rw [List.map_map]
    exact List.map_congr_left fun content _ => faithful.text content
  rw [Members.textsOf, faithful.itemsOf once given, same, Except.map, List.map_map]
  congr 1
  exact List.map_id texts

/-- Objects that are read back one by one are read back from a list of them, in the same order.
The induction is on the list. -/
theorem Faithful.readObjects {α : Type} {values : List α} {encode : α → Members}
    {decode : Members → Except Fault α} {restored : α → α}
    (each : ∀ value, decode (arrange (encode value)) = .ok (restored value))
    (given : members.valueOf name = .list (values.map fun value => .object (encode value))) :
    Members.readObjects (arrange members) name decode = .ok (values.map restored) := by
  have items : (values.map fun value => Json.object (encode value)).map change =
      values.map fun value => .object (arrange (encode value)) := by
    rw [List.map_map]
    exact List.map_congr_left fun value _ => faithful.object (encode value)
  have objects : Members.objectsOf (arrange members) name =
      .ok (values.map fun value => arrange (encode value)) := by
    rw [Members.objectsOf, faithful.itemsOf once given, items, Except.map, List.filterMap_map]
    exact congrArg Except.ok (congrFun List.filterMap_eq_map values)
  rw [Members.readObjects, objects]
  clear given items objects
  show (values.map fun value => arrange (encode value)).mapM decode = _
  induction values with
  | nil => rfl
  | cons value values inductionHypothesis =>
    rw [List.map_cons, List.mapM_cons, each, inductionHypothesis]
    rfl

end Fields

/-- What is read back of a screen that is stored. -/
def Screen.restored (change : Json → Json) (screen : Screen) : Screen :=
  { screen with
    componentCode := change screen.componentCode
    lastAnalyzedCommit := change screen.lastAnalyzedCommit
    screenshotStatus := change screen.screenshotStatus }

/-- What is read back of frameworks: the confidence loses the sign of zero. -/
def Framework.restored (framework : Framework) : Framework :=
  { framework with confidence := framework.confidence.unsigned }

/-- What is read back of a record, which is what is read back of its parts. -/
def Record.restored (change : Json → Json) (record : Record) : Record :=
  { record with
    screens := record.screens.map (Screen.restored change)
    framework := record.framework.restored }

/-- A member that is left out when it is null has one name or none. -/
theorem Json.names_unlessNull (name : String) (value : Json) :
    ((Json.unlessNull name value).map Prod.fst).Sublist [name] := by
  cases value <;> simp [Json.unlessNull]

/-- The value of a member that is left out when it is null can be found in both cases, as a
missing member counts as null. -/
theorem Json.getD_unlessNull (name : String) (value : Json) :
    ((Json.unlessNull name value).lookup name).getD .null = value := by
  cases value <;> simp [Json.unlessNull]

/-- A member that may be left out is not found under any other name. -/
theorem Json.lookup_unlessNull {name other : String} (apart : other ≠ name) (value : Json) :
    (Json.unlessNull name value).lookup other = none := by
  cases value <;> simp [Json.unlessNull, apart]

section Codec

variable {change : Json → Json} {arrange : Members → Members} (faithful : Faithful change arrange)

include faithful

/-- A stored flow is read back as it was: all its fields are texts, a number and a list of texts,
under names that are distinct. -/
theorem Flow.decode_arrange (flow : Flow) : Flow.decode (arrange flow.encode) = .ok flow := by
  have once : (flow.encode.map Prod.fst).Nodup := by
    show ["id", "type", "name", "file", "line", "code", "calls"].Nodup
    decide
  have line : Members.valueOf flow.encode "line" = .int flow.line := rfl
  have calls : Members.valueOf flow.encode "calls" = .ofTexts flow.calls := rfl
  have text (name content : String)
      (given : Members.get? flow.encode name = some (.text content)) := faithful.textOr once given
  simp only [Flow.decode, faithful.intOf once line, faithful.textsOf once calls,
    text "id" flow.id rfl, text "type" flow.kind rfl, text "name" flow.name rfl,
    text "file" flow.file rfl, text "code" flow.code rfl]
  rfl

/-- A stored screen is read back, with its three values of free form in the form in which they are
stored. These may be missing, and then they are null. -/
theorem Screen.decode_arrange (screen : Screen) :
    Screen.decode (arrange screen.encode) = .ok (screen.restored change) := by
  have names : (screen.encode.map Prod.fst).Sublist
      (["id", "name", "path", "filePath", "type", "flows", "navigatesTo", "framework"] ++
        ["componentCode"] ++ ["lastAnalyzedCommit"] ++ ["screenshotStatus"]) := by
    simp only [Screen.encode, List.map_append]
    exact (((List.Sublist.refl _).append (Json.names_unlessNull _ _)).append
      (Json.names_unlessNull _ _)).append (Json.names_unlessNull _ _)
  have once : (screen.encode.map Prod.fst).Nodup := names.nodup (by decide)
  have flows : Members.valueOf screen.encode "flows" = .ofTexts screen.flows := rfl
  have navigatesTo : Members.valueOf screen.encode "navigatesTo" = .ofTexts screen.navigatesTo :=
    rfl
  have text (name content : String)
      (given : Members.get? screen.encode name = some (.text content)) := faithful.textOr once given
  -- The values of free form stand behind the others, each of them only when it is given.
  have free (name : String) (behind : Members.get? screen.encode name =
      ((Json.unlessNull "componentCode" screen.componentCode ++
        Json.unlessNull "lastAnalyzedCommit" screen.lastAnalyzedCommit) ++
        Json.unlessNull "screenshotStatus" screen.screenshotStatus).lookup name) := behind
  have componentCode : Members.valueOf screen.encode "componentCode" = screen.componentCode := by
    rw [Members.valueOf, free _ rfl]
    simp [List.lookup_append, Json.lookup_unlessNull, Json.getD_unlessNull]
  have lastAnalyzedCommit :
      Members.valueOf screen.encode "lastAnalyzedCommit" = screen.lastAnalyzedCommit := by
    rw [Members.valueOf, free _ rfl]
    simp [List.lookup_append, Json.lookup_unlessNull, Json.getD_unlessNull]
  have screenshotStatus :
      Members.valueOf screen.encode "screenshotStatus" = screen.screenshotStatus := by
    rw [Members.valueOf, free _ rfl]
    simp [List.lookup_append, Json.lookup_unlessNull, Json.getD_unlessNull]
  simp only [Screen.decode, faithful.textsOf once flows, faithful.textsOf once navigatesTo,
    faithful.valueOf once, componentCode, lastAnalyzedCommit, screenshotStatus,
    text "id" screen.id rfl, text "name" screen.name rfl, text "path" screen.path rfl,
    text "filePath" screen.filePath rfl, text "type" screen.kind rfl,
    text "framework" screen.framework rfl]
  rfl

/-- Stored frameworks are read back, except that a negative zero as confidence becomes a plain
one. -/
theorem Framework.decode_arrange (framework : Framework) :
    Framework.decode (arrange framework.encode) = .ok framework.restored := by
  have once : (framework.encode.map Prod.fst).Nodup := by
    show ["detected", "primary", "confidence"].Nodup
    decide
  have detected : Members.valueOf framework.encode "detected" = .ofTexts framework.detected := rfl
  have confidence : Members.valueOf framework.encode "confidence" =
      .double framework.confidence := rfl
  have primary : Members.valueOf framework.encode "primary" =
      framework.primary.elim .null .text := by
    unfold Framework.encode
    cases framework.primary <;> rfl
  simp only [Framework.decode, faithful.textsOf once detected, faithful.doubleOf once confidence,
    faithful.valueOf once, primary, Framework.restored]
  cases framework.primary with
  | none =>
    simp only [Option.elim_none, faithful.null]
    rfl
  | some label =>
    simp only [Option.elim_some, faithful.text]
    rfl

/-- A stored record is read back: its texts and numbers as they were, and its flows, screens and
frameworks each in its own way. -/
theorem Record.decode_arrange (record : Record) :
    Record.decode (arrange record.encode) = .ok (record.restored change) := by
  have once : (record.encode.map Prod.fst).Nodup := by
    show ["analysisId", "repo", "branch", "commitSha", "timestamp", "filesAnalyzed", "flowsCount",
      "screens", "flows", "framework"].Nodup
    decide
  have text (name content : String)
      (given : Members.get? record.encode name = some (.text content)) := faithful.textOr once given
  have flows := faithful.readObjects once (Flow.decode_arrange faithful)
    (show Members.valueOf record.encode "flows" =
      .list (record.flows.map fun flow => .object flow.encode) from rfl)
  rw [List.map_id'] at flows
  have screens := faithful.readObjects once (Screen.decode_arrange faithful)
    (show Members.valueOf record.encode "screens" =
      .list (record.screens.map fun screen => .object screen.encode) from rfl)
  have framework : Members.valueOf record.encode "framework" =
      .object record.framework.encode := rfl
  have filesAnalyzed : Members.valueOf record.encode "filesAnalyzed" = .int record.filesAnalyzed :=
    rfl
  simp only [Record.decode_eq, flows, screens, faithful.valueOf once, framework, faithful.object,
    Framework.within, Framework.decode_arrange faithful, faithful.intOf once filesAnalyzed,
    text "analysisId" record.analysisId rfl, text "repo" record.repo rfl,
    text "branch" record.branch rfl, text "commitSha" record.commit rfl,
    text "timestamp" record.timestamp rfl]
  rfl

end Codec

/-- The sign of zero is dropped once and for all, so that reading back twice is the same as
reading back once. -/
theorem Double.unsigned_unsigned (number : Double) :
    number.unsigned.unsigned = number.unsigned := by
  unfold Double.unsigned
  split <;> rfl

/-- A record with what does not count as a difference taken away: the sign of a zero
confidence and the order of members in the values of free form. -/
def Record.canonical (record : Record) : Record := record.restored Json.sorted

/-- Two records are equal, apart from the sign of zero and the order of members. -/
def Record.Agrees (left right : Record) : Prop := left.canonical = right.canonical

/-- What is read back agrees with the record, if storing a value only orders members. -/
theorem Record.restored_agrees {change : Json → Json}
    (orders : ∀ value, (change value).sorted = value.sorted) (record : Record) :
    (record.restored change).Agrees record := by
  have screens : (record.screens.map (Screen.restored change)).map (Screen.restored Json.sorted) =
      record.screens.map (Screen.restored Json.sorted) := by
    rw [List.map_map]
    apply List.map_congr_left
    intro screen _
    simp only [Function.comp, Screen.restored, orders]
  simp only [Record.Agrees, Record.canonical, Record.restored, screens, Framework.restored,
    Double.unsigned_unsigned]

end ScreenAtlas
