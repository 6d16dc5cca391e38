import ScreenAtlas.Record.Codec

/-!
# Which stored records can be read

Fields are read leniently, but not every value has a reading: a list is expected
of something that has items, and a number of something that is one or spells one.
This module says of every stored object whether it can be read as a record, field
by field and without reference to the order in which the fields are read. When it
cannot, reading ends with one of three faults, and never in another way.
-/
namespace ScreenAtlas

/-- The faults of fields that have no reading. -/
def fieldFaults : List Fault := [.wrongType, .malformedNumber, .numberTooLarge]

/-- An attempt hinges on a condition: it succeeds when the condition holds and ends
with the fault of a field otherwise. -/
structure Hinges {α : Type} (attempt : Except Fault α) (condition : Prop) : Prop where
  succeeds : condition → ∃ value, attempt = .ok value
  fails : ¬ condition → ∃ fault ∈ fieldFaults, attempt = .error fault

namespace Hinges

variable {α β : Type} {attempt : Except Fault α} {condition : Prop}

/-- A value hinges on nothing: an attempt that gives one succeeds in any case. -/
theorem ok (value : α) : Hinges (.ok value : Except Fault α) True :=
  ⟨fun _ => ⟨value, rfl⟩, fun never => absurd trivial never⟩

/-- A fault of a field cannot be avoided: an attempt that ends with it hinges on what never holds.
-/
theorem error {fault : Fault} (known : fault ∈ fieldFaults) :
    Hinges (.error fault : Except Fault α) False :=
  ⟨False.elim, fun _ => ⟨fault, known, rfl⟩⟩

/-- The condition on which an attempt hinges may be put in other words that mean the same. -/
theorem congr (hinges : Hinges attempt condition) {other : Prop} (same : condition ↔ other) :
    Hinges attempt other :=
  ⟨fun holds => hinges.succeeds (same.mpr holds), fun fails =>
    hinges.fails fun holds => fails (same.mp holds)⟩

/-- What is made of the value of an attempt does not matter for whether it succeeds, nor for its
fault. -/
theorem map (hinges : Hinges attempt condition) (change : α → β) :
    Hinges (attempt.map change) condition := by
  constructor
  · intro holds
    obtain ⟨value, rfl⟩ := hinges.succeeds holds
    exact ⟨change value, rfl⟩
  · intro unmet
    obtain ⟨fault, known, rfl⟩ := hinges.fails unmet
    exact ⟨fault, known, rfl⟩

/-- Of two attempts one after the other both conditions have to hold. The second
condition need only be right for the value of the first attempt. -/
theorem bind (hinges : Hinges attempt condition) {next : α → Except Fault β} {later : Prop}
    (following : ∀ value, attempt = .ok value → Hinges (next value) later) :
    Hinges (attempt >>= next) (condition ∧ later) := by
  constructor
  · rintro ⟨holds, behind⟩
    obtain ⟨value, given⟩ := hinges.succeeds holds
    obtain ⟨result, made⟩ := (following value given).succeeds behind
    exact ⟨result, by rw [given]; exact made⟩
  · intro unmet
    by_cases holds : condition
    · obtain ⟨value, given⟩ := hinges.succeeds holds
      obtain ⟨fault, known, failed⟩ :=
        (following value given).fails fun behind => unmet ⟨holds, behind⟩
      exact ⟨fault, known, by rw [given]; exact failed⟩
    · obtain ⟨fault, known, failed⟩ := hinges.fails holds
      exact ⟨fault, known, by rw [failed]; rfl⟩

/-- An attempt on every item of a list needs the condition of every item, and the first one that
fails gives the fault. The induction is on the items. -/
theorem mapM {items : List α} {next : α → Except Fault β} {each : α → Prop}
    (single : ∀ item ∈ items, Hinges (next item) (each item)) :
    Hinges (items.mapM next) (∀ item ∈ items, each item) := by
  induction items with
  | nil => exact (ok []).congr (by simp)
  | cons item items inductionHypothesis =>
    have behind := inductionHypothesis fun other member =>
      single other (List.mem_cons_of_mem item member)
    have here := single item List.mem_cons_self
    rw [List.mapM_cons]
    apply (here.bind fun value _ => behind.bind fun values _ => ok (value :: values)).congr
    simp

/-- What is accepted passes its test; this is the case of a value whose test comes out true. -/
theorem accepted (value : α) : Hinges (.ok value : Except Fault α) (true = true) :=
  (ok value).congr (by simp)

/-- What is refused with the fault of a field does not pass its test, which comes out false. -/
theorem refused {fault : Fault} (known : fault ∈ fieldFaults) :
    Hinges (.error fault : Except Fault α) (false = true) :=
  (error known).congr (by simp)

/-- An empty value is taken for a missing one, and any other has to pass its test. -/
theorem unlessEmpty {value : Json} {passes : Bool} (missing : α)
    (tested : Hinges attempt (passes = true)) :
    Hinges (if value.isEmpty then .ok missing else attempt)
      ((value.isEmpty || passes) = true) := by
  cases value.isEmpty with
  | true => exact accepted missing
  | false => exact tested

end Hinges

namespace Json

/-- The value has items, if only none. -/
def isListing (value : Json) : Bool :=
  value.isEmpty ||
    match value with
    | .list _ | .text _ | .object _ => true
    | _ => false

/-- The value can be taken as a whole number. -/
def isIntegral (value : Json) : Bool :=
  value.isEmpty ||
    match value with
    | .int _ | .bool _ | .double (.finite _ _) => true
    | .text content => (Numeral.readInt? content.toList).isSome
    | _ => false

/-- The value can be taken as a number. -/
def isNumeric (value : Json) : Bool :=
  value.isEmpty ||
    match value with
    | .double _ | .bool _ => true
    | .int n => (Double.ofInt? n).isSome
    | .text content => (Numeral.readDouble? content.toList).isSome
    | _ => false

end Json

namespace Members

/-- The items of a member can be listed exactly when it has items; of anything else the fault is a
wrong type. -/
theorem hinges_itemsOf (members : Members) (name : String) :
    Hinges (members.itemsOf name) ((members.valueOf name).isListing = true) := by
  refine Hinges.unlessEmpty [] ?_
  cases members.valueOf name with
  | list items => exact .accepted items
  | text text => exact .accepted _
  | object inner => exact .accepted _
  | null => exact .refused (by decide)
  | bool value => exact .refused (by decide)
  | int value => exact .refused (by decide)
  | double value => exact .refused (by decide)

/-- The texts among the items of a member can be listed exactly when it has items, whatever these
are. -/
theorem hinges_textsOf (members : Members) (name : String) :
    Hinges (members.textsOf name) ((members.valueOf name).isListing = true) :=
  (members.hinges_itemsOf name).map _

/-- The objects among the items of a member can be listed exactly when it has items, whatever
these are. -/
theorem hinges_objectsOf (members : Members) (name : String) :
    Hinges (members.objectsOf name) ((members.valueOf name).isListing = true) :=
  (members.hinges_itemsOf name).map _

/-- The objects of a member are those in a list; a text and an object have only texts
for items. -/
theorem mem_objectsOf {members : Members} {name : String} {objects : List Members}
    (given : members.objectsOf name = .ok objects) (inner : Members) :
    inner ∈ objects ↔ ∃ items, members.valueOf name = .list items ∧ .object inner ∈ items := by
  unfold objectsOf itemsOf at given
  by_cases empty : (members.valueOf name).isEmpty = true
  · simp only [empty, ↓reduceIte] at given
    obtain rfl := Except.ok.inj given
    constructor
    · intro member
      cases member
    · rintro ⟨items, listed, member⟩
      simp only [listed, Json.isEmpty, List.isEmpty_iff] at empty
      simp [empty] at member
  · simp only [empty, Bool.false_eq_true, ↓reduceIte] at given
    cases value : members.valueOf name with
    | list items =>
      rw [value] at given
      obtain rfl := Except.ok.inj given
      rw [List.mem_filterMap]
      constructor
      · rintro ⟨item, member, chosen⟩
        refine ⟨items, rfl, ?_⟩
        cases item <;> simp_all
      · rintro ⟨others, same, member⟩
        obtain rfl := Json.list.inj same
        exact ⟨.object inner, member, rfl⟩
    | text text =>
      rw [value] at given
      obtain rfl := Except.ok.inj given
      simp
    | object fields =>
      rw [value] at given
      obtain rfl := Except.ok.inj given
      simp
    | null => simp [value, Json.isEmpty] at empty
    | bool flag => simp [value, Except.map] at given
    | int number => simp [value, Except.map] at given
    | double number => simp [value, Except.map] at given

/-- A member is read as a whole number exactly when it can be taken as one. There are three ways
to fail: by type, by text and by size. -/
theorem hinges_intOf (members : Members) (name : String) :
    Hinges (members.intOf name) ((members.valueOf name).isIntegral = true) := by
  refine Hinges.unlessEmpty 0 ?_
  cases members.valueOf name with
  | int value => exact .accepted value
  | bool value => exact .accepted _
  | double value =>
    cases value with
    | finite negative place => exact .accepted _
    | infinite negative => exact .refused (by decide)
    | notANumber => exact .refused (by decide)
  | text text =>
    dsimp only
    cases Numeral.readInt? text.toList with
    | some number => exact .accepted number
    | none => exact .refused (by decide)
  | null => exact .refused (by decide)
  | list items => exact .refused (by decide)
  | object inner => exact .refused (by decide)

/-- A member is read as a number exactly when it can be taken as one; a whole number must not be
too large for it. -/
theorem hinges_doubleOf (members : Members) (name : String) :
    Hinges (members.doubleOf name) ((members.valueOf name).isNumeric = true) := by
  refine Hinges.unlessEmpty Double.zero ?_
  cases members.valueOf name with
  | double value => exact .accepted value
  | bool value => exact .accepted _
  | int value =>
    dsimp only
    cases Double.ofInt? value with
    | some number => exact .accepted number
    | none => exact .refused (by decide)
  | text text =>
    dsimp only
    cases Numeral.readDouble? text.toList with
    | some number => exact .accepted number
    | none => exact .refused (by decide)
  | null => exact .refused (by decide)
  | list items => exact .refused (by decide)
  | object inner => exact .refused (by decide)

/-- The members can be read as a flow. -/
structure LegibleFlow (members : Members) : Prop where
  line : (members.valueOf "line").isIntegral = true
  calls : (members.valueOf "calls").isListing = true

/-- The members can be read as a screen. -/
structure LegibleScreen (members : Members) : Prop where
  flows : (members.valueOf "flows").isListing = true
  navigatesTo : (members.valueOf "navigatesTo").isListing = true

/-- The members can be read as frameworks. -/
structure LegibleFramework (members : Members) : Prop where
  detected : (members.valueOf "detected").isListing = true
  confidence : (members.valueOf "confidence").isNumeric = true

/-- The members can be read as a record. Only the objects among the flows and the
screens count, and frameworks that are no object are taken as none. -/
structure Legible (members : Members) : Prop where
  flows : (members.valueOf "flows").isListing = true
  flow : ∀ items inner, members.valueOf "flows" = .list items → .object inner ∈ items →
    LegibleFlow inner
  screens : (members.valueOf "screens").isListing = true
  screen : ∀ items inner, members.valueOf "screens" = .list items → .object inner ∈ items →
    LegibleScreen inner
  framework : ∀ inner, members.valueOf "framework" = .object inner → LegibleFramework inner
  filesAnalyzed : (members.valueOf "filesAnalyzed").isIntegral = true

end Members

open Members

/-- Reading a flow hinges on its line and its calls, since all other fields have a reading for
every value. -/
theorem Flow.hinges_decode (members : Members) :
    Hinges (Flow.decode members) (LegibleFlow members) := by
  apply ((members.hinges_intOf "line").bind fun line _ =>
    (members.hinges_textsOf "calls").bind fun calls _ => Hinges.ok _).congr
  constructor
  · rintro ⟨line, calls, _⟩
    exact ⟨line, calls⟩
  · rintro ⟨line, calls⟩
    exact ⟨line, calls, trivial⟩

/-- Reading a screen hinges on its two lists, since all other fields have a reading for every
value. -/
theorem Screen.hinges_decode (members : Members) :
    Hinges (Screen.decode members) (LegibleScreen members) := by
  apply ((members.hinges_textsOf "flows").bind fun flows _ =>
    (members.hinges_textsOf "navigatesTo").bind fun targets _ => Hinges.ok _).congr
  constructor
  · rintro ⟨flows, targets, _⟩
    exact ⟨flows, targets⟩
  · rintro ⟨flows, targets⟩
    exact ⟨flows, targets, trivial⟩

/-- Reading frameworks hinges on the list of labels and on the confidence; the primary label is
read from anything. -/
theorem Framework.hinges_decode (members : Members) :
    Hinges (Framework.decode members) (LegibleFramework members) := by
  apply ((members.hinges_textsOf "detected").bind fun detected _ =>
    (members.hinges_doubleOf "confidence").bind fun confidence _ => Hinges.ok _).congr
  constructor
  · rintro ⟨detected, confidence, _⟩
    exact ⟨detected, confidence⟩
  · rintro ⟨detected, confidence⟩
    exact ⟨detected, confidence, trivial⟩

/-- Reads the objects of a member one by one. -/
def Members.readObjects {α : Type} (members : Members) (name : String)
    (decode : Members → Except Fault α) : Except Fault (List α) :=
  members.objectsOf name >>= fun objects => objects.mapM decode

/-- Reading the objects of a member hinges on its having items and on each object among them. -/
theorem Members.hinges_readObjects {α : Type} (members : Members) (name : String)
    {decode : Members → Except Fault α} {each : Members → Prop}
    (single : ∀ inner, Hinges (decode inner) (each inner)) :
    Hinges (members.readObjects name decode)
      ((members.valueOf name).isListing = true ∧
        ∀ items inner, members.valueOf name = .list items → .object inner ∈ items →
          each inner) := by
  apply (members.hinges_objectsOf name).bind
  intro objects given
  apply (Hinges.mapM fun inner _ => single inner).congr
  constructor
  · intro every items inner listed member
    exact every inner ((mem_objectsOf given inner).mpr ⟨items, listed, member⟩)
  · intro every inner member
    obtain ⟨items, listed, present⟩ := (mem_objectsOf given inner).mp member
    exact every items inner listed present

/-- The frameworks under a value: those of an object, and none under anything else. -/
def Framework.within : Json → Except Fault Framework
  | .object inner => Framework.decode inner
  | _ => .ok {}

/-- What is read of a record, part after part, in the order in which the first fault decides. -/
theorem Record.decode_eq (members : Members) :
    Record.decode members = do
      let flows ← members.readObjects "flows" Flow.decode
      let screens ← members.readObjects "screens" Screen.decode
      let framework ← Framework.within (members.valueOf "framework")
      let filesAnalyzed ← members.intOf "filesAnalyzed"
      return {
        analysisId := members.textOr "analysisId" ""
        repo := members.textOr "repo" ""
        branch := members.textOr "branch" ""
        commit := members.textOr "commitSha" ""
        timestamp := members.textOr "timestamp" ""
        filesAnalyzed
        screens
        flows
        framework } := by
  simp only [Record.decode, Members.readObjects, bind_assoc]
  generalize members.valueOf "framework" = value
  cases value <;> rfl

/-- Reading the frameworks under a value hinges on them when it is an object, and on nothing
otherwise. -/
theorem Framework.hinges_within (value : Json) :
    Hinges (Framework.within value) (∀ inner, value = .object inner → LegibleFramework inner) := by
  cases value with
  | object inner => exact (Framework.hinges_decode inner).congr (by simp)
  | null => exact (Hinges.ok _).congr (by simp)
  | bool value => exact (Hinges.ok _).congr (by simp)
  | int value => exact (Hinges.ok _).congr (by simp)
  | double value => exact (Hinges.ok _).congr (by simp)
  | text text => exact (Hinges.ok _).congr (by simp)
  | list items => exact (Hinges.ok _).congr (by simp)

/-- Reading a record hinges on its being legible: exactly then a record is read, and
otherwise reading ends with the fault of a field. -/
theorem Record.hinges_decode (members : Members) :
    Hinges (Record.decode members) (Legible members) := by
  rw [Record.decode_eq]
  apply ((members.hinges_readObjects "flows" Flow.hinges_decode).bind fun flows _ =>
    (members.hinges_readObjects "screens" Screen.hinges_decode).bind fun screens _ =>
    (Framework.hinges_within (members.valueOf "framework")).bind fun framework _ =>
    (members.hinges_intOf "filesAnalyzed").bind fun filesAnalyzed _ => Hinges.ok _).congr
  constructor
  · rintro ⟨⟨flows, flow⟩, ⟨screens, screen⟩, framework, filesAnalyzed, _⟩
    exact ⟨flows, flow, screens, screen, framework, filesAnalyzed⟩
  · rintro ⟨flows, flow, screens, screen, framework, filesAnalyzed⟩
    exact ⟨⟨flows, flow⟩, ⟨screens, screen⟩, framework, filesAnalyzed, trivial⟩

end ScreenAtlas
