import ScreenAtlas.Proofs.FirstOccurrences
import ScreenAtlas.Proofs.FlowRefinement

/-!
# The events that the elements of a tree raise

An element handles an event on the line where the value of its first attribute of that name
starts; a button raises an event on its own line. Both kinds meet on the lines of the source,
where a button yields to any handler, of its own element or of another one. Every event is
listed once, the events of one line in the order of the first elements that raise them.
-/
namespace ScreenAtlas.Script

/-- The name of an attribute is its first named child. -/
def Parsed.attributeName? (parsed : Parsed) (entry : Node) : Option String :=
  entry.namedChildren.head?.map fun name => String.ofList (parsed.textOf name)

/-- The value of an attribute is its second named child. -/
def Node.attributeValue? (entry : Node) : Option Node := entry.namedChildren[1]?

/-- The first attribute of a name in the tag of an element. -/
def Parsed.firstAttribute? (parsed : Parsed) (element : Node) (name : String) : Option Node :=
  ((element.tag?.map Node.namedChildren).getD []).find? fun child =>
    child.kind == "jsx_attribute" && parsed.attributeName? child == some name

/-- Nothing is found under a name exactly when the name is not listed, so that a listed name
always has a value. -/
theorem lookup_eq_none_iff_not_mem {α : Type} {entries : List (String × α)} {name : String} :
    entries.lookup name = none ↔ name ∉ entries.map Prod.fst := by
  rw [List.lookup_eq_none_iff, List.mem_map]
  simp only [bne_iff_ne, ne_eq, not_exists, not_and]
  exact forall₂_congr fun entry _ => not_congr eq_comm

/-- The value that is kept for a name is the first one. The induction is from the end of the
entries: a last entry counts only if its name has not been met. -/
theorem lookup_foldl_addFirst {α : Type} (entries : List (String × α)) (name : String) :
    (entries.foldl addFirst []).lookup name = entries.lookup name := by
  induction entries using List.reverseRecOn with
  | nil => rfl
  | append_singleton entries entry inductionHypothesis =>
    rw [List.foldl_append, List.foldl_cons, List.foldl_nil, List.lookup_append,
      ← inductionHypothesis]
    -- A taken name is found among the earlier values, so that the last one is not looked at.
    rcases gathersBy_addFirst (entries.foldl addFirst []) entry with ⟨taken, same⟩ | ⟨fresh, more⟩
    · rw [same]
      by_cases wanted : name = entry.1
      · obtain ⟨value, found⟩ := Option.ne_none_iff_exists'.mp
          (mt lookup_eq_none_iff_not_mem.mp (not_not.mpr (wanted ▸ taken)))
        rw [found, Option.some_or]
      · simp [List.lookup, beq_false_of_ne wanted]
    · rw [more, List.lookup_append]

/-- Among entries of distinct names, a value is listed under a name exactly when it is the one
that is found there. -/
theorem mem_iff_lookup {α : Type} {entries : List (String × α)}
    (distinct : (entries.map Prod.fst).Nodup) {name : String} {value : α} :
    (name, value) ∈ entries ↔ entries.lookup name = some value := by
  rw [List.lookup_eq_some_iff]
  constructor
  · intro member
    obtain ⟨before, behind, rfl⟩ := List.append_of_mem member
    refine ⟨before, behind, rfl, ?_⟩
    intro entry earlier
    rw [List.map_append, List.map_cons] at distinct
    have apart := List.disjoint_of_nodup_append distinct (List.mem_map_of_mem earlier)
    exact bne_iff_ne.mpr fun same => apart (same ▸ List.mem_cons_self)
  · rintro ⟨before, behind, rfl, _⟩
    simp

/-- An attribute that has a name, with its value. -/
def Parsed.attribute? (parsed : Parsed) (child : Node) : Option (String × Option Node) :=
  if child.kind = "jsx_attribute" then
    (parsed.attributeName? child).map fun name => (name, child.attributeValue?)
  else none

/-- The attributes of an element are gathered from the named children of its tag that are
attributes with a name; an element without a tag has none. -/
theorem attributes_eq (parsed : Parsed) (element : Node) : parsed.attributes element =
    (((element.tag?.map Node.namedChildren).getD []).filterMap parsed.attribute?).foldl
      addFirst [] := by
  unfold Parsed.attributes
  cases element.tag? with
  | none => rfl
  | some tag =>
    refine congrArg (List.foldl addFirst []) (List.filterMap_congr ?_)
    intro child _
    unfold Parsed.attribute? Parsed.attributeName? Node.attributeValue?
    rcases child.namedChildren with _ | ⟨name, _ | ⟨value, rest⟩⟩ <;> simp

/-- The value under a name among the attributes is that of the first attribute of this name. The
induction is on the children of the tag. -/
theorem lookup_attributes (parsed : Parsed) (element : Node) (name : String) :
    (parsed.attributes element).lookup name =
      (parsed.firstAttribute? element name).map Node.attributeValue? := by
  rw [attributes_eq, lookup_foldl_addFirst, Parsed.firstAttribute?]
  induction (element.tag?.map Node.namedChildren).getD [] with
  | nil => rfl
  | cons child rest inductionHypothesis =>
    rw [List.filterMap_cons, List.find?_cons, Parsed.attribute?]
    by_cases kind : child.kind = "jsx_attribute"
    · cases spelled : parsed.attributeName? child with
      | none => simpa [kind] using inductionHypothesis
      | some other =>
        by_cases same : name = other
        · simp [kind, same]
        · simp [kind, List.lookup, beq_false_of_ne same, beq_false_of_ne (Ne.symm same),
            inductionHypothesis]
    · simpa [kind, beq_false_of_ne kind] using inductionHypothesis

/-- The attributes of an element are the first ones of their names, with their values. Later
attributes of the same name are never seen. -/
theorem mem_attributes {parsed : Parsed} {element : Node} {name : String} {value : Option Node} :
    (name, value) ∈ parsed.attributes element ↔
      (parsed.firstAttribute? element name).map Node.attributeValue? = some value := by
  have distinct : ((parsed.attributes element).map Prod.fst).Nodup := by
    rw [attributes_eq]
    exact gathersBy_addFirst.nodup _
  rw [mem_iff_lookup distinct, lookup_attributes]

end ScreenAtlas.Script

namespace ScreenAtlas.Flow

open ScreenAtlas.Script

/-- The line on which an element handles an event: where the value of its first attribute of
that name starts or, without a value, where the element starts. -/
def handledLine? (parsed : Parsed) (element : Node) (name : String) : Option Int :=
  (parsed.firstAttribute? element name).map fun entry =>
    (entry.attributeValue?.getD element).firstLine

/-- The element is a button by its name, or its first role says so. -/
def IsButton (parsed : Parsed) (element : Node) : Prop :=
  String.ofList (parsed.elementName element) = "button" ∨
    parsed.literal? ((parsed.firstAttribute? element "role").bind Node.attributeValue?) =
      some "button"

instance (parsed : Parsed) (element : Node) : Decidable (IsButton parsed element) := instDecidableOr

/-- Some element of the tree handles the event on the line. -/
def HandledOn (parsed : Parsed) (line : Int) (name : String) : Prop :=
  ∃ element ∈ parsed.root.preorder, element.isElement = true ∧
    handledLine? parsed element name = some line

instance (parsed : Parsed) (line : Int) (name : String) :
    Decidable (HandledOn parsed line name) := List.decidableBEx _ _

/-- Some element of the tree handles some event on the line. -/
def Taken (parsed : Parsed) (line : Int) : Prop :=
  ∃ name ∈ eventAttributes, HandledOn parsed line name

instance (parsed : Parsed) (line : Int) : Decidable (Taken parsed line) := List.decidableBEx _ _

/-- Some button of the tree starts on the line. -/
def ButtonOn (parsed : Parsed) (line : Int) : Prop :=
  ∃ element ∈ parsed.root.preorder, element.isElement = true ∧ IsButton parsed element ∧
    element.firstLine = line

instance (parsed : Parsed) (line : Int) : Decidable (ButtonOn parsed line) := List.decidableBEx _ _

/-- The event that a handler raises on a line. -/
def handlerEvent (path content : String) (line : Int) (name : String) : Flow :=
  onLine path line (codeAt (sourceLines content) line) ("event:" ++ name) uiEvent name

/-- The event that a button raises on a line. -/
def buttonEvent (path content : String) (line : Int) : Flow :=
  onLine path line (codeAt (sourceLines content) line) "button" uiEvent "button"

/-- The node is an element that handles the event on its line, or a button that raises it
there. -/
def Raises (parsed : Parsed) (node : Node) (event : Flow) : Prop :=
  node.isElement = true ∧
    (event.name ∈ eventAttributes ∧ handledLine? parsed node event.name = some event.line ∨
      event.name = "button" ∧ IsButton parsed node ∧ node.firstLine = event.line)

/-- No event attribute is called like the event of a button, so the name of an event tells which
of the two kinds it is. -/
theorem ne_button_of_mem {name : String} (member : name ∈ eventAttributes) : name ≠ "button" := by
  rintro rfl
  revert member
  decide

section Raised

variable {parsed : Parsed} {path content : String}

/-- The program takes an element for a button exactly when its name or its first role says so; a
role that is no literal text says nothing. -/
theorem isButton_iff {element : Node} :
    isButton parsed element = true ↔ IsButton parsed element := by
  unfold isButton IsButton
  rw [lookup_attributes, Bool.or_eq_true, beq_iff_eq]
  cases parsed.firstAttribute? element "role" with
  | none => simp [Parsed.literal?, unwrap]
  | some role => cases shown : role.attributeValue? <;> simp [shown, Parsed.literal?, unwrap]

/-- The events that an element raises as a handler are one for each event attribute that it has,
on the line where the first attribute of that name puts it. -/
theorem mem_handledEvents {element : Node} {event : Flow} :
    event ∈ handledEvents path (sourceLines content) parsed element ↔
      ∃ name ∈ eventAttributes, ∃ line, handledLine? parsed element name = some line ∧
        event = handlerEvent path content line name := by
  unfold handledEvents
  rw [List.mem_filterMap]
  constructor
  · rintro ⟨⟨name, value⟩, member, made⟩
    obtain ⟨entry, found, rfl⟩ := Option.map_eq_some_iff.mp (mem_attributes.mp member)
    dsimp only at made
    split at made
    · next known =>
      exact ⟨name, by simpa using known, _, by rw [handledLine?, found]; rfl,
        (Option.some.inj made).symm⟩
    · cases made
  · rintro ⟨name, known, line, handled, rfl⟩
    obtain ⟨entry, found, rfl⟩ := Option.map_eq_some_iff.mp handled
    refine ⟨(name, entry.attributeValue?), mem_attributes.mpr (by rw [found]; rfl), ?_⟩
    simp [known, handlerEvent]

/-- The events that a node raises as a handler. -/
def handlersOf (parsed : Parsed) (path content : String) (node : Node) : List Flow :=
  if node.isElement then handledEvents path (sourceLines content) parsed node else []

/-- The events that a node raises as a button. -/
def buttonsOf (parsed : Parsed) (path content : String) (node : Node) : List Flow :=
  if node.isElement = true ∧ IsButton parsed node then [buttonEvent path content node.firstLine]
  else []

/-- A node raises a handler's event exactly when it is an element and handles the event on that
line. -/
theorem mem_handlersOf {node : Node} {event : Flow} :
    event ∈ handlersOf parsed path content node ↔
      ∃ name ∈ eventAttributes, ∃ line, event = handlerEvent path content line name ∧
        node.isElement = true ∧ handledLine? parsed node name = some line := by
  unfold handlersOf
  split
  · next element =>
    rw [mem_handledEvents]
    simp only [element, true_and, and_comm]
  · next other => simp [other]

/-- A node raises a button's event exactly when it is an element, a button, and starts on that
line. -/
theorem mem_buttonsOf {node : Node} {event : Flow} :
    event ∈ buttonsOf parsed path content node ↔
      ∃ line, event = buttonEvent path content line ∧
        node.isElement = true ∧ IsButton parsed node ∧ node.firstLine = line := by
  unfold buttonsOf
  split
  · next button => simp [button]
  · next other =>
    simp only [List.not_mem_nil, false_iff]
    rintro ⟨line, _, element, button, _⟩
    exact other ⟨element, button⟩

/-- Some node of the tree raises a handler's event exactly when the event is handled on that line
by some element. -/
theorem mem_flatMap_handlersOf {event : Flow} :
    event ∈ parsed.root.preorder.flatMap (handlersOf parsed path content) ↔
      ∃ name ∈ eventAttributes, ∃ line, event = handlerEvent path content line name ∧
        HandledOn parsed line name := by
  rw [List.mem_flatMap]
  constructor
  · rintro ⟨node, member, raised⟩
    obtain ⟨name, known, line, same, handled⟩ := mem_handlersOf.mp raised
    exact ⟨name, known, line, same, node, member, handled⟩
  · rintro ⟨name, known, line, same, node, member, handled⟩
    exact ⟨node, member, mem_handlersOf.mpr ⟨name, known, line, same, handled⟩⟩

/-- Some node of the tree raises a button's event exactly when a button starts on that line. -/
theorem mem_flatMap_buttonsOf {event : Flow} :
    event ∈ parsed.root.preorder.flatMap (buttonsOf parsed path content) ↔
      ∃ line, event = buttonEvent path content line ∧ ButtonOn parsed line := by
  rw [List.mem_flatMap]
  constructor
  · rintro ⟨node, member, raised⟩
    obtain ⟨line, same, button⟩ := mem_buttonsOf.mp raised
    exact ⟨line, same, node, member, button⟩
  · rintro ⟨line, same, node, member, button⟩
    exact ⟨node, member, mem_buttonsOf.mpr ⟨line, same, button⟩⟩

/-- The program's test for a handler among the events of a line holds exactly when the line is
taken, for the event of a handler is on the line of the handler. -/
theorem any_line_iff {line : Int} :
    ((parsed.root.preorder.flatMap (handlersOf parsed path content)).any
      fun event => event.line == line) = true ↔ Taken parsed line := by
  rw [List.any_eq_true]
  constructor
  · rintro ⟨event, raised, here⟩
    obtain ⟨name, known, row, rfl, handled⟩ := mem_flatMap_handlersOf.mp raised
    obtain rfl : row = line := beq_iff_eq.mp here
    exact ⟨name, known, handled⟩
  · rintro ⟨name, known, handled⟩
    exact ⟨handlerEvent path content line name,
      mem_flatMap_handlersOf.mpr ⟨name, known, line, rfl, handled⟩, beq_self_eq_true line⟩

variable (parsed path content) in
/-- What all nodes raise: the events of the handlers, and behind them those of the buttons on
lines that are not taken. -/
def raised : List Flow :=
  parsed.root.preorder.flatMap (handlersOf parsed path content) ++
    (parsed.root.preorder.flatMap (buttonsOf parsed path content)).filter
      fun event => ¬ Taken parsed event.line

/-- What sources give that are left out before is left out behind as well: a source that is not
kept gives nothing. -/
theorem flatMap_filter {α β : Type} (keep : α → Bool) (gives : α → List β) (sources : List α) :
    (sources.filter keep).flatMap gives =
      sources.flatMap fun source => if keep source then gives source else [] := by
  induction sources with
  | nil => rfl
  | cons source rest inductionHypothesis =>
    cases kept : keep source <;> simp [kept, inductionHypothesis]

variable (parsed path content) in
/-- The events of a tree are what all its nodes raise, sorted by line and listed once by their
identifiers. -/
theorem events_eq_unique :
    events parsed path content = unique (byLine (raised parsed path content)) := by
  have handlers : (parsed.nodes.filter Node.isElement).flatMap
      (handledEvents path (sourceLines content) parsed) =
        parsed.root.preorder.flatMap (handlersOf parsed path content) := by
    rw [nodes_eq_preorder, flatMap_filter]
    rfl
  have buttons : (parsed.nodes.filter Node.isElement).filterMap
      (buttonEvent? path (sourceLines content) parsed) =
        parsed.root.preorder.flatMap (buttonsOf parsed path content) := by
    rw [nodes_eq_preorder, List.filterMap_eq_flatMap_toList, flatMap_filter]
    congr 1
    funext node
    unfold buttonEvent? buttonsOf
    by_cases button : IsButton parsed node
    · simp [isButton_iff.mpr button, button, buttonEvent]
    · simp [mt isButton_iff.mp button, button]
  have free (event : Flow) : (!((parsed.root.preorder.flatMap (handlersOf parsed path content)).any
      fun other => other.line == event.line)) = decide (¬ Taken parsed event.line) := by
    rw [Bool.eq_iff_iff, Bool.not_eq_true', ← Bool.not_eq_true, any_line_iff, decide_eq_true_iff]
  unfold events raised
  simp only [handlers, buttons, free]

/-- What is raised is the events of handlers on all lines, and those of buttons on the lines that
are not taken. -/
theorem mem_raised {event : Flow} : event ∈ raised parsed path content ↔
    (∃ name ∈ eventAttributes, ∃ line, event = handlerEvent path content line name ∧
      HandledOn parsed line name) ∨
    ∃ line, event = buttonEvent path content line ∧ ButtonOn parsed line ∧ ¬ Taken parsed line := by
  unfold raised
  rw [List.mem_append, mem_flatMap_handlersOf, List.mem_filter, mem_flatMap_buttonsOf,
    decide_eq_true_iff]
  refine or_congr_right ⟨?_, ?_⟩
  · rintro ⟨⟨line, rfl, button⟩, free⟩
    exact ⟨line, rfl, button, free⟩
  · rintro ⟨line, rfl, button, free⟩
    exact ⟨⟨line, rfl, button⟩, free⟩

/-- A handler's event is raised exactly when it is handled on its line. No button's event is equal
to it, since the names differ. -/
theorem handlerEvent_mem_raised {line : Int} {name : String} (known : name ∈ eventAttributes) :
    handlerEvent path content line name ∈ raised parsed path content ↔
      HandledOn parsed line name := by
  rw [mem_raised]
  constructor
  · rintro (⟨other, _, row, same, handled⟩ | ⟨row, same, _⟩)
    · obtain rfl : name = other := congrArg Flow.name same
      obtain rfl : line = row := congrArg Flow.line same
      exact handled
    · exact absurd (congrArg Flow.name same) (ne_button_of_mem known)
  · exact fun handled => Or.inl ⟨name, known, line, rfl, handled⟩

/-- A button's event is raised exactly when a button starts on the line and no element handles
anything there. -/
theorem buttonEvent_mem_raised {line : Int} :
    buttonEvent path content line ∈ raised parsed path content ↔
      ButtonOn parsed line ∧ ¬ Taken parsed line := by
  rw [mem_raised]
  constructor
  · rintro (⟨name, known, row, same, _⟩ | ⟨row, same, button⟩)
    · exact absurd (congrArg Flow.name same).symm (ne_button_of_mem known)
    · obtain rfl : line = row := congrArg Flow.line same
      exact button
  · exact fun button => Or.inr ⟨line, rfl, button⟩

/-- What is raised is drawn up on a line under a mark and named by it, as all flows of a file are.
So the laws of such flows apply to it. -/
theorem exists_mark_of_mem_raised {event : Flow} (member : event ∈ raised parsed path content) :
    ∃ (mark : Mark) (line : Int), event =
      onLine path line (codeAt (sourceLines content) line) mark.text mark.kind mark.last := by
  rcases mem_raised.mp member with ⟨name, known, line, rfl, _⟩ | ⟨line, rfl, _⟩
  · exact ⟨.event ⟨name, known⟩, line, rfl⟩
  · exact ⟨.button, line, rfl⟩

/-- What is raised is determined by its identifier: the identifier holds the line and the mark,
and these fix everything else in one source. -/
theorem eq_of_id_of_mem_raised {left right : Flow} (first : left ∈ raised parsed path content)
    (second : right ∈ raised parsed path content) (same : left.id = right.id) : left = right := by
  obtain ⟨mark, line, rfl⟩ := exists_mark_of_mem_raised first
  obtain ⟨sign, row, rfl⟩ := exists_mark_of_mem_raised second
  obtain ⟨_, rfl, rfl⟩ := identifier_injective same
  rfl

/-- Everything that is raised is listed, and nothing else: sorting keeps all events, and listing
them once drops only repetitions. -/
theorem mem_events {event : Flow} :
    event ∈ events parsed path content ↔ event ∈ raised parsed path content := by
  have sorted {other : Flow} : other ∈ byLine (raised parsed path content) ↔
      other ∈ raised parsed path content := List.mem_mergeSort
  rw [events_eq_unique]
  constructor
  · exact fun member => sorted.mp ((unique_sublist _).subset member)
  · intro member
    have listed := (gathersBy_addNew.mem_keys [] (byLine (raised parsed path content)) event.id).mpr
      (Or.inr (List.mem_map_of_mem (sorted.mpr member)))
    obtain ⟨twin, present, same⟩ := List.mem_map.mp listed
    have origin := sorted.mp ((unique_sublist _).subset present)
    rwa [← eq_of_id_of_mem_raised origin member same]

/-- If a test tells one event from all others that are raised, then the listed events that pass it
are this one, if it is raised, and otherwise none. -/
theorem filter_events {test : Flow → Bool} {event : Flow}
    (told : ∀ other ∈ raised parsed path content, test other = true ↔ other = event) :
    (events parsed path content).filter test =
      if event ∈ raised parsed path content then [event] else [] := by
  have distinct : (events parsed path content).Nodup := (nodup_unique _).of_map Flow.id
  have same : (events parsed path content).filter test =
      (events parsed path content).filter (· == event) := by
    apply List.filter_congr
    intro other member
    rw [Bool.eq_iff_iff, told other (mem_events.mp member), beq_iff_eq]
  rw [same, List.filter_beq]
  split
  · next member => rw [List.count_eq_one_of_mem distinct (mem_events.mpr member)]; rfl
  · next absent => rw [List.count_eq_zero_of_not_mem (mt mem_events.mp absent)]; rfl

variable (parsed path content) in
/-- What a node raises on a line: the events of handlers if the line is taken, and otherwise
those of buttons. -/
def raisedOn (line : Int) (node : Node) : List Flow :=
  (if Taken parsed line then handlersOf parsed path content node
    else buttonsOf parsed path content node).filter fun event => event.line = line

variable (parsed path content) in
/-- What is raised on a line is raised node by node. A line is taken or not as a whole, so the
events of both kinds never meet on it. -/
theorem filter_raised (line : Int) :
    (raised parsed path content).filter (fun event => event.line = line) =
      parsed.root.preorder.flatMap (raisedOn parsed path content line) := by
  unfold raised raisedOn
  rw [List.filter_append, List.filter_filter]
  by_cases taken : Taken parsed line
  · have none : (parsed.root.preorder.flatMap (buttonsOf parsed path content)).filter
        (fun event => decide (event.line = line) && decide (¬ Taken parsed event.line)) = [] := by
      rw [List.filter_eq_nil_iff]
      intro event _ kept
      simp only [Bool.and_eq_true, decide_eq_true_eq] at kept
      exact kept.2 (kept.1 ▸ taken)
    simp only [none, taken, ↓reduceIte, List.append_nil, List.filter_flatMap]
  · have none : (parsed.root.preorder.flatMap (handlersOf parsed path content)).filter
        (fun event => event.line = line) = [] := by
      rw [List.filter_eq_nil_iff]
      intro event member here
      exact taken (any_line_iff.mp (List.any_eq_true.mpr ⟨event, member, by simpa using here⟩))
    have free : (fun event : Flow => decide (event.line = line) &&
        decide (¬ Taken parsed event.line)) = fun event => decide (event.line = line) := by
      funext event
      by_cases here : event.line = line
      · simp [here, taken]
      · simp [here]
    simp only [none, free, taken, ↓reduceIte, List.nil_append, List.filter_flatMap]

variable (parsed path content) in
/-- The events of a line are gathered node by node.

Proof: an identifier tells the line, so that the events of the line are listed once by
themselves, and sorting by line does not change their order. -/
theorem filter_events_line (line : Int) :
    (events parsed path content).filter (fun event => event.line = line) =
      unique (parsed.root.preorder.flatMap (raisedOn parsed path content line)) := by
  have ordered : InLineOrder
      ((raised parsed path content).filter fun event => event.line = line) := by
    refine List.pairwise_of_forall_mem_list ?_
    intro left first right second
    simp only [List.mem_filter, decide_eq_true_eq] at first second
    exact (first.2.trans second.2.symm).le
  have told : ∀ left ∈ byLine (raised parsed path content),
      ∀ right ∈ byLine (raised parsed path content), left.id = right.id →
        decide (left.line = line) = decide (right.line = line) := by
    intro left first right second same
    rw [eq_of_id_of_mem_raised (List.mem_mergeSort.mp first) (List.mem_mergeSort.mp second) same]
  rw [events_eq_unique, unique, gathersBy_addNew.filter_foldl told, filter_byLine ordered,
    filter_raised]
  rfl

/-- An event that is raised at all is raised on its line by exactly the nodes that handle it there
or are buttons there. -/
theorem mem_raisedOn {event : Flow} {node : Node} (member : event ∈ raised parsed path content) :
    event ∈ raisedOn parsed path content event.line node ↔ Raises parsed node event := by
  unfold raisedOn Raises
  rw [List.mem_filter, decide_eq_true_iff, and_iff_left rfl]
  rcases mem_raised.mp member with ⟨name, known, line, rfl, handled⟩ | ⟨line, rfl, _, free⟩
  · have taken : Taken parsed (handlerEvent path content line name).line := ⟨name, known, handled⟩
    rw [if_pos taken, mem_handlersOf]
    constructor
    · rintro ⟨other, _, row, same, element, found⟩
      obtain rfl : name = other := congrArg Flow.name same
      obtain rfl : line = row := congrArg Flow.line same
      exact ⟨element, Or.inl ⟨known, found⟩⟩
    · rintro ⟨element, ⟨_, found⟩ | ⟨button, _⟩⟩
      · exact ⟨name, known, line, rfl, element, found⟩
      · exact absurd button (ne_button_of_mem known)
  · -- Where a button's event is listed, nothing is handled, so only buttons are looked at.
    have untaken : ¬ Taken parsed (buttonEvent path content line).line := free
    rw [if_neg untaken, mem_buttonsOf]
    constructor
    · rintro ⟨row, same, element, button, starts⟩
      obtain rfl : line = row := congrArg Flow.line same
      exact ⟨element, Or.inr ⟨rfl, button, starts⟩⟩
    · rintro ⟨element, ⟨known, _⟩ | ⟨_, button, starts⟩⟩
      · exact absurd rfl (ne_button_of_mem known)
      · exact ⟨line, rfl, element, button, starts⟩

variable (parsed) in
/-- The places, in the order of the tree, of the nodes that raise an event. -/
def raisedAt (event : Flow) : Set Nat :=
  {place | ∃ node, parsed.root.preorder[place]? = some node ∧ Raises parsed node event}

/-- The nodes that give an event's identifier on its line are those that raise the event, because
an identifier tells the event. -/
theorem givenAt_raisedOn {event : Flow} (member : event ∈ raised parsed path content) :
    givenAt Flow.id (raisedOn parsed path content event.line) parsed.root.preorder event.id =
      raisedAt parsed event := by
  ext place
  refine exists_congr fun node => and_congr_right fun found => ?_
  rw [← mem_raisedOn member, List.mem_map]
  constructor
  · rintro ⟨twin, given, same⟩
    have listed : twin ∈ parsed.root.preorder.flatMap (raisedOn parsed path content event.line) :=
      List.mem_flatMap.mpr ⟨node, List.mem_of_getElem? found, given⟩
    rw [← filter_raised] at listed
    obtain rfl := eq_of_id_of_mem_raised (List.mem_filter.mp listed).1 member same
    exact given
  · exact fun given => ⟨event, given, rfl⟩

variable (parsed path content) in
/-- The events stand in the order of their lines, and those of one line in the order of the
first nodes that raise them. -/
theorem pairwise_events : (events parsed path content).Pairwise fun left right =>
    left.line < right.line ∨ left.line = right.line ∧ ∃ first second,
      IsLeast (raisedAt parsed left) first ∧ IsLeast (raisedAt parsed right) second ∧
        first ≤ second := by
  rw [List.pairwise_iff_forall_sublist]
  intro left right pair
  have lines : left.line ≤ right.line :=
    List.pairwise_iff_forall_sublist.mp (inLineOrder_events parsed path content) pair
  rcases lines.lt_or_eq with before | same
  · exact Or.inl before
  · refine Or.inr ⟨same, ?_⟩
    have onLine : [left, right].Sublist
        ((events parsed path content).filter fun event => event.line = left.line) := by
      simpa [same] using pair.filter fun event => event.line = left.line
    have first := mem_events.mp (pair.subset (by simp : left ∈ [left, right]))
    have second := mem_events.mp (pair.subset (by simp : right ∈ [left, right]))
    rw [filter_events_line] at onLine
    have places := List.pairwise_iff_forall_sublist.mp
      (gathersBy_addNew.pairwise_flatMap _ parsed.root.preorder) onLine
    rw [givenAt_raisedOn first, same, givenAt_raisedOn second] at places
    exact places

end Raised

/-- The events of a tree: a handler's event is listed once for each line and attribute that
some element handles, a button's event once for each line on which a button starts and no
element handles anything, and there are no others. They stand in the order of their lines,
and within a line in the order of the first elements that raise them.

Proof: an event is told among all that is raised by its line and name, and it is listed when
it is raised. The order within a line is that of the nodes, since the events of one line are
gathered node by node. -/
theorem events_stand_once_in_tree_order (parsed : Parsed) (path content : String) :
    (∀ line, ∀ name ∈ eventAttributes,
      (events parsed path content).filter (fun event => event.line = line ∧ event.name = name) =
        if HandledOn parsed line name then [handlerEvent path content line name] else []) ∧
    (∀ line,
      (events parsed path content).filter (fun event => event.line = line ∧ event.name = "button") =
        if ButtonOn parsed line ∧ ¬ Taken parsed line then [buttonEvent path content line]
        else []) ∧
    (events parsed path content).map Flow.name ⊆ "button" :: eventAttributes ∧
    (events parsed path content).Pairwise fun left right =>
      left.line < right.line ∨ left.line = right.line ∧ ∃ first second,
        IsLeast (raisedAt parsed left) first ∧ IsLeast (raisedAt parsed right) second ∧
          first ≤ second := by
  refine ⟨?_, ?_, ?_, pairwise_events parsed path content⟩
  · intro line name known
    have told : ∀ other ∈ raised parsed path content,
        decide (other.line = line ∧ other.name = name) = true ↔
          other = handlerEvent path content line name := by
      intro other member
      rw [decide_eq_true_iff]
      constructor
      · rintro ⟨rfl, rfl⟩
        rcases mem_raised.mp member with ⟨_, _, _, rfl, _⟩ | ⟨_, rfl, _⟩
        · rfl
        · exact absurd rfl (ne_button_of_mem known)
      · rintro rfl
        exact ⟨rfl, rfl⟩
    exact (filter_events told).trans (if_congr (handlerEvent_mem_raised known) rfl rfl)
  · intro line
    have told : ∀ other ∈ raised parsed path content,
        decide (other.line = line ∧ other.name = "button") = true ↔
          other = buttonEvent path content line := by
      intro other member
      rw [decide_eq_true_iff]
      constructor
      · rintro ⟨rfl, named⟩
        rcases mem_raised.mp member with ⟨_, known, _, rfl, _⟩ | ⟨_, rfl, _⟩
        · exact absurd named (ne_button_of_mem known)
        · rfl
      · rintro rfl
        exact ⟨rfl, rfl⟩
    exact (filter_events told).trans (if_congr buttonEvent_mem_raised rfl rfl)
  · intro name listed
    obtain ⟨event, member, rfl⟩ := List.mem_map.mp listed
    rcases mem_raised.mp (mem_events.mp member) with ⟨name, known, line, rfl, _⟩ | ⟨line, rfl, _⟩
    · exact List.mem_cons_of_mem _ known
    · exact List.mem_cons_self

/-- An element whose handler stands on the next line, in front of a button there, and a button
on a line of its own. -/
def sampleMarkup : String := "<b onClick=\n\x7bx\x7d/><button/>\n<button/>"

/-- The sample as it is read, with the spans and rows of its nodes. -/
def parsedMarkup : Parsed where
  root := .mk "program" ⟨0, 36, 0, 2⟩ none true
    [.mk "jsx_self_closing_element" ⟨0, 17, 0, 1⟩ none true
      [rowNode "identifier" 1 2 0 (some "name") [],
        .mk "jsx_attribute" ⟨3, 15, 0, 1⟩ none true
          [rowNode "property_identifier" 3 10 0 none [],
            rowNode "jsx_expression" 12 15 1 none []]],
      rowNode "jsx_self_closing_element" 17 26 1 none
        [rowNode "identifier" 18 24 1 (some "name") []],
      rowNode "jsx_self_closing_element" 27 36 2 none
        [rowNode "identifier" 28 34 2 (some "name") []]]
  bytes := Text.encode sampleMarkup.toList

/-- The handler is listed where its value starts. The button beside it yields to it, the other
one does not. -/
theorem parsedMarkup_events_stand_once :
    (events parsedMarkup "a.jsx" sampleMarkup).filter
        (fun event => event.line = 2 ∧ event.name = "onClick") =
      [handlerEvent "a.jsx" sampleMarkup 2 "onClick"] ∧
    (events parsedMarkup "a.jsx" sampleMarkup).filter
        (fun event => event.line = 2 ∧ event.name = "button") = [] ∧
    (events parsedMarkup "a.jsx" sampleMarkup).filter
        (fun event => event.line = 3 ∧ event.name = "button") =
      [buttonEvent "a.jsx" sampleMarkup 3] := by
  obtain ⟨handlers, buttons, _⟩ := events_stand_once_in_tree_order parsedMarkup "a.jsx" sampleMarkup
  refine ⟨?_, ?_, ?_⟩
  · exact (handlers 2 "onClick" (by decide)).trans (if_pos (by decide +kernel))
  · exact (buttons 2).trans (if_neg (by decide +kernel))
  · exact (buttons 3).trans (if_pos (by decide +kernel))

end ScreenAtlas.Flow
