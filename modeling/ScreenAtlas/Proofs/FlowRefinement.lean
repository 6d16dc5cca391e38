import ScreenAtlas.Proofs.FlowIdentity

/-!
# The tree of a script refines what its lines spell out

The flows that the lines of a script spell out are the base. A tree replaces the
events among them, when it has any, and tells handler functions what they call;
everything else stays, in its order. Afterwards the flows are sorted by line and
listed once for each identifier. Neither step changes what is in the list: the
identifiers are distinct before, since an identifier tells events from other
flows, and a stable sort keeps every part that is in order already.
-/
namespace ScreenAtlas.Flow

open ScreenAtlas.Script ScreenAtlas.Text

/-- The flows stand in the order of their lines. -/
def InLineOrder (flows : List Flow) : Prop :=
  flows.Pairwise fun left right => left.line ≤ right.line

/-- The order of lines is transitive, as that of their numbers is. Sorting needs this. -/
theorem line_trans (first second third : Flow) (earlier : decide (first.line ≤ second.line) = true)
    (later : decide (second.line ≤ third.line) = true) :
    decide (first.line ≤ third.line) = true := by
  simp only [decide_eq_true_eq] at *
  omega

/-- Of two flows one stands no later than the other, so that sorting by line compares them all. -/
theorem line_total (first second : Flow) :
    (decide (first.line ≤ second.line) || decide (second.line ≤ first.line)) = true := by
  simp only [Bool.or_eq_true, decide_eq_true_eq]
  omega

/-- Sorting by line puts flows in the order of their lines, each before all that follow on later
lines. -/
theorem inLineOrder_byLine (flows : List Flow) : InLineOrder (byLine flows) :=
  (List.pairwise_mergeSort line_trans line_total flows).imp of_decide_eq_true

/-- A part that stands in the order of its lines is not changed by sorting the
whole.

Proof: the sort is stable, so that the part is found in the sorted flows in its own
order, and sorting neither adds to it nor takes away. -/
theorem filter_byLine {keep : Flow → Bool} {flows : List Flow}
    (ordered : InLineOrder (flows.filter keep)) :
    (byLine flows).filter keep = flows.filter keep := by
  have found : (flows.filter keep).Sublist (byLine flows) :=
    List.sublist_mergeSort line_trans line_total (ordered.imp decide_eq_true) List.filter_sublist
  have part : (flows.filter keep).Sublist ((byLine flows).filter keep) := by
    simpa using found.filter keep
  have size : ((byLine flows).filter keep).length = (flows.filter keep).length :=
    ((List.mergeSort_perm flows _).filter keep).length_eq
  exact (part.eq_of_length size.symm).symm

/-- The flows of one line stand on it: each of them carries the number of the line. -/
theorem line_of_mem_ofLine {path : String} {number : Int} {line : List Char} {flow : Flow}
    (member : flow ∈ ofLine path number line) : flow.line = number := by
  obtain ⟨mark, name, rfl⟩ := exists_mark_of_mem_ofLine member
  rfl

/-- The flows of lines that are numbered upwards stand in the order of the lines. The induction is
on the lines, with any first number. -/
theorem inLineOrder_ofLines (path : String) (number : Int) (lines : List (List Char)) :
    InLineOrder (ofLines path number lines) := by
  induction lines generalizing number with
  | nil => exact List.Pairwise.nil
  | cons line rest inductionHypothesis =>
    refine List.pairwise_append.mpr ⟨?_, inductionHypothesis (number + 1), ?_⟩
    · apply List.pairwise_of_forall_mem_list
      intro left leftMember right rightMember
      rw [line_of_mem_ofLine leftMember, line_of_mem_ofLine rightMember]
    · intro left leftMember right rightMember
      obtain ⟨index, other, _, stands⟩ := exists_line_of_mem_ofLines rightMember
      rw [line_of_mem_ofLine leftMember, line_of_mem_ofLine stands]
      omega

/-- The flows that a source spells out stand in the order of their lines, since the lines are read
from the top. -/
theorem inLineOrder_spelled (path content : String) : InLineOrder (spelled path content) :=
  (inLineOrder_ofLines path 1 (sourceLines content)).sublist (unique_sublist _)

/-- The events of a tree stand in the order of their lines, because they are sorted before they
are listed once. -/
theorem inLineOrder_events (parsed : Parsed) (path content : String) :
    InLineOrder (events parsed path content) :=
  (inLineOrder_byLine _).sublist (unique_sublist _)

/-- What a flow calls by a graph: only functions call anything. -/
def callsIn (graph : CallGraph) (flow : Flow) : List String :=
  if flow.kind = functionCall then (graph.lookup (flow.name, flow.line)).getD [] else []

/-- A flow with what it calls by a graph. -/
def informed (graph : CallGraph) (flow : Flow) : Flow := { flow with calls := callsIn graph flow }

/-- A flow that calls nothing yet learns what it calls, and nothing else about it
changes. -/
theorem withCalls_eq_informed (graph : CallGraph) {flow : Flow} (silent : flow.calls = []) :
    withCalls graph flow = informed graph flow := by
  obtain ⟨id, kind, name, file, line, code, calls⟩ := flow
  obtain rfl : calls = [] := silent
  unfold withCalls informed callsIn
  by_cases function : kind = functionCall
  · subst function
    simp only [beq_self_eq_true, ↓reduceIte]
    rcases graph.lookup (name, line) with _ | _ | ⟨first, rest⟩ <;> rfl
  · simp [function]

section Replaced

variable (parsed : Parsed) (path content : String)

/-- The spelled flows with the events of the tree in the place of the spelled ones,
if the tree has any. -/
def replaced : List Flow :=
  match events parsed path content with
  | [] => spelled path content
  | events => ((spelled path content).filter fun flow => flow.kind != uiEvent) ++ events

/-- The events of a tree are of the kind of events, whether a handler or a button raises them. -/
theorem kind_of_mem_events {flow : Flow} (member : flow ∈ events parsed path content) :
    flow.kind = uiEvent := by
  obtain ⟨mark, kind, line, name, rfl⟩ := drawn_of_mem_events member
  exact kind

/-- The flows before they are told what they call are drawn up on the lines of the
source. -/
theorem drawn_of_mem_replaced {flow : Flow} (member : flow ∈ replaced parsed path content) :
    ∃ mark, Drawn path (sourceLines content) mark flow := by
  unfold replaced at member
  split at member
  · exact drawn_of_mem_spelled member
  · rcases List.mem_append.mp member with spelled | raised
    · exact drawn_of_mem_spelled (List.mem_filter.mp spelled).1
    · obtain ⟨mark, _, drawn⟩ := drawn_of_mem_events raised
      exact ⟨mark, drawn⟩

/-- The identifiers of the flows with their events replaced are distinct: those of events are
never those of other flows, and each part is distinct by itself. -/
theorem nodup_replaced : ((replaced parsed path content).map Flow.id).Nodup := by
  have plain : ((spelled path content).map Flow.id).Nodup := nodup_unique _
  unfold replaced
  split
  · exact plain
  · next raised _ =>
    rw [List.map_append]
    refine List.Nodup.append ?_ (nodup_unique _) ?_
    · exact plain.sublist (List.filter_sublist.map Flow.id)
    · intro id first second
      obtain ⟨flow, kept, rfl⟩ := List.mem_map.mp first
      obtain ⟨event, listed, same⟩ := List.mem_map.mp second
      obtain ⟨found, other⟩ := List.mem_filter.mp kept
      obtain ⟨mark, drawn⟩ := drawn_of_mem_spelled found
      obtain ⟨sign, kind, raised⟩ := drawn_of_mem_events listed
      obtain ⟨_, _, rfl⟩ := raised.eq_of_id drawn same
      obtain ⟨line, name, rfl⟩ := drawn
      simp [onLine, kind] at other

/-- The flows that are no events are those that the lines spell out, in the same order, whatever
the tree is. -/
theorem filter_replaced_others :
    ((replaced parsed path content).filter fun flow => flow.kind != uiEvent) =
      (spelled path content).filter fun flow => flow.kind != uiEvent := by
  unfold replaced
  split
  · rfl
  · have none : ((events parsed path content).filter fun flow => flow.kind != uiEvent) = [] := by
      rw [List.filter_eq_nil_iff]
      intro flow member
      simp [kind_of_mem_events parsed path content member]
    simp [none]

/-- The events among the flows are those of the tree, or the spelled ones when the tree has none.
The two are never mixed. -/
theorem filter_replaced_events :
    ((replaced parsed path content).filter fun flow => flow.kind == uiEvent) =
      if (events parsed path content).isEmpty then
        (spelled path content).filter fun flow => flow.kind == uiEvent
      else events parsed path content := by
  unfold replaced
  split
  · next none => simp [none]
  · next some =>
    have nonempty : (events parsed path content).isEmpty = false := by simpa using some
    have all : ((events parsed path content).filter fun flow => flow.kind == uiEvent) =
        events parsed path content := by
      rw [List.filter_eq_self]
      intro flow member
      simp [kind_of_mem_events parsed path content member]
    simp [nonempty, all, List.filter_filter]

/-- Refining sorts the flows by line and tells them what they call. No flow is
dropped for its identifier. -/
theorem refine_eq : refine parsed path content (spelled path content) =
    byLine ((replaced parsed path content).map (informed (callGraph parsed))) := by
  have told : (replaced parsed path content).map (withCalls (callGraph parsed)) =
      (replaced parsed path content).map (informed (callGraph parsed)) := by
    apply List.map_congr_left
    intro flow member
    obtain ⟨mark, line, name, rfl⟩ := drawn_of_mem_replaced parsed path content member
    exact withCalls_eq_informed (callGraph parsed) rfl
  have distinct : ((byLine ((replaced parsed path content).map
      (informed (callGraph parsed)))).map Flow.id).Nodup := by
    refine ((List.mergeSort_perm _ _).map Flow.id).nodup_iff.mpr ?_
    rw [List.map_map]
    exact nodup_replaced parsed path content
  rw [← told] at distinct ⊢
  exact gathersBy_addNew.foldl_eq distinct

/-- A class of kinds that stands in the order of its lines is refined in place: sorting does not
move it, and each flow learns what it calls. -/
theorem filter_refine (keep : String → Bool)
    (ordered : InLineOrder ((replaced parsed path content).filter fun flow => keep flow.kind)) :
    ((refine parsed path content (spelled path content)).filter fun flow => keep flow.kind) =
      ((replaced parsed path content).filter fun flow => keep flow.kind).map
        (informed (callGraph parsed)) := by
  have moved : ((replaced parsed path content).map (informed (callGraph parsed))).filter
      (fun flow => keep flow.kind) = ((replaced parsed path content).filter
        fun flow => keep flow.kind).map (informed (callGraph parsed)) := List.filter_map
  rw [refine_eq, filter_byLine, moved]
  rw [moved]
  exact List.pairwise_map.mpr ordered

end Replaced

/-- How the flows of a script with a tree come from those that its lines spell out:
the flows that are no events are the same up to what they call, the events are those
of the tree if it has any, and what a function calls is what the graph lists under
its name and line. -/
structure Refines (parsed : Parsed) (path content : String) (flows : List Flow) : Prop where
  others : List.Forall₂ (fun plain flow => flow = { plain with calls := flow.calls })
    ((spelled path content).filter fun flow => flow.kind != uiEvent)
    (flows.filter fun flow => flow.kind != uiEvent)
  raised : (flows.filter fun flow => flow.kind == uiEvent) =
    if (events parsed path content).isEmpty then
      (spelled path content).filter fun flow => flow.kind == uiEvent
    else events parsed path content
  called : ∀ flow ∈ flows, flow.calls =
    if flow.kind = functionCall then ((callGraph parsed).lookup (flow.name, flow.line)).getD []
    else []

/-- What holds of the flows of every file: they stand in the order of their lines,
their identifiers are distinct and each of them quotes its line. -/
structure Listed (content : String) (flows : List Flow) : Prop where
  ordered : InLineOrder flows
  distinct : (flows.map Flow.id).Nodup
  quoted : ∀ flow ∈ flows, flow.code = codeAt (sourceLines content) flow.line

/-- The spelled flows of a file are in line order, have distinct identifiers and quote their
lines. -/
theorem listed_spelled (path content : String) : Listed content (spelled path content) := by
  refine ⟨inLineOrder_spelled path content, nodup_unique _, ?_⟩
  intro flow member
  obtain ⟨mark, line, name, rfl⟩ := drawn_of_mem_spelled member
  rfl

/-- A refined flow is one of those that a tree was given, told what it calls. -/
theorem exists_of_mem_refine {parsed : Parsed} {path content : String} {flow : Flow}
    (member : flow ∈ refine parsed path content (spelled path content)) :
    ∃ origin mark, Drawn path (sourceLines content) mark origin ∧
      flow = informed (callGraph parsed) origin := by
  rw [refine_eq] at member
  obtain ⟨origin, present, rfl⟩ := List.mem_map.mp (List.mem_mergeSort.mp member)
  obtain ⟨mark, drawn⟩ := drawn_of_mem_replaced parsed path content present
  exact ⟨origin, mark, drawn, rfl⟩

/-- The refined flows of a file are in line order, have distinct identifiers and quote their
lines, as the flows that the tree was given do. -/
theorem listed_refine (parsed : Parsed) (path content : String) :
    Listed content (refine parsed path content (spelled path content)) := by
  refine ⟨(inLineOrder_byLine _).sublist (unique_sublist _), nodup_unique _, ?_⟩
  intro flow member
  obtain ⟨origin, mark, ⟨line, name, rfl⟩, rfl⟩ := exists_of_mem_refine member
  rfl

/-- The flows of every file are listed, whatever becomes of its tree: they are the spelled ones or
the refined ones. -/
theorem listed_ofFile (reading : Reading) (path content : String) :
    Listed content (ofFile reading path content) := by
  unfold ofFile ofParsed
  dsimp only
  split
  · exact listed_spelled path content
  · next parsed _ => exact listed_refine parsed path content

/-- Every flow of a file has an identifier made of the file, its line and a mark. -/
theorem exists_mark_of_mem_ofFile {reading : Reading} {path content : String} {flow : Flow}
    (member : flow ∈ ofFile reading path content) :
    ∃ mark : Mark, flow.file = path ∧ flow.kind = mark.kind ∧
      flow.id = identifier path flow.line mark.text := by
  unfold ofFile ofParsed at member
  dsimp only at member
  split at member
  · obtain ⟨mark, line, name, rfl⟩ := drawn_of_mem_spelled member
    exact ⟨mark, rfl, rfl, rfl⟩
  · obtain ⟨origin, mark, ⟨line, name, rfl⟩, rfl⟩ := exists_of_mem_refine member
    exact ⟨mark, rfl, rfl, rfl⟩

/-- Events call nothing, so that a graph leaves them as they are, even if it has a row of their
name and line. -/
theorem informed_event (graph : CallGraph) {path : String} {lines : List (List Char)} {mark : Mark}
    {flow : Flow} (drawn : Drawn path lines mark flow) (event : flow.kind = uiEvent) :
    informed graph flow = flow := by
  obtain ⟨line, name, rfl⟩ := drawn
  have other : mark.kind ≠ functionCall := by
    rw [show mark.kind = uiEvent from event]
    decide
  simp [informed, callsIn, onLine, other]

/-- The refined flows come from the spelled ones as described, each class of kinds for itself. -/
theorem refines_refine (parsed : Parsed) (path content : String) :
    Refines parsed path content (refine parsed path content (spelled path content)) := by
  have plain := filter_replaced_others parsed path content
  have raised := filter_replaced_events parsed path content
  constructor
  · rw [filter_refine parsed path content (· != uiEvent), plain]
    · exact List.forall₂_map_right_iff.mpr (List.forall₂_same.mpr fun _ _ => rfl)
    · rw [plain]
      exact (inLineOrder_spelled path content).sublist List.filter_sublist
  · rw [filter_refine parsed path content (· == uiEvent), ← raised]
    · refine (List.map_congr_left ?_).trans (List.map_id _)
      intro flow member
      obtain ⟨present, event⟩ := List.mem_filter.mp member
      obtain ⟨mark, drawn⟩ := drawn_of_mem_replaced parsed path content present
      exact informed_event (callGraph parsed) drawn (eq_of_beq event)
    · rw [raised]
      split
      · exact (inLineOrder_spelled path content).sublist List.filter_sublist
      · exact inLineOrder_events parsed path content
  · intro flow member
    obtain ⟨origin, mark, _, rfl⟩ := exists_of_mem_refine member
    rfl

/-- A tree only refines what the lines of a file spell out. Without one the flows of
the file are the spelled ones; with one they come from those as described. Either
way they stand in the order of their lines, have distinct identifiers and quote
their lines.

Proof: the identifiers are distinct before the flows are listed once for each, so
that refining is no more than a stable sort of the spelled flows with their events
replaced, and such a sort keeps the events and the other flows in their order. -/
theorem tree_refines_spelled_flows (reading : Reading) (path content : String) :
    (isScript path = false ∨ reading.parsed? (dialectOf path) content = none →
      ofFile reading path content = spelled path content) ∧
    (∀ parsed, isScript path = true → reading.parsed? (dialectOf path) content = some parsed →
      Refines parsed path content (ofFile reading path content)) ∧
    Listed content (ofFile reading path content) := by
  refine ⟨?_, ?_, listed_ofFile reading path content⟩
  · rintro (other | broken)
    · simp [ofFile, ofParsed, other]
    · simp [ofFile, ofParsed, broken]
  · intro parsed script read
    simp only [ofFile, ofParsed, script, read, ↓reduceIte]
    exact refines_refine parsed path content

/-- A handler with an event in the comment behind it, and an element with an event. -/
def sampleScript : String :=
  "const onGo = () => go(); // onClick=\x7bx\x7d\n<b onBlur=\x7by\x7d />"

/-- A node that starts and ends on one row. -/
def rowNode (kind : String) (start stop : Nat) (row : Int) (role : Option String)
    (children : List Node) : Node :=
  .mk kind ⟨start, stop, row, row⟩ role true children

/-- The tree of the sample, without the comment. -/
def sampleTree : Node :=
  .mk "program" ⟨0, 56, 0, 1⟩ none true
    [rowNode "variable_declarator" 6 23 0 none
      [rowNode "identifier" 6 10 0 (some "name") [],
        rowNode "arrow_function" 13 23 0 (some "value")
          [rowNode "call_expression" 19 23 0 (some "body")
            [rowNode "identifier" 19 21 0 (some "function") [],
              rowNode "arguments" 21 23 0 (some "arguments") []]]],
      rowNode "jsx_self_closing_element" 40 56 1 none
        [rowNode "identifier" 41 42 1 (some "name") [],
          rowNode "jsx_attribute" 43 53 1 none
            [rowNode "property_identifier" 43 49 1 none [],
              rowNode "jsx_expression" 50 53 1 none []]]]

/-- The sample read as a script: the tree drops the event of the comment and tells
the handler what it calls. -/
theorem refine_sampleTree : (ofFile (fun _ _ => some sampleTree) "a.jsx" sampleScript).map
      (fun flow => (flow.id, flow.calls)) =
    [("a.jsx:1:function:onGo", ["go"]), ("a.jsx:2:event:onBlur", [])] := by
  have script : isScript "a.jsx" = true := by decide +kernel
  have ordered : InLineOrder ((replaced ⟨sampleTree, Text.encode sampleScript.toList⟩ "a.jsx"
      sampleScript).map (informed (callGraph ⟨sampleTree, Text.encode sampleScript.toList⟩))) := by
    unfold InLineOrder
    decide +kernel
  simp only [ofFile, ofParsed, Reading.parsed?, script, Option.map_some, ↓reduceIte]
  rw [refine_eq, byLine, List.mergeSort_of_pairwise (ordered.imp decide_eq_true)]
  decide +kernel

/-- Read as a plain text the sample has the flows that its lines spell out, among
them the event of the comment. -/
theorem sampleTree_refines_spelled_flows :
    ofFile (fun _ _ => some sampleTree) "notes.md" sampleScript =
        spelled "notes.md" sampleScript ∧
      (spelled "notes.md" sampleScript).map (fun flow => (flow.id, flow.calls)) =
        [("notes.md:1:event:onClick", []), ("notes.md:1:function:onGo", []),
          ("notes.md:2:event:onBlur", [])] ∧
      Refines ⟨sampleTree, Text.encode sampleScript.toList⟩ "a.jsx" sampleScript
        (ofFile (fun _ _ => some sampleTree) "a.jsx" sampleScript) ∧
      (ofFile (fun _ _ => some sampleTree) "a.jsx" sampleScript).map
          (fun flow => (flow.id, flow.calls)) =
        [("a.jsx:1:function:onGo", ["go"]), ("a.jsx:2:event:onBlur", [])] :=
  ⟨(tree_refines_spelled_flows _ _ _).1 (.inl (by decide +kernel)), by decide +kernel,
    (tree_refines_spelled_flows _ _ _).2.1 _ (by decide +kernel) rfl, refine_sampleTree⟩

end ScreenAtlas.Flow
