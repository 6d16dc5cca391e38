import Mathlib
import ScreenAtlas.Flow.Analysis
import ScreenAtlas.Proofs.Gathering
import ScreenAtlas.Proofs.Search

/-!
# What a flow's identifier says

The identifier of a flow joins its file, its line and a mark by colons. The file is
free text and may hold colons and figures itself. Still an identifier can be read
in one way only, from its end: a line and the parts of a mark hold no colon, and
the last part tells whether the mark has a word in front of it. So the identifier
determines the file, the line and the mark, and with the mark the kind.

Every flow that is found, on the lines of a source or in its tree, is drawn up in
the same way: it has a mark, it quotes its line and it calls nothing yet. All that
is said later about identifiers, kinds and quoted lines follows from this.
-/
namespace ScreenAtlas.Flow

open ScreenAtlas.Script ScreenAtlas.Text

/-- The name of a handler function. Only its start and the absence of colons
matter here. -/
@[ext] structure HandlerName where
  text : String
  starts : text.toList.head? = some 'h' ∨ text.toList.head? = some 'o'
  plain : ':' ∉ text.toList

/-- What tells a flow from the other flows of its line. -/
inductive Mark where
  | event (raised : { name : String // name ∈ eventAttributes })
  | button
  | handler (name : HandlerName)
  | request
  | table
  | query

namespace Mark

/-- The word in front of what a mark names, for the marks that have one. -/
def lead? : Mark → Option String
  | event _ => some "event"
  | handler _ => some "function"
  | button | request | table | query => none

/-- The last part of a mark, which is the name of an event or of a function, or a fixed word. -/
def last : Mark → String
  | event raised => raised
  | button => "button"
  | handler name => name.text
  | request => "api"
  | table => "db"
  | query => "sql"

/-- A mark as it stands in an identifier. -/
def text (mark : Mark) : String :=
  match mark.lead? with
  | some lead => lead ++ ":" ++ mark.last
  | none => mark.last

/-- The kind of the flows with a mark. -/
def kind : Mark → String
  | event _ | button => uiEvent
  | handler _ => functionCall
  | request => apiCall
  | table | query => dbQuery

/-- The last part of a mark holds no colon: names of events and the fixed words are spelled out,
and names of handlers are free of them by definition. -/
theorem last_plain (mark : Mark) : ':' ∉ mark.last.toList := by
  cases mark with
  | event raised =>
    have plain : ∀ name ∈ eventAttributes, ':' ∉ name.toList := by decide
    exact plain raised.1 raised.2
  | handler name => exact name.plain
  | _ => decide

/-- The word in front of a mark, where there is one, holds no colon either, so that a mark has at
most one colon. -/
theorem lead_plain {mark : Mark} {lead : String} (leads : mark.lead? = some lead) :
    ':' ∉ lead.toList := by
  cases mark <;> cases leads <;> decide

/-- The last part tells whether there is a word in front of it: the names of events and handlers
start with `h` or `o`, and no fixed word does. -/
theorem lead?_isSome_iff (mark : Mark) : mark.lead?.isSome = true ↔
    mark.last.toList.head? = some 'h' ∨ mark.last.toList.head? = some 'o' := by
  cases mark with
  | event raised =>
    have starts : ∀ name ∈ eventAttributes, name.toList.head? = some 'o' := by decide
    exact ⟨fun _ => Or.inr (starts raised.1 raised.2), fun _ => rfl⟩
  | handler name => exact ⟨fun _ => name.starts, fun _ => rfl⟩
  | _ => decide

/-- A mark is determined by the word in front and the last part, as two kinds of marks never agree
in both. -/
theorem eq_of_parts {left right : Mark} (leads : left.lead? = right.lead?)
    (lasts : left.last = right.last) : left = right := by
  cases left <;> cases right <;> simp_all [lead?, last, HandlerName.ext_iff, Subtype.ext_iff]

end Mark

/-- A text is split at its last colon in one way, provided that what stands behind the colon holds
none. -/
theorem eq_of_split_at_last_colon {front behind left right : List Char} (plainLeft : ':' ∉ left)
    (plainRight : ':' ∉ right) (same : front ++ ':' :: left = behind ++ ':' :: right) :
    front = behind ∧ left = right := by
  rcases List.append_eq_append_iff.mp same with ⟨middle, split, rest⟩ | ⟨middle, split, rest⟩
  · cases middle with
    | nil => simp_all
    | cons c middle =>
      obtain ⟨_, rfl⟩ := List.cons.inj rest
      simp at plainLeft
  · cases middle with
    | nil => simp_all
    | cons c middle =>
      obtain ⟨_, rfl⟩ := List.cons.inj rest
      simp at plainRight

/-- A line number holds no colon, since it is written with figures and perhaps a sign. -/
theorem colon_not_mem_line (line : Int) : ':' ∉ (toString line).toList := by
  have digits (n : Nat) : ':' ∉ n.repr.toList := by
    rw [Nat.toList_repr]
    intro member
    exact absurd (Nat.isDigit_of_mem_toDigits (by decide) (by decide) member) (by decide)
  rw [Int.toString_eq_repr, Int.repr_eq_if]
  split
  · exact digits _
  · simpa using digits _

/-- A file and a line, as they stand in front of the rest of an identifier. -/
def place (file : String) (line : Int) : List Char := file.toList ++ ':' :: (toString line).toList

/-- The file and the line can be told apart in front of an identifier, even if the file holds
colons: the line holds none, so the last colon stands before it. -/
theorem place_injective {file other : String} {line row : Int}
    (same : place file line = place other row) : file = other ∧ line = row := by
  obtain ⟨files, lines⟩ :=
    eq_of_split_at_last_colon (colon_not_mem_line line) (colon_not_mem_line row) same
  refine ⟨String.toList_inj.mp files, ?_⟩
  have spelled := String.toList_inj.mp lines
  rw [Int.toString_eq_repr, Int.toString_eq_repr] at spelled
  exact Int.repr_inj.mp spelled

/-- All of an identifier but the last part of its mark. -/
def stem (file : String) (line : Int) : Option String → List Char
  | none => place file line
  | some lead => place file line ++ ':' :: lead.toList

/-- The last part of the mark is the last part of the identifier, and what stands in front of its
colon is the stem. -/
theorem toList_identifier (file : String) (line : Int) (mark : Mark) :
    (identifier file line mark.text).toList =
      stem file line mark.lead? ++ ':' :: mark.last.toList := by
  unfold identifier Mark.text stem place
  cases mark.lead? <;> simp

/-- An identifier determines the file, the line and the mark, whatever the file's
path holds.

Proof: the last parts agree, since neither holds a colon, and they tell whether
words stand in front of them. What remains is split at its last colon again, once
for the words and once for the lines. -/
theorem identifier_injective {file other : String} {line row : Int} {left right : Mark}
    (same : identifier file line left.text = identifier other row right.text) :
    file = other ∧ line = row ∧ left = right := by
  have shown := congrArg String.toList same
  rw [toList_identifier, toList_identifier] at shown
  obtain ⟨stems, ends⟩ := eq_of_split_at_last_colon left.last_plain right.last_plain shown
  have lasts : left.last = right.last := String.toList_inj.mp ends
  have leading : left.lead?.isSome = true ↔ right.lead?.isSome = true := by
    rw [Mark.lead?_isSome_iff, Mark.lead?_isSome_iff, lasts]
  suffices given : place file line = place other row ∧ left.lead? = right.lead? by
    obtain ⟨files, lines⟩ := place_injective given.1
    exact ⟨files, lines, Mark.eq_of_parts given.2 lasts⟩
  cases first : left.lead? with
  | none =>
    cases second : right.lead? with
    | none =>
      rw [first, second] at stems
      exact ⟨stems, rfl⟩
    | some word => simp [first, second] at leading
  | some lead =>
    cases second : right.lead? with
    | none => simp [first, second] at leading
    | some word =>
      rw [first, second] at stems
      obtain ⟨places, words⟩ :=
        eq_of_split_at_last_colon (Mark.lead_plain first) (Mark.lead_plain second) stems
      exact ⟨places, congrArg some (String.toList_inj.mp words)⟩

/-- The name of a recognised event attribute is in the list of event attributes, because
recognising means trying each of them. -/
theorem mem_of_eventAttribute? {before : Option Char} {text behind : List Char} {event : String}
    (accepted : eventAttribute? before text = some (event, behind)) : event ∈ eventAttributes := by
  unfold eventAttribute? at accepted
  split at accepted
  · obtain ⟨⟨word, rest⟩, chosen, further⟩ := Option.bind_eq_some_iff.mp accepted
    obtain ⟨_, _, further⟩ := Option.bind_eq_some_iff.mp further
    obtain ⟨_, _, ended⟩ := Option.bind_eq_some_iff.mp further
    obtain ⟨rfl, _⟩ := Prod.mk.inj (Option.some.inj ended)
    obtain ⟨choice, listed, given⟩ := List.exists_of_findSome?_eq_some chosen
    obtain ⟨_, _, pair⟩ := Option.map_eq_some_iff.mp given
    obtain ⟨rfl, _⟩ := Prod.mk.inj pair
    exact listed
  · cases accepted

/-- A name that starts with the given word is a handler's name when the word starts
like one and holds no colon: behind it there are a capital letter and characters of
words only. -/
theorem exists_of_handlerName? {start : String} {text name behind : List Char}
    (starts : start.toList.head? = some 'h' ∨ start.toList.head? = some 'o')
    (plain : ':' ∉ start.toList) (accepted : handlerName? start text = some (name, behind)) :
    ∃ handler : HandlerName, handler.text = String.ofList name := by
  obtain ⟨follows, _, further⟩ := Option.bind_eq_some_iff.mp accepted
  cases follows with
  | nil => cases further
  | cons c rest =>
    dsimp only at further
    split at further
    · next upper =>
      obtain ⟨rfl, _⟩ := Prod.mk.inj (Option.some.inj further)
      have capital : ':' ≠ c := by
        rintro rfl
        exact absurd upper (by decide)
      have others : ':' ∉ rest.takeWhile isWord := by
        intro member
        exact absurd (List.mem_takeWhile_imp member) (by decide)
      refine ⟨⟨String.ofList (start.toList ++ c :: rest.takeWhile isWord), ?_, ?_⟩, rfl⟩
      · rcases starts with first | first
        · exact Or.inl (by simp [List.head?_append, first])
        · exact Or.inr (by simp [List.head?_append, first])
      · simp [plain, capital, others]
    · cases further

/-- The name of a recognised handler function is a handler's name, for both words that such a name
may start with. -/
theorem exists_of_handlerFunction? {before : Option Char} {text name behind : List Char}
    (accepted : handlerFunction? before text = some (name, behind)) :
    ∃ handler : HandlerName, handler.text = String.ofList name := by
  obtain ⟨_, _, further⟩ := Option.bind_eq_some_iff.mp accepted
  obtain ⟨⟨_, rest⟩, _, further⟩ := Option.bind_eq_some_iff.mp further
  obtain ⟨⟨word, _⟩, named, further⟩ := Option.bind_eq_some_iff.mp further
  obtain ⟨_, _, ended⟩ := Option.bind_eq_some_iff.mp further
  obtain ⟨rfl, _⟩ := Prod.mk.inj (Option.some.inj ended)
  rcases Option.or_eq_some_iff.mp named with handle | ⟨_, on⟩
  · exact exists_of_handlerName? (by decide) (by decide) handle
  · exact exists_of_handlerName? (by decide) (by decide) on

/-- A flow as it is drawn up when it is found: on a line of its file, quoting that
line, under a mark and without calls. -/
def Drawn (path : String) (lines : List (List Char)) (mark : Mark) (flow : Flow) : Prop :=
  ∃ line name, flow = onLine path line (codeAt lines line) mark.text mark.kind name

/-- The flows of one line are drawn up under marks, with the text of the line. There is a kind of
mark for each of the five searches that the line is put through. -/
theorem exists_mark_of_mem_ofLine {path : String} {number : Int} {line : List Char} {flow : Flow}
    (member : flow ∈ ofLine path number line) :
    ∃ (mark : Mark) (name : String),
      flow = onLine path number (String.ofList (trim line)) mark.text mark.kind name := by
  unfold ofLine at member
  simp only [List.mem_append, List.mem_map, Option.mem_toList, or_assoc] at member
  rcases member with ⟨hit, found, rfl⟩ | ⟨hit, found, rfl⟩ | ⟨name, _, rfl⟩ | ⟨name, _, rfl⟩ |
    ⟨hit, _, rfl⟩
  · obtain ⟨_, _, _, accepted⟩ := accepted_of_mem_hitsFrom found
    exact ⟨.event ⟨hit.value, mem_of_eventAttribute? accepted⟩, hit.value, rfl⟩
  · obtain ⟨_, _, _, accepted⟩ := accepted_of_firstFrom found
    obtain ⟨handler, same⟩ := exists_of_handlerFunction? accepted
    rw [← same]
    exact ⟨.handler handler, handler.text, rfl⟩
  · exact ⟨.request, name, rfl⟩
  · exact ⟨.table, name, rfl⟩
  · exact ⟨.query, _, rfl⟩

/-- A flow of some lines stands on one of them, and its number is the index of that line counted
from the first number. The induction is on the lines. -/
theorem exists_line_of_mem_ofLines {path : String} {number : Int} {lines : List (List Char)}
    {flow : Flow} (member : flow ∈ ofLines path number lines) :
    ∃ (index : Nat) (line : List Char), lines[index]? = some line ∧
      flow ∈ ofLine path (number + index) line := by
  induction lines generalizing number with
  | nil => cases member
  | cons line rest inductionHypothesis =>
    rcases List.mem_append.mp member with here | later
    · exact ⟨0, line, rfl, by simpa using here⟩
    · obtain ⟨index, other, found, stands⟩ := inductionHypothesis later
      refine ⟨index + 1, other, found, ?_⟩
      rw [show number + ((index + 1 : Nat) : Int) = number + 1 + index by omega]
      exact stands

/-- Adding a flow does nothing exactly when its identifier is there already, so flows are gathered
by their identifiers. -/
theorem gathersBy_addNew : GathersBy Flow.id addNew := by
  refine GathersBy.of_test (fun _ _ => rfl) ?_
  intro found flow
  simp

/-- What is left when flows are made unique is a part of them, in the same order. -/
theorem unique_sublist (flows : List Flow) : (unique flows).Sublist flows :=
  gathersBy_addNew.gathers.foldl_sublist flows

/-- Each identifier is left at most once when flows are made unique. -/
theorem nodup_unique (flows : List Flow) : ((unique flows).map Flow.id).Nodup :=
  gathersBy_addNew.nodup flows

/-- The flows that the lines of a source spell out are drawn up on these lines, since each of them
is a flow of one line. -/
theorem drawn_of_mem_spelled {path content : String} {flow : Flow}
    (member : flow ∈ spelled path content) :
    ∃ mark, Drawn path (sourceLines content) mark flow := by
  obtain ⟨index, line, found, stands⟩ :=
    exists_line_of_mem_ofLines ((unique_sublist _).subset member)
  obtain ⟨mark, name, rfl⟩ := exists_mark_of_mem_ofLine stands
  refine ⟨mark, 1 + index, name, ?_⟩
  have quoted : codeAt (sourceLines content) (1 + index) = String.ofList (trim line) := by
    have positive : 0 < 1 + (index : Int) := by omega
    have position : (1 + (index : Int)).toNat - 1 = index := by omega
    simp [codeAt, positive, position, found]
  rw [quoted]

/-- The events of a tree are drawn up on the lines of the source under a mark for events. So they
quote these lines and not the tree. -/
theorem drawn_of_mem_events {parsed : Parsed} {path content : String} {flow : Flow}
    (member : flow ∈ events parsed path content) :
    ∃ mark : Mark, mark.kind = uiEvent ∧ Drawn path (sourceLines content) mark flow := by
  have listed := List.mem_mergeSort.mp ((unique_sublist _).subset member)
  rcases List.mem_append.mp listed with handled | button
  · obtain ⟨element, _, raised⟩ := List.mem_flatMap.mp handled
    obtain ⟨⟨name, value⟩, _, made⟩ := List.mem_filterMap.mp raised
    dsimp only at made
    split at made
    · next present =>
      obtain rfl := Option.some.inj made
      exact ⟨.event ⟨name, by simpa using present⟩, rfl, _, name, rfl⟩
    · cases made
  · obtain ⟨element, _, made⟩ := List.mem_filterMap.mp (List.mem_filter.mp button).1
    unfold buttonEvent? at made
    split at made
    · obtain rfl := Option.some.inj made
      exact ⟨.button, rfl, _, "button", rfl⟩
    · cases made

/-- Drawn flows with the same identifier have the same file, line and mark, because the identifier
can be read in one way only. -/
theorem Drawn.eq_of_id {path other : String} {lines rows : List (List Char)} {left right : Mark}
    {flow twin : Flow} (drawn : Drawn path lines left flow) (second : Drawn other rows right twin)
    (same : flow.id = twin.id) : path = other ∧ flow.line = twin.line ∧ left = right := by
  obtain ⟨line, name, rfl⟩ := drawn
  obtain ⟨row, title, rfl⟩ := second
  exact identifier_injective same

end ScreenAtlas.Flow
