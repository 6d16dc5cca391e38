import ScreenAtlas.Proofs.FlowRefinement

/-!
# Flows are spelled out line by line

What a source spells out is looked for on each line by itself, but flows are listed once for
each identifier over the whole source. The identifier of a flow names its line, so the
flows of different lines never share one, whatever the path and the names of handlers are:
each line keeps exactly the flows that it has by itself.

It follows that two sources, one below the other, spell out the flows of both. Those of the
lower one are moved down by the lines of the upper one, which changes their line and the
line in their identifiers, and nothing else.
-/
namespace ScreenAtlas.Flow

open ScreenAtlas.Text

/-! ## Flows that are moved down -/

/-- What tells a flow from the others of its line: the part of its identifier behind the
file and the line. -/
def discriminator (flow : Flow) : String :=
  String.ofList (flow.id.toList.drop ((place flow.file flow.line).length + 1))

/-- The flow as it is when some lines precede its source. -/
def movedBy (lines : Nat) (flow : Flow) : Flow :=
  { flow with
    id := identifier flow.file (flow.line + lines) (discriminator flow)
    line := flow.line + lines }

/-- An identifier is the file and the line, and behind a colon what tells the flow apart. -/
theorem toList_identifier_eq_place (file : String) (line : Int) (text : String) :
    (identifier file line text).toList = place file line ++ ':' :: text.toList := by
  simp [identifier, place]

/-- What tells a flow apart is read back from its identifier, behind the file, the line and a
colon. -/
theorem discriminator_onLine (file : String) (line : Int) (code text kind name : String) :
    discriminator (onLine file line code text kind name) = text := by
  simp [discriminator, onLine, toList_identifier_eq_place, List.drop_append]

/-- Moving a flow down gives the flow that is drawn up on a later line, with the same text and
name. -/
theorem movedBy_onLine (lines : Nat) (file : String) (line : Int) (code text kind name : String) :
    movedBy lines (onLine file line code text kind name) =
      onLine file (line + lines) code text kind name := by
  rw [movedBy, discriminator_onLine]
  rfl

/-- The identifier of a flow of a line is its file, its line and what tells it apart, because
every such flow is drawn up under a mark. -/
theorem id_of_mem_ofLine {path : String} {number : Int} {line : List Char} {flow : Flow}
    (member : flow ∈ ofLine path number line) :
    flow.id = identifier flow.file flow.line (discriminator flow) := by
  obtain ⟨mark, name, rfl⟩ := exists_mark_of_mem_ofLine member
  rw [discriminator_onLine]
  rfl

/-- The flows of a line are moved down with it, since the number of the line is used nowhere but
in the flows that are drawn up. -/
theorem ofLine_add (path : String) (number : Int) (lines : Nat) (line : List Char) :
    ofLine path (number + lines) line = (ofLine path number line).map (movedBy lines) := by
  simp only [ofLine, List.map_append, List.map_map, Function.comp_def, movedBy_onLine]

/-- Flows of one line share an identifier exactly when they share it after moving: in both cases
all that can differ is what tells them apart. -/
theorem id_movedBy_iff {path : String} {number : Int} {line : List Char} {left right : Flow}
    (first : left ∈ ofLine path number line) (second : right ∈ ofLine path number line)
    (lines : Nat) : (movedBy lines left).id = (movedBy lines right).id ↔ left.id = right.id := by
  obtain ⟨mark, name, rfl⟩ := exists_mark_of_mem_ofLine first
  obtain ⟨other, title, rfl⟩ := exists_mark_of_mem_ofLine second
  rw [movedBy_onLine, movedBy_onLine]
  constructor
  · intro same
    obtain ⟨_, _, rfl⟩ := identifier_injective same
    rfl
  · intro same
    obtain ⟨_, _, rfl⟩ := identifier_injective same
    rfl

/-- What a line keeps is moved down with it, as moving neither joins nor separates identifiers. -/
theorem unique_ofLine_add (path : String) (number : Int) (lines : Nat) (line : List Char) :
    unique (ofLine path (number + lines) line) =
      (unique (ofLine path number line)).map (movedBy lines) := by
  have faithful : ∀ left ∈ [] ++ ofLine path number line, ∀ right ∈ [] ++ ofLine path number line,
      (movedBy lines left).id = (movedBy lines right).id ↔ left.id = right.id :=
    fun _ first _ second => id_movedBy_iff first second lines
  rw [ofLine_add]
  exact gathersBy_addNew.foldl_map gathersBy_addNew (movedBy lines) faithful

/-! ## Each line by itself -/

/-- Flows of which none behind has the identifier of one in front make no difference to each
other, so both parts may be made unique separately. -/
theorem unique_append {front behind : List Flow}
    (apart : ∀ flow ∈ behind, ∀ other ∈ front, flow.id ≠ other.id) :
    unique (front ++ behind) = unique front ++ unique behind := by
  have fresh : ∀ flow ∈ behind, flow.id ∉ (unique front).map Flow.id := by
    intro flow member taken
    obtain ⟨other, kept, same⟩ := List.mem_map.mp taken
    exact apart flow member other ((unique_sublist front).subset kept) same.symm
  have gathered := gathersBy_addNew.foldl_append fresh []
  rw [List.append_nil] at gathered
  rw [unique, List.foldl_append]
  exact gathered

/-- The flows that each of the lines keeps by itself, one line after the other. -/
def lineByLine (path : String) (number : Nat) (lines : List (List Char)) : List Flow :=
  (lines.zipIdx number).flatMap fun entry => unique (ofLine path entry.2 entry.1)

/-- The first line keeps its flows before all others, which are counted from the next number on.
-/
theorem lineByLine_cons (path : String) (number : Nat) (line : List Char)
    (rest : List (List Char)) :
    lineByLine path number (line :: rest) =
      unique (ofLine path number line) ++ lineByLine path (number + 1) rest := by
  simp only [lineByLine, List.zipIdx_cons, List.flatMap_cons]

/-- Upper lines keep their flows before lower ones, which are counted on from the number of upper
lines. -/
theorem lineByLine_append (path : String) (number : Nat) (above below : List (List Char)) :
    lineByLine path number (above ++ below) =
      lineByLine path number above ++ lineByLine path (number + above.length) below := by
  simp only [lineByLine, List.zipIdx_append, List.flatMap_append]

/-- Lines further down keep the same flows, moved down by as many lines. The induction is on the
lines. -/
theorem lineByLine_add (path : String) (number more : Nat) (lines : List (List Char)) :
    lineByLine path (number + more) lines =
      (lineByLine path number lines).map (movedBy more) := by
  induction lines generalizing number with
  | nil => rfl
  | cons line rest inductionHypothesis =>
    rw [lineByLine_cons, lineByLine_cons, List.map_append, Nat.add_right_comm,
      inductionHypothesis, Nat.cast_add, unique_ofLine_add]

/-- The flows of lines, listed once for each identifier, are those that each line keeps by
itself.

Proof: by induction on the lines. Every flow of a later line names that line in its
identifier. -/
theorem unique_ofLines (path : String) (number : Nat) (lines : List (List Char)) :
    unique (ofLines path number lines) = lineByLine path number lines := by
  induction lines generalizing number with
  | nil => rfl
  | cons line rest inductionHypothesis =>
    have apart : ∀ flow ∈ ofLines path (number + 1) rest, ∀ other ∈ ofLine path number line,
        flow.id ≠ other.id := by
      intro flow later other here same
      obtain ⟨index, text, _, stands⟩ := exists_line_of_mem_ofLines later
      obtain ⟨mark, name, rfl⟩ := exists_mark_of_mem_ofLine stands
      obtain ⟨twin, title, rfl⟩ := exists_mark_of_mem_ofLine here
      have := (identifier_injective same).2.1
      omega
    rw [ofLines, unique_append apart, lineByLine_cons, ← inductionHypothesis (number + 1),
      Nat.cast_add, Nat.cast_one]

/-- The flows of a source are those that each of its lines keeps by itself, counted from one. -/
theorem spelled_eq_lineByLine (path content : String) :
    spelled path content = lineByLine path 1 (sourceLines content) :=
  unique_ofLines path 1 (sourceLines content)

/-- The identifier of a flow of a source is its file, its line and what tells it apart, since the
flow belongs to one of the lines. -/
theorem id_of_mem_spelled {path content : String} {flow : Flow}
    (member : flow ∈ spelled path content) :
    flow.id = identifier flow.file flow.line (discriminator flow) := by
  rw [spelled_eq_lineByLine] at member
  obtain ⟨entry, _, kept⟩ := List.mem_flatMap.mp member
  exact id_of_mem_ofLine ((unique_sublist _).subset kept)

/-- Two texts with a line break between them have the lines of the first and then those of the
second. -/
theorem sourceLines_append (above below : String) :
    sourceLines (above ++ "\n" ++ below) = sourceLines above ++ sourceLines below := by
  have spelled : (above ++ "\n" ++ below).toList = above.toList ++ '\n' :: below.toList := by simp
  rw [sourceLines, spelled]
  exact List.splitOnP_append_cons above.toList below.toList (by decide)

/-! ## Editing a line -/

/-- The flows that stand on other lines than the given one. -/
def awayFrom (number : Nat) (flows : List Flow) : List Flow :=
  flows.filter fun flow => flow.line ≠ number

/-- Away from a line there is nothing of what it keeps, because all its flows carry its number. -/
theorem awayFrom_unique_ofLine (path : String) (number : Nat) (line : List Char) :
    awayFrom number (unique (ofLine path number line)) = [] := by
  rw [awayFrom, List.filter_eq_nil_iff]
  intro flow member
  simp [line_of_mem_ofLine ((unique_sublist _).subset member)]

/-- Flows of two lists, one after the other, are away from a line separately, and their order is
kept. -/
theorem awayFrom_append (number : Nat) (front behind : List Flow) :
    awayFrom number (front ++ behind) = awayFrom number front ++ awayFrom number behind :=
  List.filter_append front behind

/-- Exchanging one line makes no difference to the flows of the others.

Proof: by induction on the lines down to the exchanged one. -/
theorem awayFrom_lineByLine_set (path : String) (number index : Nat) (line : List Char)
    (lines : List (List Char)) :
    awayFrom (number + index) (lineByLine path number (lines.set index line)) =
      awayFrom (number + index) (lineByLine path number lines) := by
  induction lines generalizing number index with
  | nil => rfl
  | cons head rest inductionHypothesis =>
    cases index with
    | zero =>
      rw [List.set_cons_zero, lineByLine_cons, lineByLine_cons, awayFrom_append, awayFrom_append,
        Nat.add_zero, awayFrom_unique_ofLine, awayFrom_unique_ofLine]
    | succ below =>
      have further := inductionHypothesis (number + 1) below
      rw [Nat.add_right_comm] at further
      rw [List.set_cons_succ, lineByLine_cons, lineByLine_cons, awayFrom_append, awayFrom_append,
        ← Nat.add_assoc, further]

/-- Flows are spelled out line by line.

* The flows of two sources with a line break between them are those of the upper one,
  followed by those of the lower one, moved down by the lines of the upper one.
* What is moved is the line of a flow, which its identifier names between the file and what
  tells the flow apart.
* No line loses a flow to another one: the source has what each line keeps by itself.
* An edit of one line leaves the flows of all other lines as they are. -/
theorem spelled_is_line_local (path : String) :
    (∀ above below,
      spelled path (above ++ "\n" ++ below) =
        spelled path above ++ (spelled path below).map (movedBy (sourceLines above).length)) ∧
    (∀ content, ∀ flow ∈ spelled path content,
      flow.id = identifier flow.file flow.line (discriminator flow)) ∧
    (∀ content, spelled path content = lineByLine path 1 (sourceLines content)) ∧
    (∀ content edited index line, sourceLines edited = (sourceLines content).set index line →
      awayFrom (1 + index) (spelled path edited) =
        awayFrom (1 + index) (spelled path content)) := by
  refine ⟨?_, fun _ _ member => id_of_mem_spelled member, spelled_eq_lineByLine path, ?_⟩
  · intro above below
    rw [spelled_eq_lineByLine, spelled_eq_lineByLine, spelled_eq_lineByLine, sourceLines_append,
      lineByLine_append, lineByLine_add]
  · intro content edited index line change
    rw [spelled_eq_lineByLine, spelled_eq_lineByLine, change]
    exact awayFrom_lineByLine_set path 1 index line (sourceLines content)

/-- A source with flows on its first and its last line. -/
def clickedSource : String := "<a onClick=\x7bgo\x7d onClick=\x7bgo\x7d>\n\nfetch(\"/api\")"

/-- The source after an edit of its last line. -/
def savedSource : String := "<a onClick=\x7bgo\x7d onClick=\x7bgo\x7d>\n\nsave()"

/-- The click on the first line is listed once, and the edit of the last line leaves it as it is.
-/
theorem clickedSource_is_line_local :
    awayFrom 3 (spelled "a.tsx" savedSource) = awayFrom 3 (spelled "a.tsx" clickedSource) ∧
    (spelled "a.tsx" clickedSource).map Flow.id = ["a.tsx:1:event:onClick", "a.tsx:3:api"] := by
  obtain ⟨_, _, _, editing⟩ := spelled_is_line_local "a.tsx"
  constructor
  · exact editing clickedSource savedSource 2 ['s', 'a', 'v', 'e', '(', ')'] (by decide +kernel)
  · decide +kernel

end ScreenAtlas.Flow
