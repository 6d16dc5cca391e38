import Mathlib.Data.List.Induction
import ScreenAtlas.Flow.CallGraph
import ScreenAtlas.Proofs.Gathering
import ScreenAtlas.Proofs.ParsedRoutes

/-!
# Calls belong to their innermost scope

The call graph is made in one pass over the tree: every call is looked up among all
scopes, and its callee is added to the row of the smallest scope around it. This
module says what the graph is without the pass. Its rows are the names and first
lines of the scopes, and a row lists what is called in the scopes of that name and
line, each callee once and in the order of first calls.

Scopes may overlap, share lines and share keys; nothing is assumed about the tree.
-/
namespace ScreenAtlas.Flow

open ScreenAtlas.Script

/-! ## The innermost scope -/

/-- The scope is the smallest one that covers the line, and the first of those that
are equally small. -/
structure Innermost (scopes : List Scope) (line : Int) (scope : Scope) : Prop where
  covers : scope.covers line = true
  first : ∃ earlier later, scopes = earlier ++ scope :: later ∧
    (∀ other ∈ earlier, other.covers line = true → scope.extent < other.extent) ∧
    ∀ other ∈ later, other.covers line = true → scope.extent ≤ other.extent

namespace Innermost

variable {scopes : List Scope} {line : Int} {scope other : Scope}

/-- The innermost scope of a line is one of the scopes, at the place where it splits the list. -/
theorem mem (innermost : Innermost scopes line scope) : scope ∈ scopes := by
  obtain ⟨earlier, later, rfl, _, _⟩ := innermost.first
  simp

/-- A line has one innermost scope.

Proof: of two places in the list one is the earlier. The scope there is no larger
than the other one, which in turn is smaller than everything before it. -/
theorem unique (innermost : Innermost scopes line scope) (also : Innermost scopes line other) :
    scope = other := by
  obtain ⟨earlier, later, shape, before, behind⟩ := innermost.first
  obtain ⟨front, back, same, above, below⟩ := also.first
  rcases List.append_eq_append_iff.mp (shape.symm.trans same) with
    ⟨between, longer, rest⟩ | ⟨between, longer, rest⟩
  · cases between with
    | nil => simpa using (List.cons.inj rest).1
    | cons head tail =>
      obtain ⟨rfl, rfl⟩ := List.cons.inj rest
      have smaller := above scope (by simp [longer]) innermost.covers
      have least := behind other (by simp) also.covers
      omega
  · cases between with
    | nil => simpa using (List.cons.inj rest).1.symm
    | cons head tail =>
      obtain ⟨rfl, rfl⟩ := List.cons.inj rest
      have smaller := before other (by simp [longer]) also.covers
      have least := below scope (by simp) innermost.covers
      omega

/-- A scope that comes last does not matter when it does not cover the line or is no
smaller. -/
theorem append_other (innermost : Innermost scopes line scope)
    (larger : other.covers line = true → scope.extent ≤ other.extent) :
    Innermost (scopes ++ [other]) line scope := by
  obtain ⟨earlier, later, rfl, before, behind⟩ := innermost.first
  refine ⟨innermost.covers, earlier, later ++ [other], by simp, before, ?_⟩
  intro third member
  rcases List.mem_append.mp member with present | added
  · exact behind third present
  · obtain rfl := List.mem_singleton.mp added
    exact larger

/-- A scope that comes last is the innermost one when all others that cover the line
are larger. -/
theorem append_self (covers : scope.covers line = true)
    (smaller : ∀ other ∈ scopes, other.covers line = true → scope.extent < other.extent) :
    Innermost (scopes ++ [scope]) line scope :=
  ⟨covers, scopes, [], rfl, smaller, by simp⟩

/-- No scope that covers the line is smaller than the innermost one, whether it comes before or
behind it. -/
theorem extent_le (innermost : Innermost scopes line scope) (member : other ∈ scopes)
    (covers : other.covers line = true) : scope.extent ≤ other.extent := by
  obtain ⟨earlier, later, rfl, before, behind⟩ := innermost.first
  rcases List.mem_append.mp member with present | rest
  · exact Int.le_of_lt (before other present covers)
  · rcases List.mem_cons.mp rest with rfl | present
    · exact Int.le_refl _
    · exact behind other present covers

end Innermost

/-- The search compares one more scope at the end with the smallest one so far, if it covers the
line at all. -/
theorem innermost?_append (scopes : List Scope) (scope : Scope) (line : Int) :
    innermost? (scopes ++ [scope]) line =
      if scope.covers line then smaller (innermost? scopes line) scope
      else innermost? scopes line := by
  cases covers : scope.covers line <;> simp [innermost?, List.filter_append, covers]

/-- The running minimum is the innermost scope, and there is none only when no scope
covers the line.

Proof: induction over the scopes from the left, as they are compared. -/
theorem innermost?_meets (scopes : List Scope) (line : Int) :
    match innermost? scopes line with
    | some scope => Innermost scopes line scope
    | none => ∀ scope ∈ scopes, scope.covers line = false := by
  induction scopes using List.reverseRecOn with
  | nil => simp [innermost?]
  | append_singleton scopes scope inductionHypothesis =>
    rw [innermost?_append]
    cases covers : scope.covers line with
    | false =>
      cases found : innermost? scopes line with
      | none =>
        simp only [found] at inductionHypothesis
        intro other member
        rcases List.mem_append.mp member with present | added
        · exact inductionHypothesis other present
        · rwa [List.mem_singleton.mp added]
      | some best =>
        simp only [found] at inductionHypothesis
        exact inductionHypothesis.append_other (by simp [covers])
    | true =>
      cases found : innermost? scopes line with
      | none =>
        simp only [found] at inductionHypothesis
        apply Innermost.append_self covers
        intro other member covered
        simp [inductionHypothesis other member] at covered
      | some best =>
        simp only [found] at inductionHypothesis
        simp only [smaller, ↓reduceIte]
        by_cases less : scope.extent < best.extent
        · simp only [less, ↓reduceIte]
          apply Innermost.append_self covers
          intro other member covered
          have := inductionHypothesis.extent_le member covered
          omega
        · simp only [less, ↓reduceIte]
          exact inductionHypothesis.append_other fun _ => by omega

/-- The scope that is looked up is the innermost one, and a line without an innermost scope finds
none. -/
theorem innermost?_eq_some_iff (scopes : List Scope) (line : Int) (scope : Scope) :
    innermost? scopes line = some scope ↔ Innermost scopes line scope := by
  have meets := innermost?_meets scopes line
  constructor
  · intro found
    simpa only [found] using meets
  · intro innermost
    cases found : innermost? scopes line with
    | none =>
      simp only [found] at meets
      have := meets scope innermost.mem
      simp [innermost.covers] at this
    | some best =>
      simp only [found] at meets
      rw [meets.unique innermost]

/-! ## Values in the order of their first occurrences -/

/-- The kept values are the given ones, each once and in the order in which they occur
first. -/
structure InFirstOrder (values kept : List String) : Prop where
  same : ∀ value, value ∈ kept ↔ value ∈ values
  ordered : kept.Pairwise fun earlier later => values.idxOf earlier < values.idxOf later

namespace InFirstOrder

variable {values kept : List String} {value : String}

/-- There is nothing to keep of no values, which is how a row of the graph starts. -/
theorem nil : InFirstOrder [] [] := ⟨fun _ => Iff.rfl, List.Pairwise.nil⟩

/-- No value is kept twice, since each kept value occurs first before the next one does. -/
theorem nodup (listed : InFirstOrder values kept) : kept.Nodup :=
  listed.ordered.imp fun less equal => by simp [equal] at less

/-- What is kept does not move when values are added behind, because the first occurrence of a
value stays where it is. -/
theorem ordered_append (listed : InFirstOrder values kept) (more : List String) :
    kept.Pairwise fun earlier later =>
      (values ++ more).idxOf earlier < (values ++ more).idxOf later := by
  refine listed.ordered.imp_of_mem ?_
  intro earlier later first second less
  rwa [List.idxOf_append_of_mem ((listed.same earlier).mp first),
    List.idxOf_append_of_mem ((listed.same later).mp second)]

/-- A value that is kept already changes nothing when it occurs once more at the end. -/
theorem again (listed : InFirstOrder values kept) (known : value ∈ kept) :
    InFirstOrder (values ++ [value]) kept := by
  refine ⟨?_, listed.ordered_append [value]⟩
  intro other
  rw [listed.same other, List.mem_append, List.mem_singleton]
  constructor
  · exact Or.inl
  · rintro (present | rfl)
    · exact present
    · exact (listed.same other).mp known

/-- A new value is kept behind the others, as its first occurrence is the last one so far. -/
theorem fresh (listed : InFirstOrder values kept) (new : value ∉ kept) :
    InFirstOrder (values ++ [value]) (kept ++ [value]) := by
  constructor
  · intro other
    rw [List.mem_append, List.mem_append, listed.same other]
  · rw [List.pairwise_append]
    refine ⟨listed.ordered_append [value], List.pairwise_singleton _ _, ?_⟩
    intro earlier first later added
    obtain rfl := List.mem_singleton.mp added
    have present := (listed.same earlier).mp first
    have absent : later ∉ values := fun occurs => new ((listed.same later).mpr occurs)
    rw [List.idxOf_append_of_mem present, List.idxOf_append_of_notMem absent]
    have := List.idxOf_lt_length_of_mem present
    omega

end InFirstOrder

/-! ## The calls of a scope -/

/-- The node is a call that belongs to a key: its callee has a name, and the innermost
scope around its first line has the key. -/
structure CallsUnder (parsed : Parsed) (key : String × Int) (node : Node) (callee : String) :
    Prop where
  call : node.kind = "call_expression"
  named : callee ≠ ""
  calls : parsed.callee? node = some callee
  scope : ∃ scope, Innermost (scopes parsed) node.firstLine scope ∧ scope.key = key

/-- What a node adds to the graph: a key and a callee, if it is a call that belongs to
a key. -/
def contribution? (parsed : Parsed) (node : Node) : Option ((String × Int) × String) :=
  if node.kind == "call_expression" then
    match parsed.callee? node, innermost? (scopes parsed) node.firstLine with
    | some callee, some scope => if callee.isEmpty then none else some (scope.key, callee)
    | _, _ => none
  else none

/-- A node adds exactly the call that it is: the key of the innermost scope around its first line,
and the name of its callee. -/
theorem contribution?_eq_some_iff (parsed : Parsed) (node : Node) (key : String × Int)
    (callee : String) :
    contribution? parsed node = some (key, callee) ↔ CallsUnder parsed key node callee := by
  constructor
  · intro found
    unfold contribution? at found
    split at found
    · next call =>
      split at found
      · next name scope named around =>
        split at found
        · cases found
        · next present =>
          obtain ⟨rfl, rfl⟩ := Prod.mk.inj (Option.some.inj found)
          exact ⟨eq_of_beq call, by simpa using present, named, scope,
            (innermost?_eq_some_iff _ _ _).mp around, rfl⟩
      · cases found
    · cases found
  · rintro ⟨call, present, named, scope, around, rfl⟩
    have found := (innermost?_eq_some_iff _ _ _).mpr around
    simp [contribution?, call, named, found, present]

/-- A call belongs to one key and has one callee, because its first line has one innermost scope.
-/
theorem CallsUnder.unique {parsed : Parsed} {key other : String × Int} {node : Node}
    {callee name : String} (calls : CallsUnder parsed key node callee)
    (also : CallsUnder parsed other node name) : key = other ∧ callee = name := by
  have found := (contribution?_eq_some_iff parsed node key callee).mpr calls
  rw [(contribution?_eq_some_iff parsed node other name).mpr also] at found
  obtain ⟨rfl, rfl⟩ := Prod.mk.inj (Option.some.inj found)
  exact ⟨rfl, rfl⟩

/-- The callee of a node, if the node is a call that belongs to the given key. -/
def calledUnder? (parsed : Parsed) (key : String × Int) (node : Node) : Option String :=
  (contribution? parsed node).bind fun added => if added.1 = key then some added.2 else none

/-- The callee of a node is found under a key exactly when the node is a call that belongs to this
key. -/
theorem calledUnder?_eq_some_iff (parsed : Parsed) (key : String × Int) (node : Node)
    (callee : String) :
    calledUnder? parsed key node = some callee ↔ CallsUnder parsed key node callee := by
  rw [← contribution?_eq_some_iff, calledUnder?, Option.bind_eq_some_iff]
  constructor
  · rintro ⟨⟨other, name⟩, added, chosen⟩
    split at chosen
    · next same =>
      obtain rfl := Option.some.inj chosen
      rw [added, ← same]
    · cases chosen
  · intro added
    exact ⟨(key, callee), added, if_pos rfl⟩

/-! ## The pass over the tree -/

namespace CallGraph

/-- Adds a row unless its key is listed already. -/
def addRow (graph : CallGraph) (row : (String × Int) × List String) : CallGraph :=
  if graph.any fun present => present.1 == row.1 then graph else graph ++ [row]

/-- Rows are gathered by their keys: a row is added exactly when no row with its key is there. -/
theorem gathersBy_addRow : GathersBy Prod.fst addRow := by
  refine GathersBy.of_test (fun _ _ => rfl) ?_
  intro graph row
  simp

/-- The graph without calls has an empty row for every scope, gathered by the keys of the scopes.
-/
theorem ofScopes_eq (scopes : List Scope) :
    ofScopes scopes = (scopes.map fun scope => (scope.key, [])).foldl addRow [] := by
  rw [List.foldl_map]
  rfl

/-- The keys of the graph without calls are distinct, since rows are gathered by them. -/
theorem nodup_ofScopes (scopes : List Scope) : ((ofScopes scopes).map Prod.fst).Nodup := by
  rw [ofScopes_eq]
  exact gathersBy_addRow.nodup _

/-- The keys of the graph without calls are exactly those of the scopes; scopes that share a name
and a first line share one. -/
theorem mem_keys_ofScopes (scopes : List Scope) (key : String × Int) :
    key ∈ (ofScopes scopes).map Prod.fst ↔ ∃ scope ∈ scopes, scope.key = key := by
  rw [ofScopes_eq, gathersBy_addRow.mem_keys]
  simp

/-- No row of the graph without calls lists a call, because all its rows are made empty. -/
theorem eq_nil_of_mem_ofScopes {scopes : List Scope} {row : (String × Int) × List String}
    (member : row ∈ ofScopes scopes) : row.2 = [] := by
  rw [ofScopes_eq] at member
  obtain ⟨scope, _, rfl⟩ := List.mem_map.mp (gathersBy_addRow.gathers.foldl_subset _ member)
  rfl

/-- A node adds its contribution to the graph, if it has one, and otherwise leaves the graph as it
is. -/
theorem addNode_eq (parsed : Parsed) (graph : CallGraph) (node : Node) :
    graph.addNode parsed (scopes parsed) node =
      match contribution? parsed node with
      | some (key, callee) => graph.addCall key callee
      | none => graph := by
  unfold addNode contribution?
  cases parsed.callee? node with
  | none => simp
  | some callee =>
    cases innermost? (scopes parsed) node.firstLine with
    | none => simp
    | some scope =>
      split
      · by_cases empty : callee.isEmpty = true <;> simp [empty]
      · rfl

/-- The graph after some nodes: the rows of the scopes, each with the callees of the
nodes in the order of first calls. -/
structure Tells (parsed : Parsed) (seen : List Node) (graph : CallGraph) : Prop where
  keys : graph.map Prod.fst = (ofScopes (scopes parsed)).map Prod.fst
  rows : ∀ row ∈ graph, InFirstOrder (seen.filterMap (calledUnder? parsed row.1)) row.2

/-- Before the first node the graph has the rows of the scopes and no calls; this is where the
pass starts. -/
theorem tells_nil (parsed : Parsed) : Tells parsed [] (ofScopes (scopes parsed)) := by
  refine ⟨rfl, ?_⟩
  intro row member
  rw [eq_nil_of_mem_ofScopes member]
  exact InFirstOrder.nil

/-- Adding a call keeps the keys of the graph and their order, for it only changes what stands in
a row. -/
theorem keys_addCall (key : String × Int) (callee : String) (graph : CallGraph) :
    (graph.addCall key callee).map Prod.fst = graph.map Prod.fst := by
  rw [addCall, List.map_map]
  apply List.map_congr_left
  intro row _
  simp only [Function.comp]
  split <;> rfl

/-- One more node. A row changes when the node belongs to its key and calls something
new; in all other cases the callees of the row stay what they are. -/
theorem Tells.step {parsed : Parsed} {seen : List Node} {graph : CallGraph}
    (tells : Tells parsed seen graph) (node : Node) :
    Tells parsed (seen ++ [node]) (graph.addNode parsed (scopes parsed) node) := by
  rw [addNode_eq]
  cases added : contribution? parsed node with
  | none =>
    refine ⟨tells.keys, ?_⟩
    intro row member
    simpa [calledUnder?, added] using tells.rows row member
  | some pair =>
    obtain ⟨key, callee⟩ := pair
    refine ⟨(keys_addCall key callee graph).trans tells.keys, ?_⟩
    intro row member
    obtain ⟨⟨own, listed⟩, present, rfl⟩ := List.mem_map.mp member
    have before := tells.rows (own, listed) present
    by_cases same : key = own
    · subst same
      by_cases known : callee ∈ listed
      · simpa [calledUnder?, added, known] using before.again known
      · simpa [calledUnder?, added, known] using before.fresh known
    · have apart : own ≠ key := Ne.symm same
      simpa [calledUnder?, added, same, apart] using before

/-- After any number of nodes the graph tells their calls. The induction is from the end, so that
the last node is one more step. -/
theorem tells_run (parsed : Parsed) (seen : List Node) :
    Tells parsed seen
      (seen.foldl (addNode parsed (scopes parsed)) (ofScopes (scopes parsed))) := by
  induction seen using List.reverseRecOn with
  | nil => exact tells_nil parsed
  | append_singleton seen node inductionHypothesis =>
    rw [List.foldl_append]
    exact inductionHypothesis.step node

/-- The row of every scope is found in the graph, whatever nodes have been seen, since the keys
never change. -/
theorem Tells.lookup_isSome {parsed : Parsed} {seen : List Node} {graph : CallGraph}
    (tells : Tells parsed seen graph) {scope : Scope} (member : scope ∈ scopes parsed) :
    (graph.lookup scope.key).isSome = true := by
  have listed : scope.key ∈ graph.map Prod.fst := by
    rw [tells.keys]
    exact (mem_keys_ofScopes _ _).mpr ⟨scope, member, rfl⟩
  obtain ⟨row, present, same⟩ := List.mem_map.mp listed
  rw [List.lookup_isSome_iff]
  exact ⟨row, present, by simp [same]⟩

/-- What the call graph of a source is: a row for every name and first line of a scope,
which lists the callees that belong to this key in the order of first calls. -/
structure Describes (graph : CallGraph) (parsed : Parsed) : Prop where
  distinct : (graph.map Prod.fst).Nodup
  keys : ∀ key, key ∈ graph.map Prod.fst ↔ ∃ scope ∈ scopes parsed, scope.key = key
  rows : ∀ row ∈ graph, ∃ called : Node → Option String,
    (∀ node callee, called node = some callee ↔ CallsUnder parsed row.1 node callee) ∧
      InFirstOrder (parsed.root.preorder.filterMap called) row.2

/-- A graph that tells the calls of all nodes in pre-order describes the source, for its keys are
those of the scopes. -/
theorem Tells.describes {parsed : Parsed} {graph : CallGraph}
    (tells : Tells parsed parsed.root.preorder graph) : graph.Describes parsed := by
  constructor
  · rw [tells.keys]
    exact nodup_ofScopes (scopes parsed)
  · intro key
    rw [tells.keys]
    exact mem_keys_ofScopes (scopes parsed) key
  · intro row member
    exact ⟨calledUnder? parsed row.1, calledUnder?_eq_some_iff parsed row.1,
      tells.rows row member⟩

end CallGraph

/-- The nodes of a source are listed in pre-order, so the pass goes through the tree in document
order. -/
theorem nodes_eq_preorder (parsed : Parsed) : parsed.nodes = parsed.root.preorder := by
  rw [Parsed.nodes, Node.walk_eq_preorder]

/-- A line has an innermost scope exactly when some scope covers it, and then one only. So the
search never leaves a covered line without one. -/
theorem exists_innermost_iff (scopes : List Scope) (line : Int) :
    (∃ scope ∈ scopes, scope.covers line = true) ↔
      ∃ scope, Innermost scopes line scope ∧
        ∀ other, Innermost scopes line other → other = scope := by
  constructor
  · rintro ⟨scope, member, covers⟩
    have meets := innermost?_meets scopes line
    cases found : innermost? scopes line with
    | none =>
      simp only [found] at meets
      simp [meets scope member] at covers
    | some best =>
      simp only [found] at meets
      exact ⟨best, meets, fun other also => also.unique meets⟩
  · rintro ⟨scope, innermost, _⟩
    exact ⟨scope, innermost.mem, innermost.covers⟩

/-- The call graph of every syntax tree lists the calls of each scope.

Its keys are the names and first lines of the scopes, each once. Under a key stand the
names that are called in the innermost scopes of this key, without repetition and in
the order in which the tree calls them first. Every line that some scope covers has one
innermost scope, so that a call belongs to one key at most; a call outside all scopes
belongs to none. The row of an innermost scope is there at every time of the pass.

Proof: the graph tells the calls of the nodes seen so far, before the first node and
after every further one. -/
theorem callGraph_lists_calls_of_innermost_scopes (parsed : Parsed) :
    (callGraph parsed).Describes parsed ∧
    (∀ line, (∃ scope ∈ scopes parsed, scope.covers line = true) ↔
      ∃ scope, Innermost (scopes parsed) line scope ∧
        ∀ other, Innermost (scopes parsed) line other → other = scope) ∧
    (∀ node key other callee name, CallsUnder parsed key node callee →
      CallsUnder parsed other node name → key = other ∧ callee = name) ∧
    (∀ node, (∀ scope ∈ scopes parsed, scope.covers node.firstLine = false) →
      ∀ key callee, ¬ CallsUnder parsed key node callee) ∧
    ∀ (seen : List Node) line scope, innermost? (scopes parsed) line = some scope →
      ((seen.foldl (CallGraph.addNode parsed (scopes parsed))
        (CallGraph.ofScopes (scopes parsed))).lookup scope.key).isSome = true := by
  refine ⟨?_, exists_innermost_iff (scopes parsed), ?_, ?_, ?_⟩
  · rw [callGraph, nodes_eq_preorder]
    exact (CallGraph.tells_run parsed parsed.root.preorder).describes
  · intro node key other callee name calls also
    exact calls.unique also
  · intro node outside key callee calls
    obtain ⟨scope, around, _⟩ := calls.scope
    have covers := around.covers
    simp [outside scope around.mem] at covers
  · intro seen line scope found
    have around := (innermost?_eq_some_iff _ _ _).mp found
    exact (CallGraph.tells_run parsed seen).lookup_isSome around.mem

/-- A call of a plain name, at a given place and row. -/
def callNode (start : Nat) (row : Int) : Node :=
  .mk "call_expression" ⟨start, start + 1, row, row⟩ none true
    [.mk "identifier" ⟨start, start + 1, row, row⟩ (some "function") true []]

/-- A function `a` around a function `b` that shares its last line with it, and another
function `a` on the first line. -/
def nestedSource : Parsed where
  bytes := Text.encode "abfgh".toList
  root :=
    .mk "program" ⟨0, 5, 0, 9⟩ none true
      [.mk "function_declaration" ⟨0, 5, 0, 6⟩ none true
        [.mk "identifier" ⟨0, 1, 0, 0⟩ (some "name") true [],
          callNode 3 1, callNode 2 1, callNode 3 2,
          .mk "variable_declarator" ⟨1, 5, 4, 6⟩ none true
            [.mk "identifier" ⟨1, 2, 4, 4⟩ (some "name") true [],
              .mk "arrow_function" ⟨2, 5, 4, 6⟩ (some "value") true [callNode 2 5]],
          callNode 4 6],
        .mk "function_declaration" ⟨0, 5, 0, 0⟩ none true
          [.mk "identifier" ⟨0, 1, 0, 0⟩ (some "name") true [], callNode 4 0],
        callNode 2 8]

/-- The two functions `a` share a row, the call on the shared line goes to `b`, and the
call behind all functions goes nowhere. -/
theorem callGraph_nestedSource :
    callGraph nestedSource = [(("a", 1), ["g", "f", "h"]), (("b", 5), ["f", "h"])] ∧
      (callGraph nestedSource).Describes nestedSource := by
  refine ⟨?_, (callGraph_lists_calls_of_innermost_scopes nestedSource).1⟩
  decide +kernel

end ScreenAtlas.Flow
