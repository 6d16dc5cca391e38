import Mathlib.Data.List.Induction
import Mathlib.Logic.Function.Iterate
import ScreenAtlas.Script.Tree

/-!
# The walk lists a tree in document order

The walk over a tree keeps the nodes still to be visited on a stack. What is on the stack
stands for whole subtrees, so the walk is compared with the recursive listing for stacks of
any height: the nodes ahead are those of the trees on the stack, from the top down. Every
turn of the loop takes one node off that list, which bounds the number of turns by the number
of nodes.

Equal nodes can stand at several places of a tree. To say that each is visited once, nodes are
told apart by their addresses: the places of the children to descend to, one after the other
from the root. Document order is the lexicographic order of addresses, in which a node stands
before everything inside it, and everything inside a child before the next child.
-/
namespace ScreenAtlas.Script.Node

/-! ## The recursive listing -/

/-- The nodes of two lists of trees are listed one list after the other. The induction is on the
first list. -/
theorem preorders_append (left right : List Node) :
    preorders (left ++ right) = preorders left ++ preorders right := by
  induction left with
  | nil => rfl
  | cons node rest inductionHypothesis => simp [preorders, inductionHypothesis]

/-- A node is listed before what is inside it, and then come the trees of its children in their
order. -/
theorem preorder_eq (node : Node) : node.preorder = node :: preorders node.children := by
  cases node
  rfl

/-- Visiting a stack of nodes lists them in order, each before what is inside it. -/
theorem visit_eq_preorders (stack : List Node) : visit stack = preorders stack := by
  induction stack using visit.induct with
  | case1 => simp [visit, preorders]
  | case2 node stack inductionHypothesis =>
    rw [visit, inductionHypothesis, preorders_append, preorders, preorder_eq, List.cons_append]

/-- The walk from a root is the recursive listing of its tree, as the stack starts with the root
alone. -/
theorem walk_eq_preorder (root : Node) : root.walk = root.preorder := by
  rw [walk, visit_eq_preorders, preorders, preorders, List.append_nil]

mutual

/-- The listing of a tree has as many entries as the tree has nodes, which bounds the turns of the
loop. -/
theorem length_preorder (node : Node) : node.preorder.length = node.size := by
  cases node with
  | mk kind span role named children =>
    rw [preorder, size, List.length_cons, length_preorders children]

/-- The listing of several trees has as many entries as the trees have nodes together. -/
theorem length_preorders (nodes : List Node) : (preorders nodes).length = sizes nodes := by
  cases nodes with
  | nil => rfl
  | cons node rest =>
    rw [preorders, sizes, List.length_append, length_preorder node, length_preorders rest]

end

/-- The listing of some trees is empty only when there are no trees, since every tree has its
root. -/
theorem preorders_eq_nil_iff (nodes : List Node) : preorders nodes = [] ↔ nodes = [] := by
  cases nodes with
  | nil => simp [preorders]
  | cons node rest => simp [preorders, preorder_eq]

/-! ## The loop turn by turn -/

/-- A walk under way: the nodes visited so far, and the stack with its top at the end. -/
structure Tour where
  visited : List Node
  stack : List Node

namespace Tour

/-- The tour that is about to visit a root and has visited nothing. -/
def start (root : Node) : Tour := ⟨[], [root]⟩

/-- One turn of the loop. The node on top of the stack is visited, and its children are put
in its place, the first one on top. Without a node on the stack nothing happens. -/
def turn (tour : Tour) : Tour :=
  match tour.stack.getLast? with
  | none => tour
  | some node => ⟨tour.visited ++ [node], tour.stack.dropLast ++ node.children.reverse⟩

/-- The nodes that are still to be visited, in their order. -/
def ahead (tour : Tour) : List Node := preorders tour.stack.reverse

/-- A turn visits the first node ahead, and what was behind that one remains ahead. This also
holds when nothing is ahead. -/
theorem turn_takes_first (tour : Tour) :
    tour.turn.visited = tour.visited ++ tour.ahead.take 1 ∧
      tour.turn.ahead = tour.ahead.drop 1 := by
  obtain ⟨visited, stack⟩ := tour
  cases stack using List.reverseRecOn with
  | nil => simp [turn, ahead, preorders]
  | append_singleton below node =>
    -- The top is last on the stack, so its tree is the first of those ahead.
    have top : ahead ⟨visited, below ++ [node]⟩ =
        node :: (preorders node.children ++ preorders below.reverse) := by
      rw [ahead, List.reverse_append, List.reverse_singleton, List.singleton_append, preorders,
        preorder_eq, List.cons_append]
    have turned : turn ⟨visited, below ++ [node]⟩ =
        ⟨visited ++ [node], below ++ node.children.reverse⟩ := by
      simp [turn]
    rw [top, turned]
    refine ⟨rfl, ?_⟩
    rw [ahead, List.reverse_append, List.reverse_reverse, preorders_append]
    rfl

/-- Any number of turns visits as many nodes ahead, as long as there are some. The induction is on
the turns, for any tour. -/
theorem turns_take (tour : Tour) (turns : Nat) :
    (turn^[turns] tour).visited = tour.visited ++ tour.ahead.take turns ∧
      (turn^[turns] tour).ahead = tour.ahead.drop turns := by
  induction turns generalizing tour with
  | zero => simp
  | succ turns inductionHypothesis =>
    obtain ⟨visited, remaining⟩ := turn_takes_first tour
    obtain ⟨further, rest⟩ := inductionHypothesis tour.turn
    rw [Function.iterate_succ_apply, further, rest, visited, remaining, Nat.add_comm turns 1,
      List.take_add, List.append_assoc, List.drop_drop]
    exact ⟨rfl, rfl⟩

/-- The stack is empty exactly when there is nothing ahead, because every tree on it has a node.
-/
theorem stack_eq_nil_iff (tour : Tour) : tour.stack = [] ↔ tour.ahead = [] := by
  rw [ahead, preorders_eq_nil_iff, List.reverse_eq_nil_iff]

/-- From a root exactly the nodes of its tree are ahead, in the order of the recursive listing. -/
theorem ahead_start (root : Node) : (start root).ahead = root.preorder := by
  simp [start, ahead, preorders]

end Tour

/-! ## Addresses -/

/-- The node at an address, if there is one. -/
def descendant? : Node → List Nat → Option Node
  | node, [] => some node
  | node, place :: rest => node.children[place]?.bind fun child => descendant? child rest

mutual

/-- The nodes of a tree, a parent before its children, each behind its address. -/
def addressed : Node → List (List Nat × Node)
  | mk kind span role named children =>
    ([], mk kind span role named children) :: addressedFrom 0 children

/-- The nodes of the trees below a parent, the first of which is the child at a given
place. -/
def addressedFrom (first : Nat) : List Node → List (List Nat × Node)
  | [] => []
  | node :: rest =>
    (addressed node).map (Prod.map (first :: ·) id) ++ addressedFrom (first + 1) rest

end

/-- A node stands at the empty address of its tree, before everything else. -/
theorem addressed_eq (node : Node) :
    node.addressed = ([], node) :: addressedFrom 0 node.children := by
  cases node
  rfl

mutual

/-- Without their addresses the nodes are those of the recursive listing, in the same order. -/
theorem map_snd_addressed (node : Node) : node.addressed.map Prod.snd = node.preorder := by
  cases node with
  | mk kind span role named children =>
    rw [addressed, List.map_cons, map_snd_addressedFrom 0 children, preorder]

/-- Without their addresses the nodes of several trees are those of the listing of these trees. -/
theorem map_snd_addressedFrom (first : Nat) (nodes : List Node) :
    (addressedFrom first nodes).map Prod.snd = preorders nodes := by
  cases nodes with
  | nil => rfl
  | cons node rest =>
    rw [addressedFrom, List.map_append, List.map_map, map_snd_addressedFrom (first + 1) rest,
      preorders, ← map_snd_addressed node]
    rfl

end

mutual

/-- A node is listed behind an address exactly when it stands there, so that every address of the
tree is listed and no other. -/
theorem mem_addressed (node : Node) (address : List Nat) (found : Node) :
    (address, found) ∈ node.addressed ↔ node.descendant? address = some found := by
  cases node with
  | mk kind span role named children =>
    rw [addressed, List.mem_cons, mem_addressedFrom 0 children]
    cases address with
    | nil => simp [descendant?, eq_comm]
    | cons place rest =>
      simp only [Prod.mk.injEq, reduceCtorEq, false_and, false_or, Nat.zero_add, descendant?]
      constructor
      · rintro ⟨_, _, spelled, stands⟩
        obtain ⟨rfl, rfl⟩ := List.cons.inj spelled
        exact stands
      · intro stands
        exact ⟨place, rest, rfl, stands⟩

/-- Below a parent the first step of the address chooses the tree, counted from the first one, and
the rest leads on inside it. -/
theorem mem_addressedFrom (first : Nat) (nodes : List Node) (address : List Nat) (found : Node) :
    (address, found) ∈ addressedFrom first nodes ↔
      ∃ place rest, address = (first + place) :: rest ∧
        (nodes[place]?.bind fun child => child.descendant? rest) = some found := by
  cases nodes with
  | nil => simp [addressedFrom]
  | cons node others =>
    have here : (address, found) ∈ node.addressed.map (Prod.map (first :: ·) id) ↔
        ∃ rest, address = first :: rest ∧ node.descendant? rest = some found := by
      simp only [List.mem_map, Prod.exists, Prod.map_apply, id_eq, Prod.mk.injEq,
        mem_addressed node]
      constructor
      · rintro ⟨rest, _, stands, rfl, rfl⟩
        exact ⟨rest, rfl, stands⟩
      · rintro ⟨rest, rfl, stands⟩
        exact ⟨rest, found, stands, rfl, rfl⟩
    rw [addressedFrom, List.mem_append, here, mem_addressedFrom (first + 1) others]
    -- A place among the other trees is one more among all of them.
    constructor
    · rintro (⟨rest, spelled, stands⟩ | ⟨place, rest, spelled, stands⟩)
      · exact ⟨0, rest, spelled, stands⟩
      · exact ⟨place + 1, rest, by rw [spelled, Nat.add_right_comm, Nat.add_assoc], stands⟩
    · rintro ⟨place, rest, spelled, stands⟩
      cases place with
      | zero => exact Or.inl ⟨rest, spelled, stands⟩
      | succ place =>
        exact Or.inr ⟨place, rest, by rw [spelled, Nat.add_right_comm, Nat.add_assoc], stands⟩

end

mutual

/-- The addresses of a tree are listed in lexicographic order, the empty one of the root first. So
none is listed twice. -/
theorem addressed_ordered (node : Node) :
    (node.addressed.map Prod.fst).Pairwise (List.Lex (· < ·)) := by
  cases node with
  | mk kind span role named children =>
    rw [addressed, List.map_cons, List.pairwise_cons]
    refine ⟨?_, addressedFrom_ordered 0 children⟩
    intro address listed
    obtain ⟨⟨_, found⟩, member, rfl⟩ := List.mem_map.mp listed
    obtain ⟨place, rest, rfl, _⟩ := (mem_addressedFrom 0 children _ found).mp member
    exact List.Lex.nil

/-- The addresses of several trees are listed in lexicographic order: within one tree because of
the rest of the address, between two trees because of its first step. -/
theorem addressedFrom_ordered (first : Nat) (nodes : List Node) :
    ((addressedFrom first nodes).map Prod.fst).Pairwise (List.Lex (· < ·)) := by
  cases nodes with
  | nil => exact List.Pairwise.nil
  | cons node others =>
    have deeper : (node.addressed.map (Prod.map (first :: ·) id)).map Prod.fst =
        (node.addressed.map Prod.fst).map (first :: ·) := by
      rw [List.map_map, List.map_map]
      rfl
    rw [addressedFrom, List.map_append, deeper, List.pairwise_append]
    refine ⟨?_, addressedFrom_ordered (first + 1) others, ?_⟩
    · exact List.pairwise_map.mpr ((addressed_ordered node).imp fun earlier => earlier.cons)
    · intro left early right late
      obtain ⟨inside, _, rfl⟩ := List.mem_map.mp early
      obtain ⟨⟨_, found⟩, member, rfl⟩ := List.mem_map.mp late
      obtain ⟨place, rest, rfl, _⟩ := (mem_addressedFrom (first + 1) others _ found).mp member
      exact List.Lex.rel (by omega)

end

/-- The trees below a parent are listed one after the other; those of the second part are counted
on from the first. -/
theorem addressedFrom_append (first : Nat) (left right : List Node) :
    addressedFrom first (left ++ right) =
      addressedFrom first left ++ addressedFrom (first + left.length) right := by
  induction left generalizing first with
  | nil => rfl
  | cons node rest inductionHypothesis =>
    rw [List.cons_append, addressedFrom, addressedFrom, inductionHypothesis, List.append_assoc,
      List.length_cons, Nat.add_right_comm, Nat.add_assoc]

/-- The subtree of a child is listed in one piece, behind the trees of the children before it. -/
theorem addressed_child {root child : Node} {place : Nat}
    (chosen : root.children[place]? = some child) :
    ∃ before after, root.addressed =
      before ++ child.addressed.map (Prod.map (place :: ·) id) ++ after := by
  obtain ⟨inRange, rfl⟩ := List.getElem?_eq_some_iff.mp chosen
  have split : root.children = root.children.take place ++
      root.children[place] :: root.children.drop (place + 1) := by
    rw [List.getElem_cons_drop, List.take_append_drop]
  have length : (root.children.take place).length = place :=
    List.length_take_of_le (Nat.le_of_lt inRange)
  have listed : addressedFrom 0 root.children = addressedFrom 0 (root.children.take place) ++
      (root.children[place].addressed.map (Prod.map (place :: ·) id) ++
        addressedFrom (place + 1) (root.children.drop (place + 1))) := by
    conv => lhs; rw [split]
    rw [addressedFrom_append, length, Nat.zero_add, addressedFrom]
  refine ⟨([], root) :: addressedFrom 0 (root.children.take place),
    addressedFrom (place + 1) (root.children.drop (place + 1)), ?_⟩
  rw [addressed_eq, listed]
  simp

/-- The subtree of every node is listed in one piece. The induction is on the address, from the
root down. -/
theorem addressed_subtree {root node : Node} {address : List Nat}
    (stands : root.descendant? address = some node) :
    ∃ before after, root.addressed =
      before ++ node.addressed.map (Prod.map (address ++ ·) id) ++ after := by
  induction address generalizing root with
  | nil =>
    obtain rfl := Option.some.inj stands
    have whole : root.addressed.map (Prod.map ([] ++ ·) id) = root.addressed := List.map_id _
    exact ⟨[], [], by rw [whole, List.nil_append, List.append_nil]⟩
  | cons place rest inductionHypothesis =>
    obtain ⟨child, chosen, below⟩ := Option.bind_eq_some_iff.mp stands
    obtain ⟨before, after, whole⟩ := addressed_child chosen
    obtain ⟨inner, outer, part⟩ := inductionHypothesis below
    refine ⟨before ++ inner.map (Prod.map (place :: ·) id),
      outer.map (Prod.map (place :: ·) id) ++ after, ?_⟩
    rw [whole, part]
    simp [Function.comp_def]

/-! ## Document order -/

/-- The walk with its stack is the recursive walk.

* The loop comes to an end. After any number of turns it has visited that many nodes of the
  recursive listing, and its stack is empty from the turn on that visits the last node of the
  tree, not earlier.
* The walk is the recursive listing. It lists each node of the tree once: behind the listed
  nodes stand exactly the addresses of the tree, in strict lexicographic order.
* The subtree of every node is listed in one piece, and the node is the first one of it.

Proof: the nodes ahead of the loop are those of the trees on its stack. A turn takes the first
of them off, whatever else is on the stack. -/
theorem walk_is_recursive_preorder (root : Node) :
    (∀ turns, (Tour.turn^[turns] (.start root)).visited = root.preorder.take turns ∧
      ((Tour.turn^[turns] (.start root)).stack = [] ↔ root.size ≤ turns)) ∧
    root.walk = (Tour.turn^[root.size] (.start root)).visited ∧
    root.walk = root.preorder ∧
    root.walk = root.addressed.map Prod.snd ∧
    (root.addressed.map Prod.fst).Pairwise (List.Lex (· < ·)) ∧
    (∀ address node, (address, node) ∈ root.addressed ↔ root.descendant? address = some node) ∧
    ∀ address node, root.descendant? address = some node →
      ∃ before after, root.addressed =
        before ++ node.addressed.map (Prod.map (address ++ ·) id) ++ after := by
  have visited (turns : Nat) :
      (Tour.turn^[turns] (.start root)).visited = root.preorder.take turns := by
    rw [(Tour.turns_take _ turns).1, Tour.ahead_start]
    rfl
  refine ⟨?_, ?_, walk_eq_preorder root, ?_, addressed_ordered root, mem_addressed root,
    fun _ _ => addressed_subtree⟩
  · intro turns
    refine ⟨visited turns, ?_⟩
    rw [Tour.stack_eq_nil_iff, (Tour.turns_take _ turns).2, Tour.ahead_start,
      List.drop_eq_nil_iff, length_preorder]
  · rw [visited, walk_eq_preorder, List.take_of_length_le (Nat.le_of_eq (length_preorder root))]
  · rw [walk_eq_preorder, map_snd_addressed]

/-- A call with an argument that stands between marks. -/
def sampleCall : Node :=
  let leaf (kind : String) : Node := mk kind ⟨0, 0, 0, 0⟩ none true []
  mk "call_expression" ⟨0, 0, 0, 0⟩ none true
    [leaf "identifier", mk "arguments" ⟨0, 0, 0, 0⟩ none true [leaf "(", leaf "string", leaf ")"]]

/-- The marks around the argument are visited with it, behind the name. -/
theorem sampleCall_in_order :
    sampleCall.walk.map kind =
        ["call_expression", "identifier", "arguments", "(", "string", ")"] ∧
      (sampleCall.descendant? [1]).map kind = some "arguments" ∧
      ∃ arguments before after, sampleCall.descendant? [1] = some arguments ∧
        sampleCall.addressed =
          before ++ arguments.addressed.map (Prod.map ([1] ++ ·) id) ++ after := by
  obtain ⟨_, _, listed, _, _, _, contiguous⟩ := walk_is_recursive_preorder sampleCall
  obtain ⟨before, after, whole⟩ := contiguous [1] _ rfl
  exact ⟨by rw [listed]; decide, rfl, _, before, after, rfl, whole⟩

end ScreenAtlas.Script.Node
