import Mathlib.Data.List.Find
import ScreenAtlas.Proofs.Placement

/-!
# Nested spans resolve as a tree walk

Route declarations form an ordered forest, and the span of a declaration runs
from its opening tag to its closing tag. Resolution sees the spans only. This
module lays a forest out on a line, with any positive widths of the tags, and
shows that resolving the resulting declarations is the recursive walk of the
forest in document order.

The widths are left open because the same forest is measured in characters by the
text scan and in bytes by the tree pass.
-/
namespace ScreenAtlas.Route

/-- A finite ordered forest: its first node with the forest below that node, and
the forest of the nodes that follow it at the same level. -/
inductive Forest (α : Type) where
  | empty
  | node (label : α) (children siblings : Forest α)

namespace Forest

variable {α : Type}

/-- The forest has no nodes at all. -/
def isEmpty : Forest α → Bool
  | empty => true
  | node _ _ _ => false

/-- What a node contributes to resolution when it carries a path. -/
structure Entry where
  rawPath : String
  component : Option String
  skip : Bool

/-- What the walk reports for a node that carries a path. -/
structure Visit where
  fullPath : String
  component : Option String
  skip : Bool
  deriving DecidableEq

/-- The full path of a node: relative paths are joined to the nearest ancestor
with a path. Without one, a relative path other than the wildcard is joined to
the host, the nearest preceding outermost node with a rooted path. -/
def fullPath (ancestor host : Option String) (raw : String) : String :=
  let parent :=
    match ancestor with
    | some above => some above
    | none => if isRooted raw || raw == wildcard then none else host
  join parent raw

/-- The host for what follows a node: the node itself if it is an outermost one with a rooted
path. -/
def nextHost (ancestor host : Option String) (raw : String) : Option String :=
  if ancestor.isNone && isRooted raw then some (fullPath ancestor host raw) else host

/-- Visits the nodes of a forest in document order. The walk carries the full
path of the nearest ancestor with a path and that of the host, and answers with
the visits and the host for what follows. -/
def walk (entry : α → Option Entry) (ancestor host : Option String) :
    Forest α → List Visit × Option String
  | empty => ([], host)
  | node label children siblings =>
    match entry label with
    | none =>
      let inner := walk entry ancestor host children
      let outer := walk entry ancestor inner.2 siblings
      (inner.1 ++ outer.1, outer.2)
    | some found =>
      let path := fullPath ancestor host found.rawPath
      let inner := walk entry (some path) (nextHost ancestor host found.rawPath) children
      let outer := walk entry ancestor inner.2 siblings
      ({ fullPath := path
         component := found.component
         skip := found.skip || found.rawPath == wildcard } :: inner.1 ++ outer.1, outer.2)

/-- The routes of a forest: the distinct paths and components of the visited
nodes that are not left out, in document order, below a basename. -/
def routes (entry : α → Option Entry) (basename : Option String) (forest : Forest α) :
    List Target :=
  distinct (((forest.walk entry none none).1.filter fun visit => !visit.skip).map fun visit =>
    { path := underBasename basename visit.fullPath
      component := visit.component })

/-- The labels of a forest in document order. -/
def labels : Forest α → List α
  | empty => []
  | node label children siblings => label :: labels children ++ labels siblings

/-- The walk depends only on what the labels of the forest contribute. The induction carries any
ancestor and host, as both change along the walk. -/
theorem walk_congr {entry entry' : α → Option Entry} (forest : Forest α)
    (same : ∀ label ∈ forest.labels, entry label = entry' label) (ancestor host : Option String) :
    forest.walk entry ancestor host = forest.walk entry' ancestor host := by
  induction forest generalizing ancestor host with
  | empty => rfl
  | node label children siblings below beside =>
    simp only [labels, List.mem_cons, List.cons_append, List.mem_append] at same
    have here := same label (Or.inl rfl)
    have inside := below fun other member => same other (Or.inr (Or.inl member))
    have behind := beside fun other member => same other (Or.inr (Or.inr member))
    simp only [walk, here, inside, behind]

/-- The routes of a forest depend only on what its labels contribute, since they are read off the
visits of the walk. -/
theorem routes_congr {entry entry' : α → Option Entry} (forest : Forest α)
    (same : ∀ label ∈ forest.labels, entry label = entry' label) (basename : Option String) :
    forest.routes entry basename = forest.routes entry' basename := by
  rw [routes, routes, forest.walk_congr same]

/-- The widths of the tags of a forest. The width of an opening tag depends on
whether anything stands inside the element. -/
structure Layout (α : Type) where
  opening : α → Bool → Nat
  closing : Nat
  opening_pos : ∀ label leaf, 0 < opening label leaf
  closing_pos : 0 < closing

namespace Layout

variable (layout : Layout α)

/-- The width of the closing tag of a node with the given children. -/
def closingOf (children : Forest α) : Nat := if children.isEmpty then 0 else layout.closing

/-- The width of a whole forest, tag by tag. -/
def width : Forest α → Nat
  | empty => 0
  | node label children siblings =>
    layout.opening label children.isEmpty + width children + layout.closingOf children +
      width siblings

/-- The width of one node with everything inside it. -/
def nodeWidth (label : α) (children : Forest α) : Nat :=
  layout.opening label children.isEmpty + layout.width children + layout.closingOf children

/-- The declarations of a forest that starts at an offset. -/
def declarations (entry : α → Option Entry) (offset : Nat) : Forest α → List Declaration
  | empty => []
  | node label children siblings =>
    let inner := declarations entry (offset + layout.opening label children.isEmpty) children
    let outer := declarations entry (offset + layout.nodeWidth label children) siblings
    match entry label with
    | none => inner ++ outer
    | some found =>
      { rawPath := found.rawPath
        start := offset
        stop := (offset + layout.nodeWidth label children : Nat)
        component := found.component
        skip := found.skip } :: inner ++ outer

end Layout

/-- The walk's view of a placement, without its span. -/
def Visit.ofPlacement (placement : Placement) : Visit :=
  { fullPath := placement.fullPath
    component := placement.declaration.component
    skip := placement.skip }

/-- The last placement of the top level with a rooted path. -/
def topHost (placed : List Placement) : Option Placement :=
  placed.reverse.find? fun candidate =>
    candidate.topLevel && isRooted candidate.declaration.rawPath

/-- Behind everything that has been placed, the implicit parent does not depend on the
declaration: all candidates start before it, so only the level and the path count. -/
theorem implicitParent_eq_topHost {placed : List Placement} {child : Declaration}
    (started : ∀ candidate ∈ placed, candidate.declaration.start < child.start) :
    Placement.implicitParent placed child = topHost placed := by
  apply List.find?_congr
  intro candidate member
  have before := started candidate (List.mem_reverse.mp member)
  by_cases rooted : isRooted candidate.declaration.rawPath = true
  · simp [before, rooted, Placement.ne_wildcard_of_rooted rooted]
  · simp [rooted]

/-- The host after one more placement is this placement, if it is of the top level and its path is
rooted, and otherwise the host before. -/
theorem topHost_append_singleton (placed : List Placement) (placement : Placement) :
    topHost (placed ++ [placement]) =
      if placement.topLevel && isRooted placement.declaration.rawPath then some placement
      else topHost placed := by
  simp only [topHost, List.reverse_append, List.reverse_singleton, List.singleton_append,
    List.find?_cons]
  split <;> simp_all

/-- Placements that do not contain a declaration do not change its container. The induction is
from the end, where the search has seen all the others. -/
theorem container_append_of_apart {placed others : List Placement} {child : Declaration}
    (apart : ∀ other ∈ others, ¬ other.declaration.Contains child) :
    Placement.container (placed ++ others) child = Placement.container placed child := by
  induction others using List.reverseRecOn with
  | nil => simp
  | append_singleton others last inductionHypothesis =>
    rw [← List.append_assoc, Placement.container_append_singleton]
    simp only [apart last (by simp), ↓reduceIte]
    exact inductionHypothesis fun other member => apart other (List.mem_append_left _ member)

/-- What has been placed when the walk reaches a region of the line: everything
starts before the region, every non-empty span inside the region has the same
container, whose full path is the ancestor's, and the host is known. -/
structure Position (placed : List Placement) (low high : Nat) (ancestor host : Option String) :
    Prop where
  started : ∀ placement ∈ placed, placement.declaration.start < low
  enclosed : ∃ enclosing : Option Placement, enclosing.map (·.fullPath) = ancestor ∧
    ∀ child : Declaration, (low : Int) ≤ child.start → child.start < child.stop →
      child.stop ≤ high → Placement.container placed child = enclosing
  hosted : (topHost placed).map (·.fullPath) = host

namespace Position

variable {placed : List Placement} {low high : Nat} {ancestor host : Option String}

/-- Before anything is placed, nothing encloses any region and there is no host. This is where the
walk starts. -/
theorem outset (low high : Nat) : Position [] low high none none :=
  ⟨by simp, ⟨none, rfl, by simp [Placement.container]⟩, rfl⟩

/-- A position for a region is one for every smaller region, because it speaks about the spans
inside only. -/
theorem shrink (position : Position placed low high ancestor host) {low' high' : Nat}
    (lower : low ≤ low') (upper : high' ≤ high) : Position placed low' high' ancestor host := by
  obtain ⟨enclosing, path, inside⟩ := position.enclosed
  refine ⟨?_, ⟨enclosing, path, ?_⟩, position.hosted⟩
  · intro placement member
    have := position.started placement member
    omega
  · intro child starts proper stops
    exact inside child (by omega) proper (by omega)

/-- Behind a part of the region that has been placed, the container is the same
as before and the host is the one that part leaves. -/
theorem pass (position : Position placed low high ancestor host) {middle : Nat}
    (lower : low ≤ middle) {others : List Placement} {host' : Option String}
    (passed : ∀ other ∈ others,
      other.declaration.start < middle ∧ other.declaration.stop ≤ middle)
    (hosted : (topHost (placed ++ others)).map (·.fullPath) = host') :
    Position (placed ++ others) middle high ancestor host' := by
  obtain ⟨enclosing, path, inside⟩ := position.enclosed
  refine ⟨?_, ⟨enclosing, path, ?_⟩, hosted⟩
  · intro placement member
    rcases List.mem_append.mp member with old | new
    · have := position.started placement old
      omega
    · exact (passed placement new).1
  · intro child starts proper stops
    have apart : ∀ other ∈ others, ¬ other.declaration.Contains child := by
      intro other member around
      have := (passed other member).2
      have := around.2
      omega
    rw [container_append_of_apart apart]
    exact inside child (by omega) proper stops

/-- A declaration that opens the region gets the path that the walk gives it, and
is of the top level exactly when it has no ancestor with a path. -/
theorem place_eq (position : Position placed low high ancestor host) {child : Declaration}
    (starts : child.start = low) (proper : child.start < child.stop)
    (stops : child.stop ≤ high) :
    Placement.place placed child =
      { declaration := child
        fullPath := fullPath ancestor host child.rawPath
        topLevel := ancestor.isNone
        skip := child.skip || child.rawPath == wildcard } := by
  obtain ⟨enclosing, path, inside⟩ := position.enclosed
  have found := inside child (by omega) proper stops
  have implicit : Placement.implicitParent placed child = topHost placed := by
    apply implicitParent_eq_topHost
    intro candidate member
    have := position.started candidate member
    omega
  have hosted := position.hosted
  subst path
  cases enclosing with
  | some parent => simp [Placement.place, found, fullPath]
  | none =>
    by_cases rooted : isRooted child.rawPath = true
    · simp [Placement.place, found, fullPath, rooted]
    · by_cases everything : child.rawPath = wildcard
      · simp [Placement.place, found, fullPath, everything]
      · simp [Placement.place, found, fullPath, rooted, everything, implicit, hosted]

/-- A declaration that opens the region leaves the host that the walk goes on with: itself, if it
is of the top level and rooted. -/
theorem host_place (position : Position placed low high ancestor host) {child : Declaration}
    (starts : child.start = low) (proper : child.start < child.stop)
    (stops : child.stop ≤ high) :
    (topHost (placed ++ [Placement.place placed child])).map (·.fullPath) =
      nextHost ancestor host child.rawPath := by
  rw [topHost_append_singleton]
  simp only [position.place_eq starts proper stops, nextHost]
  split
  · rfl
  · exact position.hosted

/-- Inside a declaration that opens the region, that declaration is the
container: what contained it before is larger. -/
theorem descend (position : Position placed low high ancestor host) {child : Declaration}
    (starts : child.start = low) (proper : child.start < child.stop) (stops : child.stop ≤ high)
    {low' high' : Nat} (lower : low < low') (upper : high' < child.stop) :
    Position (placed ++ [Placement.place placed child]) low' high'
      (some (fullPath ancestor host child.rawPath)) (nextHost ancestor host child.rawPath) := by
  obtain ⟨enclosing, path, inside⟩ := position.enclosed
  have placing := position.place_eq starts proper stops
  refine ⟨?_, ⟨some (Placement.place placed child), by simp [placing], ?_⟩,
    position.host_place starts proper stops⟩
  · intro placement member
    rcases List.mem_append.mp member with old | new
    · have := position.started placement old
      omega
    · obtain rfl := List.mem_singleton.mp new
      simp only [placing]
      omega
  · intro inner innerStarts innerProper innerStops
    have around : (Placement.place placed child).declaration.Contains inner := by
      simp only [placing, Declaration.Contains]
      omega
    rw [Placement.container_append_singleton]
    simp only [around, ↓reduceIte]
    have found := inside child (by omega) proper stops
    rw [inside inner (by omega) innerProper (by omega)]
    cases enclosing with
    | none => rfl
    | some parent =>
      have larger : (Placement.place placed child).declaration.span < parent.declaration.span := by
        obtain ⟨contains, _⟩ := Placement.container_first found
        simp only [placing, Declaration.span, Declaration.Contains] at contains ⊢
        omega
      simp [larger]

end Position

/-- Placing some declarations adds placements that report the given visits, leave
the given host and reach no further than a bound. -/
structure Reports (declarations : List Declaration) (bound : Nat) (placed : List Placement)
    (visits : List Visit) (host : Option String) (others : List Placement) : Prop where
  run : declarations.foldl (fun placed next => placed ++ [Placement.place placed next]) placed =
    placed ++ others
  visited : others.map Visit.ofPlacement = visits
  hosted : (topHost (placed ++ others)).map (·.fullPath) = host
  bounded : ∀ other ∈ others, other.declaration.start < bound ∧ other.declaration.stop ≤ bound

namespace Reports

variable {first second : List Declaration} {bound : Nat} {placed inner outer : List Placement}
  {visits later : List Visit} {host final : Option String}

/-- The bound of a report can be raised, since what is placed reaches no further than before. -/
theorem widen (reports : Reports first bound placed visits host inner) {higher : Nat}
    (raised : bound ≤ higher) : Reports first higher placed visits host inner := by
  refine ⟨reports.run, reports.visited, reports.hosted, ?_⟩
  intro other member
  have := reports.bounded other member
  omega

/-- Declarations placed one after the other report their visits in this order. The second part
starts from what the first has placed. -/
theorem append (front : Reports first bound placed visits host inner)
    (back : Reports second bound (placed ++ inner) later final outer) :
    Reports (first ++ second) bound placed (visits ++ later) final (inner ++ outer) := by
  refine ⟨?_, ?_, ?_, ?_⟩
  · rw [List.foldl_append, front.run, back.run, List.append_assoc]
  · rw [List.map_append, front.visited, back.visited]
  · rw [← List.append_assoc]
    exact back.hosted
  · intro other member
    rcases List.mem_append.mp member with early | late
    · exact front.bounded other early
    · exact back.bounded other late

/-- A declaration that opens a region reports its own visit, with the path and the host that the
walk gives it. -/
theorem single {low high : Nat} {ancestor : Option String}
    (position : Position placed low high ancestor host) {child : Declaration}
    (starts : child.start = low) (proper : child.start < child.stop) (stops : child.stop ≤ high)
    (bounded : child.stop ≤ bound) :
    Reports [child] bound placed
      [{ fullPath := fullPath ancestor host child.rawPath
         component := child.component
         skip := child.skip || child.rawPath == wildcard }]
      (nextHost ancestor host child.rawPath) [Placement.place placed child] := by
  refine ⟨rfl, ?_, position.host_place starts proper stops, ?_⟩
  · simp [position.place_eq starts proper stops, Visit.ofPlacement]
  · intro other member
    obtain rfl := List.mem_singleton.mp member
    simp only [position.place_eq starts proper stops]
    omega

end Reports

/-- Declarations that report the visits of a forest are resolved to its routes, if they
stand in the order of their starts. -/
theorem resolve_of_reports {declarations : List Declaration} {bound : Nat} {forest : Forest α}
    {entry : α → Option Entry} {placed : List Placement}
    (ordered : declarations.Pairwise fun left right => left.start < right.start)
    (reports : Reports declarations bound [] (forest.walk entry none none).1
      (forest.walk entry none none).2 placed) (basename : Option String) :
    resolve declarations basename = forest.routes entry basename := by
  have sorted : inOrder declarations = declarations := by
    apply List.mergeSort_of_pairwise
    exact ordered.imp fun before => (startsBefore_iff _ _).mpr (Or.inl before)
  have placements : placeAll declarations = placed := by
    rw [placeAll, sorted, reports.run, List.nil_append]
  simp only [resolve, targets, placements, routes, ← reports.visited, List.filter_map, List.map_map]
  rfl

/-- What a node contributes, as a declaration with a span. -/
def Entry.declaration (found : Entry) (start stop : Nat) : Declaration :=
  { rawPath := found.rawPath
    start := start
    stop := stop
    component := found.component
    skip := found.skip }

/-- Declarations start between two positions, one strictly after the other. -/
structure StartWithin (low high : Nat) (declarations : List Declaration) : Prop where
  ordered : declarations.Pairwise fun left right => left.start < right.start
  bounded : ∀ declaration ∈ declarations,
    (low : Int) ≤ declaration.start ∧ declaration.start < high

namespace StartWithin

variable {low high : Nat} {first second : List Declaration}

/-- Declarations that start behind others, in a region behind theirs, start one after the other in
any region around both. -/
theorem append {inner outer next : Nat} (front : StartWithin inner outer first)
    (back : StartWithin next high second) (passed : outer ≤ next) (lower : low ≤ inner)
    (onward : low ≤ next) (upper : outer ≤ high) : StartWithin low high (first ++ second) := by
  refine ⟨List.pairwise_append.mpr ⟨front.ordered, back.ordered, ?_⟩, ?_⟩
  · intro left early right late
    have := front.bounded left early
    have := back.bounded right late
    omega
  · intro declaration member
    rcases List.mem_append.mp member with early | late
    · have := front.bounded declaration early
      omega
    · have := back.bounded declaration late
      omega

/-- A declaration that starts before others, and before their region, can be put in front of them.
-/
theorem cons {next : Nat} {declaration : Declaration} (rest : StartWithin next high first)
    (lower : low ≤ declaration.start) (before : declaration.start < next)
    (upper : declaration.start < high) : StartWithin low high (declaration :: first) := by
  refine ⟨List.pairwise_cons.mpr ⟨?_, rest.ordered⟩, ?_⟩
  · intro other member
    have := rest.bounded other member
    omega
  · intro other member
    rcases List.mem_cons.mp member with rfl | late
    · exact ⟨lower, upper⟩
    · have := rest.bounded other late
      omega

end StartWithin

/-- A forest lays out declarations between two positions. What a node declares has a span
there, what is inside the node lies strictly inside that span, and what follows the node
comes behind it. A node that declares nothing has no span, but what is inside it still
comes before what follows. -/
inductive LaysOut (entry : α → Option Entry) : Nat → Nat → Forest α → List Declaration → Prop where
  | empty (low high : Nat) : LaysOut entry low high empty []
  | silent {low high inner outer next : Nat} {label : α} {children siblings : Forest α}
      {first second : List Declaration} (absent : entry label = none)
      (inside : LaysOut entry inner outer children first)
      (behind : LaysOut entry next high siblings second)
      (lower : low ≤ inner) (passed : outer ≤ next) (upper : outer ≤ high) (onward : low ≤ next) :
      LaysOut entry low high (node label children siblings) (first ++ second)
  | declared {low high inner outer next : Nat} {label : α} {children siblings : Forest α}
      {first second : List Declaration} (start stop : Nat) (found : Entry)
      (present : entry label = some found)
      (inside : LaysOut entry inner outer children first)
      (behind : LaysOut entry next high siblings second)
      (lower : low ≤ start) (opened : start < inner) (closed : outer < stop) (proper : start < stop)
      (passed : stop ≤ next) (upper : stop ≤ high) :
      LaysOut entry low high (node label children siblings)
        (found.declaration start stop :: (first ++ second))

namespace LaysOut

variable {entry : α → Option Entry} {low high : Nat} {forest : Forest α}
  {declarations : List Declaration}

/-- What a forest lays out starts in its region, one after the other. So the order of starts is
the document order. -/
theorem startWithin (laid : LaysOut entry low high forest declarations) :
    StartWithin low high declarations := by
  induction laid with
  | empty => exact ⟨.nil, by simp⟩
  | silent _ _ _ lower passed upper onward below beside =>
    exact below.append beside passed lower onward upper
  | declared start stop _ _ _ _ lower opened closed proper passed upper below beside =>
    have rest : StartWithin (start + 1) _ _ :=
      below.append beside (by omega) opened (by omega) (by omega)
    exact rest.cons (Int.ofNat_le.mpr lower) (Int.ofNat_lt.mpr (Nat.lt_succ_self start))
      (Int.ofNat_lt.mpr (by omega))

/-- Placing what a forest lays out reports the visits of the forest.

Proof: induction over the layout. A node without a path places nothing itself, so
its children are placed in its own position. A node with a path is placed first and
becomes the container of its children. In either case nothing reaches into what
follows the node, so its siblings have the container that the node had. -/
theorem exists_reports (laid : LaysOut entry low high forest declarations)
    {placed : List Placement} {ancestor host : Option String}
    (position : Position placed low high ancestor host) :
    ∃ others, Reports declarations high placed (forest.walk entry ancestor host).1
      (forest.walk entry ancestor host).2 others := by
  induction laid generalizing placed ancestor host with
  | empty => exact ⟨[], by simp, rfl, by simp [walk, position.hosted], by simp⟩
  | silent absent _ _ lower passed upper onward below beside =>
    obtain ⟨inner, front⟩ := below (position.shrink lower upper)
    obtain ⟨outer, back⟩ := beside
      (position.pass onward (front.widen passed).bounded front.hosted)
    simp only [walk, absent]
    exact ⟨inner ++ outer, (front.widen upper).append back⟩
  | declared start stop found present _ _ lower opened closed proper passed upper below beside =>
    -- The node may start behind the low end of the region, which is cut there first.
    have here := position.shrink lower (Nat.le_refl _)
    have spans : (found.declaration start stop).start < (found.declaration start stop).stop :=
      Int.ofNat_lt.mpr proper
    have within := Int.ofNat_le.mpr upper
    obtain ⟨inner, rest⟩ := below
      (here.descend rfl spans within opened (Int.ofNat_lt.mpr closed))
    have front := (Reports.single here rfl spans within (Int.le_refl _)).append
      (rest.widen (Nat.le_of_lt closed))
    obtain ⟨outer, back⟩ := beside
      (position.pass (by omega) (front.widen passed).bounded front.hosted)
    simp only [walk, present]
    exact ⟨_, (front.widen upper).append back⟩

/-- Resolving what a forest lays out is walking the forest: the same routes, with the
same paths and components, in the same order. -/
theorem resolve_eq (laid : LaysOut entry low high forest declarations)
    (basename : Option String) :
    resolve declarations basename = forest.routes entry basename := by
  obtain ⟨placed, reports⟩ := laid.exists_reports (.outset low high)
  exact resolve_of_reports laid.startWithin.ordered reports basename

end LaysOut

namespace Layout

variable (layout : Layout α) (entry : α → Option Entry)

/-- A forest lays out its declarations over its own width, from any offset on. The tags have
positive widths, which keeps the inside of a node strictly inside its span. -/
theorem laysOut_declarations (forest : Forest α) (offset : Nat) :
    LaysOut entry offset (offset + layout.width forest) forest
      (layout.declarations entry offset forest) := by
  induction forest generalizing offset with
  | empty => exact .empty _ _
  | node label children siblings below beside =>
    have opened := layout.opening_pos label children.isEmpty
    have total : layout.width (node label children siblings) =
        layout.nodeWidth label children + layout.width siblings := rfl
    have whole : layout.nodeWidth label children = layout.opening label children.isEmpty +
        layout.width children + layout.closingOf children := rfl
    have behind := beside (offset + layout.nodeWidth label children)
    rw [Nat.add_assoc, ← total] at behind
    cases found : entry label with
    | none =>
      simp only [declarations, found]
      exact .silent found (below _) behind (by omega) (by omega) (by omega) (by omega)
    | some present =>
      simp only [declarations, found]
      -- Nothing stands inside a leaf, which has no closing tag.
      have inside : ∃ inner outer, offset < inner ∧
          outer < offset + layout.nodeWidth label children ∧
          LaysOut entry inner outer children (layout.declarations entry
            (offset + layout.opening label children.isEmpty) children) := by
        cases children with
        | empty => exact ⟨offset + 1, offset, by omega, by omega, .empty _ _⟩
        | node first within next =>
          have closed : layout.closingOf (node first within next) = layout.closing := rfl
          have := layout.closing_pos
          exact ⟨_, _, by omega, by omega, below _⟩
      obtain ⟨inner, outer, lower, upper, laid⟩ := inside
      exact .declared offset (offset + layout.nodeWidth label children) present found laid behind
        (Nat.le_refl _) lower upper (by omega) (Nat.le_refl _) (by omega)

/-- Resolving the spans of a forest is walking the forest, whatever the widths of the tags are and
wherever the forest starts. -/
theorem resolve_declarations (forest : Forest α) (offset : Nat) (basename : Option String) :
    resolve (layout.declarations entry offset forest) basename =
      forest.routes entry basename :=
  (layout.laysOut_declarations entry forest offset).resolve_eq basename

end Layout

end Forest

end ScreenAtlas.Route
