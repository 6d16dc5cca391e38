import ScreenAtlas.Proofs.CanonicalPath
import ScreenAtlas.Proofs.Gathering
import ScreenAtlas.Route.Resolution

/-!
# What placing declarations computes

Placing is one pass over the declarations in the order of their starts, and each
declaration looks for its parent among those placed before it only. The parent is
described here without reference to the pass: over the whole list it is the
smallest span that strictly contains the declaration, or, for a relative path
that nothing contains, the last rooted declaration of the top level that starts
before it.

The two agree because everything that can be a parent starts strictly before its
child. The order of starts therefore puts every possible parent into the part
that has already been placed, and what is placed is never changed again. Spans
are arbitrary: they may overlap, coincide, be empty or run backwards.
-/
namespace ScreenAtlas.Route

/-- One span strictly contains another, with room at both ends. -/
def Declaration.Contains (outer inner : Declaration) : Prop :=
  outer.start < inner.start ∧ inner.stop < outer.stop

instance (outer inner : Declaration) : Decidable (outer.Contains inner) :=
  inferInstanceAs (Decidable (_ ∧ _))

/-- A declaration is placed before another exactly when it starts earlier or, of equal starts,
when its span is not the shorter one. -/
theorem startsBefore_iff (left right : Declaration) :
    startsBefore left right = true ↔
      left.start < right.start ∨ left.start = right.start ∧ right.span ≤ left.span := by
  simp [startsBefore]

/-- The order of placing is transitive, as a lexicographic order of numbers. Sorting needs this.
-/
theorem startsBefore_trans (left middle right : Declaration)
    (first : startsBefore left middle = true) (second : startsBefore middle right = true) :
    startsBefore left right = true := by
  rw [startsBefore_iff] at *
  omega

/-- Of two declarations one can always be placed first, so that sorting by this order compares
them all. -/
theorem startsBefore_total (left right : Declaration) :
    (startsBefore left right || startsBefore right left) = true := by
  rw [Bool.or_eq_true, startsBefore_iff, startsBefore_iff]
  omega

/-- The declarations are placed in the order of their starts, each before all that follow it and
not only before the next one. -/
theorem inOrder_pairwise (declarations : List Declaration) :
    (inOrder declarations).Pairwise fun left right => startsBefore left right = true :=
  List.pairwise_mergeSort startsBefore_trans startsBefore_total declarations

namespace Placement

/-- A placement is, over a whole list, the innermost one around a declaration:
its span is the smallest that strictly contains the declaration, of equal spans
the one that starts first, and of coinciding ones the first in the list. -/
structure Innermost (placed : List Placement) (child : Declaration) (parent : Placement) :
    Prop where
  contains : parent.declaration.Contains child
  smallest : ∀ other ∈ placed, other.declaration.Contains child →
    parent.declaration.span < other.declaration.span ∨
      parent.declaration.span = other.declaration.span ∧
        parent.declaration.start ≤ other.declaration.start
  first : ∃ earlier later, placed = earlier ++ parent :: later ∧
    ∀ other ∈ earlier, ¬ (other.declaration.start = parent.declaration.start ∧
      other.declaration.stop = parent.declaration.stop)

/-- A placement can host a relative declaration that nothing contains: it is of
the top level, starts before the declaration and has a rooted path. -/
def Hosts (host : Placement) (child : Declaration) : Prop :=
  host.topLevel = true ∧ host.declaration.start < child.start ∧
    isRooted host.declaration.rawPath = true

/-- A placement is the last of a list that can host a declaration. -/
def LastHost (placed : List Placement) (child : Declaration) (parent : Placement) : Prop :=
  parent.Hosts child ∧ ∃ earlier later, placed = earlier ++ parent :: later ∧
    ∀ other ∈ later, ¬ other.Hosts child

/-- The parent of a declaration over a whole list of placements: the innermost container, else the
last host, else none. -/
inductive Parent (placed : List Placement) (child : Declaration) : Option Placement → Prop where
  | enclosing {parent : Placement} (innermost : Innermost placed child parent) :
      Parent placed child (some parent)
  | preceding {parent : Placement}
      (alone : ∀ other ∈ placed, ¬ other.declaration.Contains child)
      (relative : isRooted child.rawPath = false) (ordinary : child.rawPath ≠ wildcard)
      (host : LastHost placed child parent) : Parent placed child (some parent)
  | absent (alone : ∀ other ∈ placed, ¬ other.declaration.Contains child)
      (unhosted : isRooted child.rawPath = true ∨ child.rawPath = wildcard ∨
        ∀ other ∈ placed, ¬ other.Hosts child) : Parent placed child none

/-- The search for a container looks at one more candidate behind the others. It takes the new one
if this contains the declaration and is strictly smaller. -/
theorem container_append_singleton (placed : List Placement) (candidate : Placement)
    (child : Declaration) :
    container (placed ++ [candidate]) child =
      if candidate.declaration.Contains child then
        match container placed child with
        | none => some candidate
        | some found =>
          if candidate.declaration.span < found.declaration.span then some candidate
          else some found
      else container placed child := by
  rw [container, List.foldl_append, List.foldl_cons, List.foldl_nil, ← container]
  by_cases contains : candidate.declaration.Contains child
  · have guard : (decide (candidate.declaration.start < child.start) &&
        decide (candidate.declaration.stop > child.stop)) = true := by
      simpa [Declaration.Contains] using contains
    simp only [guard, contains, ↓reduceIte]
    cases container placed child <;> rfl
  · have guard : (decide (candidate.declaration.start < child.start) &&
        decide (candidate.declaration.stop > child.stop)) = false := by
      rw [← Bool.not_eq_true]
      simpa [Declaration.Contains] using contains
    simp only [guard, contains, Bool.false_eq_true, ↓reduceIte]

/-- The search finds nothing exactly when nothing contains the declaration. The induction is from
the end, as the search keeps the best of what it has seen. -/
theorem container_eq_none_iff (placed : List Placement) (child : Declaration) :
    container placed child = none ↔
      ∀ other ∈ placed, ¬ other.declaration.Contains child := by
  induction placed using List.reverseRecOn with
  | nil => simp [container]
  | append_singleton placed candidate inductionHypothesis =>
    rw [container_append_singleton]
    by_cases contains : candidate.declaration.Contains child
    · have present : ¬ ∀ other ∈ placed ++ [candidate], ¬ other.declaration.Contains child :=
        fun none => none candidate (by simp) contains
      simp only [contains, ↓reduceIte, present, iff_false]
      split
      · simp
      · split <;> simp
    · simp only [contains, ↓reduceIte, inductionHypothesis, List.forall_mem_append]
      simp [contains]

/-- What the search finds is the first of the smallest spans that contain the
declaration.

Proof: induction over the candidates from the left. A later candidate replaces
the one found only when its span is strictly smaller, so the one found is
strictly smaller than what precedes it and no larger than what follows. -/
theorem container_first {placed : List Placement} {child : Declaration} {parent : Placement}
    (found : container placed child = some parent) :
    parent.declaration.Contains child ∧ ∃ earlier later, placed = earlier ++ parent :: later ∧
      (∀ other ∈ earlier, other.declaration.Contains child →
        parent.declaration.span < other.declaration.span) ∧
      ∀ other ∈ later, other.declaration.Contains child →
        parent.declaration.span ≤ other.declaration.span := by
  induction placed using List.reverseRecOn generalizing parent with
  | nil => simp [container] at found
  | append_singleton placed candidate inductionHypothesis =>
    rw [container_append_singleton] at found
    by_cases contains : candidate.declaration.Contains child
    · simp only [contains, ↓reduceIte] at found
      cases best : container placed child with
      | none =>
        rw [best] at found
        obtain rfl := Option.some.inj found
        have alone := (container_eq_none_iff placed child).mp best
        exact ⟨contains, placed, [], rfl,
          fun other member inside => absurd inside (alone other member), by simp⟩
      | some previous =>
        obtain ⟨inside, earlier, later, split, before, behind⟩ := inductionHypothesis best
        simp only [best] at found
        by_cases smaller : candidate.declaration.span < previous.declaration.span
        · simp only [smaller, ↓reduceIte] at found
          obtain rfl := Option.some.inj found
          refine ⟨contains, placed, [], rfl, ?_, by simp⟩
          intro other member around
          rw [split] at member
          rcases List.mem_append.mp member with early | rest
          · exact Int.lt_trans smaller (before other early around)
          · rcases List.mem_cons.mp rest with rfl | late
            · exact smaller
            · exact Int.lt_of_lt_of_le smaller (behind other late around)
        · simp only [smaller, ↓reduceIte] at found
          obtain rfl := Option.some.inj found
          refine ⟨inside, earlier, later ++ [candidate], by simp [split], before, ?_⟩
          intro other member around
          rcases List.mem_append.mp member with late | last
          · exact behind other late around
          · obtain rfl := List.mem_singleton.mp last
            exact Int.not_lt.mp smaller
    · simp only [contains, ↓reduceIte] at found
      obtain ⟨inside, earlier, later, split, before, behind⟩ := inductionHypothesis found
      refine ⟨inside, earlier, later ++ [candidate], by simp [split], before, ?_⟩
      intro other member around
      rcases List.mem_append.mp member with late | last
      · exact behind other late around
      · obtain rfl := List.mem_singleton.mp last
        exact absurd around contains

/-- Searching the placed part finds the innermost container of the whole list,
when nothing behind that part starts before the declaration. -/
theorem innermost_of_container {placed rest : List Placement} {child : Declaration}
    {parent : Placement}
    (ordered : (placed ++ rest).Pairwise fun left right =>
      startsBefore left.declaration right.declaration = true)
    (behind : ∀ other ∈ rest, child.start ≤ other.declaration.start)
    (found : container placed child = some parent) :
    Innermost (placed ++ rest) child parent := by
  obtain ⟨contains, earlier, later, split, before, after⟩ := container_first found
  subst split
  refine ⟨contains, ?_, earlier, later ++ rest, by simp, ?_⟩
  · intro other member around
    rcases List.mem_append.mp member with inside | outside
    · rcases List.mem_append.mp inside with early | middle
      · exact Or.inl (before other early around)
      · rcases List.mem_cons.mp middle with rfl | late
        · exact Or.inr ⟨rfl, Int.le_refl _⟩
        · have tail := (List.pairwise_append.mp (List.pairwise_append.mp ordered).1).2.1
          have starts := (startsBefore_iff _ _).mp ((List.pairwise_cons.mp tail).1 other late)
          have spans := after other late around
          omega
    · have starts := behind other outside
      have := around.1
      omega
  · rintro other early ⟨sameStart, sameStop⟩
    have around : other.declaration.Contains child := by
      rw [Declaration.Contains, sameStart, sameStop]
      exact contains
    have spans := before other early around
    simp only [Declaration.span] at spans
    omega

/-- A rooted path is never the wildcard, because the wildcard does not start with a slash. -/
theorem ne_wildcard_of_rooted {raw : String} (rooted : isRooted raw = true) : raw ≠ wildcard := by
  rintro rfl
  simp [isRooted, wildcard] at rooted

/-- The search for an implicit parent finds the last host of the whole list, when
nothing behind the searched part starts before the declaration. -/
theorem lastHost_of_implicitParent {placed rest : List Placement} {child : Declaration}
    {parent : Placement} (behind : ∀ other ∈ rest, child.start ≤ other.declaration.start)
    (found : implicitParent placed child = some parent) :
    LastHost (placed ++ rest) child parent := by
  obtain ⟨accepted, reversed, remaining, split, refused⟩ := List.find?_eq_some_iff_append.mp found
  simp only [Bool.and_eq_true, decide_eq_true_eq, bne_iff_ne] at accepted
  refine ⟨⟨accepted.1.1.1, accepted.1.1.2, accepted.1.2⟩,
    remaining.reverse, reversed.reverse ++ rest, ?_, ?_⟩
  · have straight := congrArg List.reverse split
    rw [List.reverse_reverse] at straight
    simp [straight]
  · rintro other member ⟨topLevel, starts, rooted⟩
    rcases List.mem_append.mp member with late | outside
    · have rejected := refused other (List.mem_reverse.mp late)
      simp [topLevel, starts, rooted, ne_wildcard_of_rooted rooted] at rejected
    · have := behind other outside
      omega

/-- Without an implicit parent in the placed part the whole list has no host: what stands behind
that part starts too late to be one. -/
theorem unhosted_of_implicitParent {placed rest : List Placement} {child : Declaration}
    (behind : ∀ other ∈ rest, child.start ≤ other.declaration.start)
    (nothing : implicitParent placed child = none) :
    ∀ other ∈ placed ++ rest, ¬ other.Hosts child := by
  rintro other member ⟨topLevel, starts, rooted⟩
  rcases List.mem_append.mp member with inside | outside
  · have rejected := List.find?_eq_none.mp nothing other (List.mem_reverse.mpr inside)
    simp [topLevel, starts, rooted, ne_wildcard_of_rooted rooted] at rejected
  · have := behind other outside
    omega

/-- Nothing in the placed part contains a declaration exactly when nothing in the
whole list does. -/
theorem alone_iff {placed rest : List Placement} {child : Declaration}
    (behind : ∀ other ∈ rest, child.start ≤ other.declaration.start) :
    container placed child = none ↔
      ∀ other ∈ placed ++ rest, ¬ other.declaration.Contains child := by
  rw [container_eq_none_iff]
  constructor
  · intro alone other member around
    rcases List.mem_append.mp member with inside | outside
    · exact alone other inside around
    · have starts := behind other outside
      have := around.1
      omega
  · intro alone other member
    exact alone other (List.mem_append_left rest member)

/-- The parent that placing picks for a declaration, among the placements before it. -/
def chosenParent (placed : List Placement) (child : Declaration) : Option Placement :=
  if (container placed child).isNone && !isRooted child.rawPath && child.rawPath != wildcard then
    implicitParent placed child
  else container placed child

/-- The parent that placing picks is one of the placements before, in either way in which it can
be found. -/
theorem chosenParent_mem {placed : List Placement} {child : Declaration}
    {parent : Placement} (chosen : chosenParent placed child = some parent) : parent ∈ placed := by
  unfold chosenParent at chosen
  split at chosen
  · exact List.mem_reverse.mp (List.mem_of_find?_eq_some chosen)
  · obtain ⟨_, earlier, later, rfl, _⟩ := container_first chosen
    simp

/-- Placing picks the parent over the whole list, although it searches only the part before the
declaration. What is behind starts no earlier, so it can neither contain nor host the declaration.
-/
theorem parent_chosen {placed rest : List Placement} {child : Declaration}
    (ordered : (placed ++ rest).Pairwise fun left right =>
      startsBefore left.declaration right.declaration = true)
    (behind : ∀ other ∈ rest, child.start ≤ other.declaration.start) :
    Parent (placed ++ rest) child (chosenParent placed child) := by
  cases enclosing : container placed child with
  | some parent =>
    simpa [chosenParent, enclosing] using
      Parent.enclosing (innermost_of_container ordered behind enclosing)
  | none =>
    have alone := (alone_iff behind).mp enclosing
    by_cases rooted : isRooted child.rawPath = true
    · simpa [chosenParent, enclosing, rooted] using Parent.absent alone (Or.inl rooted)
    · by_cases everything : child.rawPath = wildcard
      · simpa [chosenParent, enclosing, everything] using
          Parent.absent alone (Or.inr (Or.inl everything))
      · have relative : isRooted child.rawPath = false := by simpa using rooted
        cases implicit : implicitParent placed child with
        | some parent =>
          simpa [chosenParent, enclosing, relative, everything, implicit] using
            Parent.preceding alone relative everything
              (lastHost_of_implicitParent behind implicit)
        | none =>
          simpa [chosenParent, enclosing, relative, everything, implicit] using
            Parent.absent alone (Or.inr (Or.inr (unhosted_of_implicitParent behind implicit)))

/-- Two splits of one list at members that are each the first of their kind, with
both members of the same kind, are the same split. -/
theorem eq_of_first (kind : Placement → Prop)
    {placed earlier later earlier' later' : List Placement} {parent parent' : Placement}
    (split : placed = earlier ++ parent :: later)
    (split' : placed = earlier' ++ parent' :: later')
    (fresh : ∀ other ∈ earlier, ¬ kind other) (fresh' : ∀ other ∈ earlier', ¬ kind other)
    (shown : kind parent) (shown' : kind parent') : parent = parent' := by
  rcases List.append_eq_append_iff.mp (split.symm.trans split') with
    ⟨between, left, right⟩ | ⟨between, left, right⟩
  · cases between with
    | nil => exact (List.cons.inj right).1
    | cons first others =>
      have same : parent = first := (List.cons.inj right).1
      exact absurd shown (fresh' parent (by simp [left, same]))
  · cases between with
    | nil => exact (List.cons.inj right).1.symm
    | cons first others =>
      have same : parent' = first := (List.cons.inj right).1
      exact absurd shown' (fresh parent' (by simp [left, same]))

/-- A declaration has at most one innermost container: two of them would have equal spans and
starts, and each is the first such in the list. -/
theorem Innermost.unique {placed : List Placement} {child : Declaration}
    {parent parent' : Placement} (innermost : Innermost placed child parent)
    (innermost' : Innermost placed child parent') : parent = parent' := by
  obtain ⟨contains, smallest, earlier, later, split, fresh⟩ := innermost
  obtain ⟨contains', smallest', earlier', later', split', fresh'⟩ := innermost'
  have forth := smallest parent' (by simp [split']) contains'
  have back := smallest' parent (by simp [split]) contains
  have starts : parent.declaration.start = parent'.declaration.start := by omega
  have stops : parent.declaration.stop = parent'.declaration.stop := by
    simp only [Declaration.span] at forth back
    omega
  rw [← starts, ← stops] at fresh'
  exact eq_of_first
    (fun other => other.declaration.start = parent.declaration.start ∧
      other.declaration.stop = parent.declaration.stop)
    split split' fresh fresh' ⟨rfl, rfl⟩ ⟨starts.symm, stops.symm⟩

/-- A declaration has at most one last host, since no host stands behind either of two. -/
theorem LastHost.unique {placed : List Placement} {child : Declaration}
    {parent parent' : Placement} (host : LastHost placed child parent)
    (host' : LastHost placed child parent') : parent = parent' := by
  obtain ⟨hosts, earlier, later, split, fresh⟩ := host
  obtain ⟨hosts', earlier', later', split', fresh'⟩ := host'
  have reversed := congrArg List.reverse split
  have reversed' := congrArg List.reverse split'
  simp only [List.reverse_append, List.reverse_cons, List.append_assoc,
    List.singleton_append] at reversed reversed'
  exact eq_of_first (fun other => other.Hosts child) reversed reversed'
    (by simpa using fresh) (by simpa using fresh') hosts hosts'

/-- A parent is itself one of the placements, whether it contains the declaration or precedes it.
-/
theorem Parent.mem {placed : List Placement} {child : Declaration} {parent : Placement}
    (given : Parent placed child (some parent)) : parent ∈ placed := by
  cases given with
  | enclosing innermost =>
    obtain ⟨earlier, later, split, _⟩ := innermost.first
    simp [split]
  | preceding _ _ _ host =>
    obtain ⟨earlier, later, split, _⟩ := host.2
    simp [split]

/-- A declaration has at most one parent, so the description determines it: the three ways to have
a parent or none exclude each other. -/
theorem Parent.unique {placed : List Placement} {child : Declaration}
    {parent parent' : Option Placement} (given : Parent placed child parent)
    (given' : Parent placed child parent') : parent = parent' := by
  have member {found : Placement} (innermost : Innermost placed child found) :
      found ∈ placed := (Parent.enclosing innermost).mem
  cases given with
  | enclosing innermost =>
    cases given' with
    | enclosing innermost' => rw [innermost.unique innermost']
    | preceding alone => exact absurd innermost.contains (alone _ (member innermost))
    | absent alone => exact absurd innermost.contains (alone _ (member innermost))
  | preceding alone relative ordinary host =>
    cases given' with
    | enclosing innermost' => exact absurd innermost'.contains (alone _ (member innermost'))
    | preceding _ _ _ host' => rw [host.unique host']
    | absent _ unhosted =>
      rcases unhosted with rooted | everything | nobody
      · simp [relative] at rooted
      · exact absurd everything ordinary
      · exact absurd host.1 (nobody _ (Parent.preceding alone relative ordinary host).mem)
  | absent alone unhosted =>
    cases given' with
    | enclosing innermost' => exact absurd innermost'.contains (alone _ (member innermost'))
    | preceding _ relative ordinary host' =>
      rcases unhosted with rooted | everything | nobody
      · simp [relative] at rooted
      · exact absurd everything ordinary
      · exact absurd host'.1 (nobody _ (Parent.preceding alone relative ordinary host').mem)
    | absent => rfl

/-- Every placement of a list is what placing gave for its declaration after the
placements before it: nothing has been changed since. -/
def Settled (placed : List Placement) : Prop :=
  ∀ earlier placement later, placed = earlier ++ placement :: later →
    placement = place earlier placement.declaration

/-- Before the first declaration there is nothing to settle; this is where a run of placing
starts. -/
theorem settled_nil : Settled [] := by
  intro earlier placement later split
  simp at split

/-- Placing one more declaration settles it and leaves everything placed before it as it is,
because it is put behind the others. -/
theorem Settled.step {placed : List Placement} (settled : Settled placed)
    (next : Declaration) : Settled (placed ++ [place placed next]) := by
  intro earlier placement later split
  cases later using List.reverseRecOn with
  | nil =>
    obtain ⟨same, last⟩ := List.append_inj' split rfl
    obtain rfl := (List.cons.inj last).1
    rw [same]
    rfl
  | append_singleton later last =>
    rw [← List.cons_append, ← List.append_assoc] at split
    exact settled earlier placement later (List.append_inj' split rfl).1

/-- A whole run of placing settles its declarations in their order. The induction is on the
declarations that are still to be placed. -/
theorem Settled.run {placed : List Placement} (settled : Settled placed)
    (order : List Declaration) :
    Settled (order.foldl (fun placed next => placed ++ [place placed next]) placed) ∧
      (order.foldl (fun placed next => placed ++ [place placed next]) placed).map
        (·.declaration) = placed.map (·.declaration) ++ order := by
  induction order generalizing placed with
  | nil => exact ⟨settled, by simp⟩
  | cons next order inductionHypothesis =>
    obtain ⟨run, declarations⟩ := inductionHypothesis (settled.step next)
    refine ⟨run, declarations.trans ?_⟩
    simp [place]

end Placement

open Placement

/-- All declarations are placed, each once, in the order of their starts; placing drops none and
moves none. -/
theorem placeAll_declarations (declarations : List Declaration) :
    (placeAll declarations).map (·.declaration) = inOrder declarations :=
  (settled_nil.run (inOrder declarations)).2

/-- What is placed has its final path when it is placed, as the run starts with nothing and every
step only adds. -/
theorem placeAll_settled (declarations : List Declaration) : Settled (placeAll declarations) :=
  (settled_nil.run (inOrder declarations)).1

/-- The placements stand in the order of the starts of their declarations, which is the order in
which they are placed. -/
theorem placeAll_pairwise (declarations : List Declaration) :
    (placeAll declarations).Pairwise fun left right =>
      startsBefore left.declaration right.declaration = true := by
  have sorted := inOrder_pairwise declarations
  rw [← placeAll_declarations] at sorted
  exact List.pairwise_map.mp sorted

/-- Exactly the given declarations are placed: sorting changes only their order. -/
theorem exists_mem_placeAll {declarations : List Declaration} {declaration : Declaration} :
    (∃ placement ∈ placeAll declarations, placement.declaration = declaration) ↔
      declaration ∈ declarations := by
  rw [← List.mem_map, placeAll_declarations]
  exact List.mem_mergeSort

/-- A property holds of the declarations of all placements exactly when it holds of all
declarations. So statements about placements can be read off the declarations. -/
theorem forall_placeAll (declarations : List Declaration) (property : Declaration → Prop) :
    (∀ other ∈ placeAll declarations, property other.declaration) ↔
      ∀ other ∈ declarations, property other := by
  simp [← exists_mem_placeAll]

/-- A placement is left out exactly when its declaration is to be skipped or its raw path is the
wildcard. Its parent has no say in this. -/
theorem skip_of_mem_placeAll {declarations : List Declaration} {placement : Placement}
    (member : placement ∈ placeAll declarations) :
    placement.skip = (placement.declaration.skip || placement.declaration.rawPath == wildcard) := by
  obtain ⟨earlier, later, split⟩ := List.append_of_mem member
  rw [placeAll_settled declarations earlier placement later split]
  rfl

/-- The full path of every placement is canonical: it was joined when the declaration was placed,
and joining gives canonical paths only. -/
theorem fullPath_canonical {declarations : List Declaration} {placement : Placement}
    (member : placement ∈ placeAll declarations) : Canonical placement.fullPath.toList := by
  obtain ⟨earlier, later, split⟩ := List.append_of_mem member
  rw [placeAll_settled declarations earlier placement later split]
  exact join_canonical _ _

/-- Values are gathered by themselves: a value is added exactly when it is not there, so that each
stays once. -/
theorem gathersBy_addNew {α : Type} [BEq α] [LawfulBEq α] : GathersBy (id : α → α) addNew := by
  refine GathersBy.of_test (fun _ _ => rfl) ?_
  intro found value
  rw [List.map_id]
  exact List.contains_iff_mem

/-- Adding values to others keeps both: what was there stays, and every value is there afterwards.
-/
theorem mem_foldl_addNew {α : Type} [BEq α] [LawfulBEq α] {found values : List α} {value : α} :
    value ∈ values.foldl addNew found ↔ value ∈ found ∨ value ∈ values := by
  simpa using gathersBy_addNew.mem_keys found values value

/-- The resolved routes are those of the placements that are not left out, with the full path
below the basename and the component of the declaration. -/
theorem mem_resolve {declarations : List Declaration} {basename : Option String}
    {target : Target} :
    target ∈ resolve declarations basename ↔
      ∃ placement ∈ placeAll declarations, placement.skip = false ∧
        ⟨underBasename basename placement.fullPath, placement.declaration.component⟩ = target := by
  simp [resolve, targets, distinct, mem_foldl_addNew, and_assoc]

/-- A raw path as it stands below a parent: a rooted path stands for itself, any
other one is appended to the parent's path, or to the root without a parent. -/
def below (parent : Option String) (raw : String) : String :=
  if isRooted raw then raw else parent.getD "" ++ "/" ++ raw

/-- A full path is the normal form of the raw path below its parent's, without
one trailing splat. -/
theorem join_eq_below (parent : Option String) (raw : String)
    (canonical : ∀ path ∈ parent, Canonical path.toList) :
    join parent raw = withoutSplat (normalize (below parent raw)) := by
  by_cases rooted : isRooted raw = true
  · simpa [below, rooted] using join_rooted parent raw rooted
  · have relative : isRooted raw = false := by simpa using rooted
    cases parent with
    | none => simpa [below, relative] using join_none raw relative
    | some path => simpa [below, relative] using join_some path raw relative (canonical path rfl)

/-- Placing meets its description over the whole list of declarations, whatever
their spans are. Every declaration is placed once, in the order of starts and
descending spans, and declarations of equal spans keep their order. A placement
is of the top level exactly when no declaration strictly contains it. It has
exactly one parent over the whole list, or none, and its full path is the normal
form of its raw path below that parent's full path, without a trailing splat.

Proof: a placement is what placing gave after the ones before it. The placements
behind it start no earlier, so none of them contains it or hosts it, and the
search of the part before it decides for the whole list. -/
theorem placeAll_meets_description (declarations : List Declaration) :
    (placeAll declarations).map (·.declaration) = inOrder declarations ∧
    (inOrder declarations).Perm declarations ∧
    (inOrder declarations).Pairwise (fun left right =>
      left.start < right.start ∨ left.start = right.start ∧ right.span ≤ left.span) ∧
    (∀ left right : Declaration, left.start = right.start → left.span = right.span →
      [left, right].Sublist declarations → [left, right].Sublist (inOrder declarations)) ∧
    ∀ child ∈ placeAll declarations,
      (child.topLevel = true ↔ ∀ other ∈ declarations, ¬ other.Contains child.declaration) ∧
      ∃ parent, Parent (placeAll declarations) child.declaration parent ∧
        (∀ other, Parent (placeAll declarations) child.declaration other → other = parent) ∧
        child.fullPath = withoutSplat (normalize
          (below (parent.map (·.fullPath)) child.declaration.rawPath)) := by
  refine ⟨placeAll_declarations declarations, List.mergeSort_perm _ _, ?_, ?_, ?_⟩
  · exact (inOrder_pairwise declarations).imp fun before => (startsBefore_iff _ _).mp before
  · intro left right starts spans pair
    apply List.pair_sublist_mergeSort startsBefore_trans startsBefore_total _ pair
    rw [startsBefore_iff]
    omega
  · intro child member
    obtain ⟨earlier, later, split⟩ := List.append_of_mem member
    have ordered := placeAll_pairwise declarations
    have behind : ∀ other ∈ child :: later,
        child.declaration.start ≤ other.declaration.start := by
      intro other late
      rcases List.mem_cons.mp late with rfl | late
      · exact Int.le_refl _
      · rw [split] at ordered
        have tail := (List.pairwise_append.mp ordered).2.1
        have := (startsBefore_iff _ _).mp ((List.pairwise_cons.mp tail).1 other late)
        omega
    have settled := placeAll_settled declarations earlier child later split
    have parent : Parent (placeAll declarations) child.declaration
        (chosenParent earlier child.declaration) := by
      rw [split] at ordered ⊢
      exact parent_chosen ordered behind
    refine ⟨?_, chosenParent earlier child.declaration, parent,
      fun other given => given.unique parent, ?_⟩
    · have flag : child.topLevel = (container earlier child.declaration).isNone := by
        conv_lhs => rw [settled]
        rfl
      rw [flag, Option.isNone_iff_eq_none, alone_iff behind, ← split]
      exact forall_placeAll declarations fun other => ¬ other.Contains child.declaration
    · have path : child.fullPath = join ((chosenParent earlier child.declaration).map (·.fullPath))
          child.declaration.rawPath := by
        conv_lhs => rw [settled]
        rfl
      rw [path]
      apply join_eq_below
      intro above present
      obtain ⟨found, chosen, rfl⟩ := Option.map_eq_some_iff.mp present
      rw [chosen] at parent
      exact fullPath_canonical parent.mem

end ScreenAtlas.Route
