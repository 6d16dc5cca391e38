import Mathlib
import ScreenAtlas.Proofs.Placement

/-!
# Resolving declarations in place

Declarations may be resolved where they stand in memory: each of them is a cell
that also carries a full path and a level, and placing it writes these two. The
cells that have been placed are read again for every cell that follows, and a
cell that is resolved a second time still carries what the first resolution left.

Nothing of this can be observed. What a cell carried before is overwritten before
it is read, so resolving in place gives what placing the bare declarations gives.
Neither the order of the cells in memory matters, as long as their spans differ,
nor what they render: a declaration that is left out anchors those inside and
behind it like any other.
-/
namespace ScreenAtlas.Route

/-- A declaration in memory, with the path and the level that it carries. -/
structure Cell where
  declaration : Declaration
  fullPath : Option String
  topLevel : Bool

/-- A cell as it is read while others are placed. -/
def Cell.placement (cell : Cell) : Placement where
  declaration := cell.declaration
  fullPath := cell.fullPath.getD ""
  topLevel := cell.topLevel
  skip := cell.declaration.skip

/-- What placing a declaration leaves in its cell. -/
def Placement.cell (placement : Placement) : Cell where
  declaration := { placement.declaration with skip := placement.skip }
  fullPath := some placement.fullPath
  topLevel := placement.topLevel

/-- Cells by position, as many as there are declarations. -/
abbrev Memory (n : Nat) := Fin n → Cell

namespace Memory

variable {n : Nat}

/-- The declarations in memory, in the order of their positions. -/
def declarations (memory : Memory n) : List Declaration :=
  List.ofFn fun position => (memory position).declaration

/-- The positions in the order in which their cells are placed. -/
def order (memory : Memory n) : List (Fin n) :=
  (List.finRange n).mergeSort fun left right =>
    startsBefore (memory left).declaration (memory right).declaration

/-- Places the cell at a position. The cells that have been placed are read as they
stand in memory now. -/
def settle (memory : Memory n) (done : List (Fin n)) (position : Fin n) : Memory n :=
  Function.update memory position
    (Placement.place (done.map fun earlier => (memory earlier).placement)
      (memory position).declaration).cell

/-- Places the cells at some positions one after the other. -/
def settleAll (memory : Memory n) (done : List (Fin n)) : List (Fin n) → Memory n
  | [] => memory
  | position :: rest => (memory.settle done position).settleAll (done ++ [position]) rest

/-- The memory after all its cells have been resolved. -/
def resolved (memory : Memory n) : Memory n := memory.settleAll [] memory.order

/-- The routes that resolving the cells makes navigable. -/
def routes (memory : Memory n) (basename : Option String) : List Target :=
  targets basename (memory.order.map fun position => (memory.resolved position).placement)

/-- No two cells cover the same span. -/
def Apart (memory : Memory n) : Prop :=
  ∀ left right, (memory left).declaration.start = (memory right).declaration.start →
    (memory left).declaration.stop = (memory right).declaration.stop → left = right

end Memory

/-- A declaration without what is rendered for it. -/
def Declaration.frame (declaration : Declaration) : Declaration :=
  { declaration with component := none, skip := false }

namespace Placement

/-- A placement without what is rendered for it. -/
def frame (placement : Placement) : Placement :=
  { placement with declaration := placement.declaration.frame, skip := false }

/-- What is rendered does not decide which span contains another, because only starts and ends are
compared. -/
theorem contains_frame (candidate : Placement) (child : Declaration) :
    candidate.frame.declaration.Contains child.frame ↔ candidate.declaration.Contains child :=
  Iff.rfl

/-- The search for a container does not look at what is rendered. The induction is from the end,
where the search compares one more candidate. -/
theorem container_frame (placed : List Placement) (child : Declaration) :
    container (placed.map frame) child.frame = (container placed child).map frame := by
  induction placed using List.reverseRecOn with
  | nil => rfl
  | append_singleton placed candidate inductionHypothesis =>
    rw [List.map_append, List.map_singleton, container_append_singleton,
      container_append_singleton, inductionHypothesis]
    simp only [contains_frame]
    by_cases contains : candidate.declaration.Contains child
    · simp only [contains, ↓reduceIte]
      cases found : container placed child with
      | none => rfl
      | some best =>
        have spans : candidate.frame.declaration.span < best.frame.declaration.span ↔
            candidate.declaration.span < best.declaration.span := Iff.rfl
        simp only [Option.map_some, spans]
        split <;> rfl
    · simp only [contains, ↓reduceIte]

/-- The search for an implicit parent does not look at what is rendered: it asks for the level,
the start and the path. -/
theorem implicitParent_frame (placed : List Placement) (child : Declaration) :
    implicitParent (placed.map frame) child.frame = (implicitParent placed child).map frame := by
  rw [implicitParent, ← List.map_reverse, List.find?_map]
  rfl

/-- Where a declaration is placed does not depend on what is rendered for it or for
the declarations placed before it. -/
theorem frame_place (placed : List Placement) (child : Declaration) :
    (place (placed.map frame) child.frame).frame = (place placed child).frame := by
  have path (found : Option Placement) :
      (found.map frame).map (·.fullPath) = found.map (·.fullPath) := by
    cases found <;> rfl
  have rooted : isRooted child.frame.rawPath = isRooted child.rawPath := rfl
  have wild : (child.frame.rawPath != wildcard) = (child.rawPath != wildcard) := rfl
  simp only [place, container_frame, implicitParent_frame, Option.isNone_map, rooted, wild,
    ← apply_ite (Option.map frame), path]
  rfl

/-- Placements of one frame are equal if their declarations and flags are, since a frame holds
everything but what is rendered. -/
theorem eq_of_frame {left right : Placement} (frames : left.frame = right.frame)
    (declaration : left.declaration = right.declaration) (skip : left.skip = right.skip) :
    left = right := by
  obtain ⟨path, level⟩ : left.fullPath = right.fullPath ∧ left.topLevel = right.topLevel :=
    ⟨congrArg (·.fullPath) frames, congrArg (·.topLevel) frames⟩
  cases left
  cases right
  simp_all

/-- In particular a declaration is placed alike after placements that differ in what
is rendered only. -/
theorem place_congr {placed others : List Placement} (same : placed.map frame = others.map frame)
    (child : Declaration) : place placed child = place others child := by
  have frames : (place placed child).frame = (place others child).frame := by
    rw [← frame_place placed, ← frame_place others, same]
  exact eq_of_frame frames rfl rfl

/-- A whole run of placing gives the same paths and levels to declarations that
differ in what is rendered only. -/
theorem run_congr {first second : List Declaration}
    (same : first.map Declaration.frame = second.map Declaration.frame)
    {placed others : List Placement} (start : placed.map frame = others.map frame) :
    (first.foldl (fun placed next => placed ++ [place placed next]) placed).map frame =
      (second.foldl (fun placed next => placed ++ [place placed next]) others).map frame := by
  induction first generalizing second placed others with
  | nil =>
    obtain rfl : second = [] := by simpa using same
    exact start
  | cons next rest inductionHypothesis =>
    cases second with
    | nil => simp at same
    | cons other remaining =>
      obtain ⟨alike, behind⟩ := List.cons.inj same
      apply inductionHypothesis behind
      have placing : (place placed next).frame = (place others other).frame := by
        rw [← frame_place placed, ← frame_place others, start, alike]
      simp [start, placing]

end Placement

open Placement

namespace Memory

variable {n : Nat}

/-- Every position is placed, and none twice: the order is a permutation of all positions. -/
theorem order_perm (memory : Memory n) : memory.order.Perm (List.finRange n) :=
  List.mergeSort_perm _ _

/-- Every position is placed, as the order is a permutation of all of them. -/
theorem mem_order (memory : Memory n) (position : Fin n) : position ∈ memory.order :=
  memory.order_perm.mem_iff.mpr (List.mem_finRange position)

/-- No position is placed again, so that each cell is written once. -/
theorem nodup_order (memory : Memory n) : memory.order.Nodup :=
  memory.order_perm.nodup_iff.mpr (List.nodup_finRange n)

/-- The positions are placed in the order of their declarations, which is the order in which bare
declarations are placed. -/
theorem map_order (memory : Memory n) :
    memory.order.map (fun position => (memory position).declaration) =
      inOrder memory.declarations := by
  rw [order, List.map_mergeSort (s := startsBefore) (fun _ _ _ _ => rfl), ← List.ofFn_eq_map]
  rfl

/-- Reading a cell that has been placed shows the placement, apart from the flag,
which placing may have raised in the declaration. -/
theorem frame_placement_cell (placement : Placement) :
    placement.cell.placement.frame = placement.frame := rfl

/-- What has happened when some positions have been placed: all other cells are as
they were, and the placed ones hold what placing their declarations one after the
other gives. -/
structure Progress (memory now : Memory n) (done : List (Fin n)) (placed : List Placement) :
    Prop where
  untouched : ∀ position, position ∉ done → now position = memory position
  written : done.map now = placed.map Placement.cell
  declared : done.map (fun position => (memory position).declaration) =
    placed.map (·.declaration)

/-- Before the first position nothing has happened: all cells are as they were, and there are no
placements. -/
theorem progress_nil (memory : Memory n) : Progress memory memory [] [] :=
  ⟨fun _ _ => rfl, rfl, rfl⟩

/-- Placing one more position reads nothing that a cell carried before: it gives what
placing the declaration after the placements so far gives. -/
theorem Progress.step {memory now : Memory n} {done : List (Fin n)} {placed : List Placement}
    (progress : Progress memory now done placed) {position : Fin n} (fresh : position ∉ done) :
    Progress memory (now.settle done position) (done ++ [position])
      (placed ++ [place placed (memory position).declaration]) := by
  have seen : (done.map fun earlier => (now earlier).placement).map frame = placed.map frame := by
    have cells := congrArg (List.map fun cell : Cell => cell.placement.frame) progress.written
    simpa only [List.map_map, Function.comp_def, frame_placement_cell] using cells
  have here := progress.untouched position fresh
  have written : now.settle done position = Function.update now position
      (place placed (memory position).declaration).cell := by
    rw [settle, here, place_congr seen]
  rw [written]
  refine ⟨?_, ?_, ?_⟩
  · intro other outside
    rw [List.mem_append, List.mem_singleton, not_or] at outside
    rw [Function.update_of_ne outside.2]
    exact progress.untouched other outside.1
  · have kept : done.map (Function.update now position
        (place placed (memory position).declaration).cell) = done.map now := by
      apply List.map_congr_left
      intro earlier member
      apply Function.update_of_ne
      rintro rfl
      exact fresh member
    rw [List.map_append, kept, progress.written]
    simp
  · rw [List.map_append, progress.declared]
    simp [place]

/-- A run over distinct positions gives what placing their declarations gives. The induction is on
the positions that are left, one step for each. -/
theorem Progress.run {memory now : Memory n} {done : List (Fin n)} {placed : List Placement}
    (progress : Progress memory now done placed) (rest : List (Fin n))
    (distinct : (done ++ rest).Nodup) :
    Progress memory (now.settleAll done rest) (done ++ rest)
      ((rest.map fun position => (memory position).declaration).foldl
        (fun placed next => placed ++ [place placed next]) placed) := by
  induction rest generalizing now done placed with
  | nil => simpa [settleAll] using progress
  | cons position rest inductionHypothesis =>
    have fresh : position ∉ done := by
      intro member
      exact (List.nodup_append.mp distinct).2.2 position member position List.mem_cons_self rfl
    have shifted : done ++ position :: rest = done ++ [position] ++ rest := by simp
    rw [shifted] at distinct ⊢
    exact inductionHypothesis (progress.step fresh) distinct

/-- Resolving in place writes into the cells what placing their bare declarations
gives, whatever the cells carried before. -/
theorem progress_resolved (memory : Memory n) :
    Progress memory memory.resolved memory.order (placeAll memory.declarations) := by
  have run := memory.progress_nil.run memory.order memory.nodup_order
  rw [map_order] at run
  exact run

/-- The routes of the cells are those of their declarations: a placed cell is read with the path,
the level and the flag of its placement, and routes are read off these. -/
theorem routes_eq_resolve (memory : Memory n) (basename : Option String) :
    memory.routes basename = resolve memory.declarations basename := by
  have cells := congrArg (List.map Cell.placement) memory.progress_resolved.written
  rw [List.map_map, List.map_map] at cells
  rw [routes, resolve]
  change targets basename (memory.order.map (Cell.placement ∘ memory.resolved)) = _
  rw [cells, targets, targets, List.filter_map, List.map_map]
  rfl

/-- Resolving raises the flag of a wildcard and changes nothing else of a
declaration. -/
theorem declaration_resolved (memory : Memory n) (position : Fin n) :
    (memory.resolved position).declaration =
      { (memory position).declaration with
        skip := (memory position).declaration.skip ||
          (memory position).declaration.rawPath == wildcard } := by
  obtain ⟨_, written, declared⟩ := memory.progress_resolved
  have flagged : memory.order.map (fun position => (memory.resolved position).declaration) =
      memory.order.map fun position =>
        { (memory position).declaration with
          skip := (memory position).declaration.skip ||
            (memory position).declaration.rawPath == wildcard } := by
    have left := congrArg (List.map Cell.declaration) written
    have right := congrArg (List.map fun declaration : Declaration =>
      { declaration with
        skip := declaration.skip || declaration.rawPath == wildcard }) declared
    rw [List.map_map, List.map_map] at left right
    refine left.trans (Eq.trans ?_ right.symm)
    apply List.map_congr_left
    intro placement member
    simp only [Function.comp_apply, Placement.cell, skip_of_mem_placeAll member]
  exact List.map_eq_map_iff.mp flagged position (memory.mem_order position)

end Memory

/-- Declarations of different spans are placed in one order only, since two that come before each
other have the same span. -/
theorem inOrder_eq_of_perm {first second : List Declaration} (same : first.Perm second)
    (apart : ∀ left ∈ first, ∀ right ∈ first, left.start = right.start →
      left.stop = right.stop → left = right) :
    inOrder first = inOrder second := by
  apply List.Perm.eq_of_pairwise _ (inOrder_pairwise first) (inOrder_pairwise second)
    ((List.mergeSort_perm _ _).trans (same.trans (List.mergeSort_perm _ _).symm))
  intro left right leftMember rightMember before behind
  rw [startsBefore_iff] at before behind
  simp only [Declaration.span] at before behind
  apply apart left (List.mem_mergeSort.mp leftMember) right
    (same.mem_iff.mpr (List.mem_mergeSort.mp rightMember))
  · omega
  · omega

namespace Memory

variable {n : Nat} {memory others : Memory n}

/-- Cells whose declarations differ in what is rendered only are placed in the same order, for the
order looks at spans. -/
theorem order_congr (same : ∀ position, (others position).declaration.frame =
      (memory position).declaration.frame) : others.order = memory.order := by
  have before (left right : Fin n) :
      startsBefore (others left).declaration (others right).declaration =
        startsBefore (memory left).declaration (memory right).declaration := by
    change startsBefore (others left).declaration.frame (others right).declaration.frame =
      startsBefore (memory left).declaration.frame (memory right).declaration.frame
    rw [same, same]
  simp only [order, before]

/-- Cells whose declarations differ in what is rendered only get the same paths and levels.

Proof: their declarations are placed in the same order, and placing does not look at
what is rendered. -/
theorem resolved_congr (same : ∀ position, (others position).declaration.frame =
      (memory position).declaration.frame) (position : Fin n) :
    (others.resolved position).fullPath = (memory.resolved position).fullPath ∧
      (others.resolved position).topLevel = (memory.resolved position).topLevel := by
  have frames : (placeAll others.declarations).map frame =
      (placeAll memory.declarations).map frame := by
    apply run_congr _ rfl
    rw [← map_order, ← map_order, order_congr same, List.map_map, List.map_map]
    exact List.map_congr_left fun position _ => same position
  have cells (given : Memory n) :
      given.order.map (fun position => ((given.resolved position).fullPath,
        (given.resolved position).topLevel)) =
      ((placeAll given.declarations).map frame).map fun placement =>
        (some placement.fullPath, placement.topLevel) := by
    have written := congrArg (List.map fun cell : Cell => (cell.fullPath, cell.topLevel))
      given.progress_resolved.written
    rw [List.map_map, List.map_map] at written
    rw [List.map_map]
    exact written
  have pairs := (cells others).trans ((congrArg _ frames).trans (cells memory).symm)
  rw [order_congr same] at pairs
  exact Prod.mk.inj (List.map_eq_map_iff.mp pairs position (memory.mem_order position))

/-- Cells in another order get the same paths, levels and flags, when no two of them
cover the same span.

Proof: the declarations are placed in the same order, so each cell of one memory is
written like some cell of the other, and the span tells which. -/
theorem resolved_of_shuffle (shuffle : Equiv.Perm (Fin n)) (apart : memory.Apart)
    (same : ∀ position, (others position).declaration =
      (memory (shuffle position)).declaration) :
    placeAll others.declarations = placeAll memory.declarations ∧
      ∀ position, others.resolved position = memory.resolved (shuffle position) := by
  have shuffled : memory.declarations.Perm others.declarations := by
    have listed : others.declarations = List.ofFn
        ((fun position => (memory position).declaration) ∘ shuffle) := by
      rw [declarations, funext same]
      rfl
    rw [listed]
    exact (shuffle.ofFn_comp_perm _).symm
  have ordered : inOrder memory.declarations = inOrder others.declarations := by
    apply inOrder_eq_of_perm shuffled
    intro left leftMember right rightMember starts stops
    obtain ⟨first, rfl⟩ := List.mem_ofFn.mp leftMember
    obtain ⟨second, rfl⟩ := List.mem_ofFn.mp rightMember
    rw [apart first second starts stops]
  have placed : placeAll others.declarations = placeAll memory.declarations := by
    rw [placeAll, placeAll, ordered]
  refine ⟨placed, fun position => ?_⟩
  have written : others.resolved position ∈ memory.order.map memory.resolved := by
    rw [memory.progress_resolved.written, ← placed, ← others.progress_resolved.written]
    exact List.mem_map.mpr ⟨position, others.mem_order position, rfl⟩
  obtain ⟨found, _, equal⟩ := List.mem_map.mp written
  have spans := congrArg Cell.declaration equal
  rw [declaration_resolved, declaration_resolved, same, Declaration.mk.injEq] at spans
  have here : found = shuffle position := apart found (shuffle position) spans.2.1 spans.2.2.1
  rw [← equal, here]

/-- Resolving cells again changes nothing. The first time has only raised flags, which does not
move a declaration and is repeated by the second. -/
theorem resolved_resolved (memory : Memory n) : memory.resolved.resolved = memory.resolved := by
  funext position
  have same : ∀ position, (memory.resolved position).declaration.frame =
      (memory position).declaration.frame := by
    intro position
    rw [declaration_resolved]
    rfl
  obtain ⟨path, level⟩ := resolved_congr same position
  have declared : (memory.resolved.resolved position).declaration =
      (memory.resolved position).declaration := by
    rw [declaration_resolved, declaration_resolved]
    simp
  cases again : memory.resolved.resolved position
  cases once : memory.resolved position
  rw [again, once] at path level declared
  rw [Cell.mk.injEq]
  exact ⟨declared, path, level⟩

/-- What resolution gives depends on the declarations only. Whatever paths and levels
the cells carry, they are written as placing their bare declarations says, and make
the routes of these. Cells in any other order get the same paths, levels and flags and
make the same routes, when no two of them cover the same span. Resolving a second time
changes nothing. And what the cells render, or that they are left out, changes no path
and no level, whatever their spans are.

Proof: a cell is overwritten before it is read. Different spans leave one order of
placing, and placing does not look at what is rendered. -/
theorem resolution_depends_on_declarations_only (memory : Memory n) (basename : Option String) :
    (memory.routes basename = resolve memory.declarations basename ∧
      memory.order.map memory.resolved =
        (placeAll memory.declarations).map Placement.cell) ∧
    (∀ (others : Memory n) (shuffle : Equiv.Perm (Fin n)), memory.Apart →
      (∀ position, (others position).declaration =
        (memory (shuffle position)).declaration) →
      others.routes basename = memory.routes basename ∧
        ∀ position, others.resolved position = memory.resolved (shuffle position)) ∧
    (memory.resolved.resolved = memory.resolved ∧
      memory.resolved.routes basename = memory.routes basename) ∧
    ∀ others : Memory n,
      (∀ position, (others position).declaration.rawPath = (memory position).declaration.rawPath ∧
        (others position).declaration.start = (memory position).declaration.start ∧
        (others position).declaration.stop = (memory position).declaration.stop) →
      ∀ position, (others.resolved position).fullPath = (memory.resolved position).fullPath ∧
        (others.resolved position).topLevel = (memory.resolved position).topLevel := by
  refine ⟨⟨memory.routes_eq_resolve basename, memory.progress_resolved.written⟩, ?_,
    ⟨memory.resolved_resolved, ?_⟩, ?_⟩
  · intro others shuffle apart same
    obtain ⟨placed, cells⟩ := resolved_of_shuffle shuffle apart same
    refine ⟨?_, cells⟩
    rw [routes_eq_resolve, routes_eq_resolve, resolve, resolve, placed]
  · have order : memory.resolved.order = memory.order := by
      apply order_congr
      intro position
      rw [declaration_resolved]
      rfl
    rw [routes, routes, order, resolved_resolved]
  · intro others same
    apply resolved_congr
    intro position
    obtain ⟨path, start, stop⟩ := same position
    rw [Declaration.frame, Declaration.frame, Declaration.mk.injEq]
    exact ⟨path, start, stop, rfl, rfl⟩

/-- A layout, a page inside it and a wildcard behind it, none of them placed yet. -/
def sample : Memory 3
  | 0 => ⟨⟨"/app", 0, 40, some "MainLayout", true⟩, none, false⟩
  | 1 => ⟨⟨"reports", 10, 30, some "Reports", false⟩, none, false⟩
  | 2 => ⟨⟨"*", 50, 60, some "Missing", false⟩, none, false⟩

/-- The declarations of the sample in another order, carrying paths and levels that are not
theirs. -/
def shuffledSample : Memory 3
  | 0 => ⟨⟨"reports", 10, 30, some "Reports", false⟩, some "/elsewhere", true⟩
  | 1 => ⟨⟨"*", 50, 60, some "Missing", false⟩, some "/app", true⟩
  | 2 => ⟨⟨"/app", 0, 40, some "MainLayout", true⟩, some "/elsewhere/app", false⟩

/-- The sample makes one route: the layout is left out and anchors its page. -/
theorem routes_sample : sample.routes none = [⟨"/app/reports", some "Reports"⟩] := by
  have sorted : inOrder sample.declarations = sample.declarations :=
    List.mergeSort_of_pairwise (by decide)
  rw [routes_eq_resolve, resolve, placeAll, sorted]
  decide +kernel

/-- The sample in another order, with paths and levels left over from elsewhere, makes the same
route, and its page is written as in the sample. -/
theorem shuffledSample_makes_the_same_route :
    sample.Apart ∧
      (∀ position, (shuffledSample position).declaration =
        (sample (finRotate 3 position)).declaration) ∧
      shuffledSample.routes none = [⟨"/app/reports", some "Reports"⟩] ∧
      shuffledSample.resolved 0 = sample.resolved 1 := by
  have apart : sample.Apart := by
    unfold Apart
    decide
  have same : ∀ position, (shuffledSample position).declaration =
      (sample (finRotate 3 position)).declaration := by
    decide
  obtain ⟨routes, cells⟩ :=
    (resolution_depends_on_declarations_only sample none).2.1 shuffledSample (finRotate 3)
      apart same
  exact ⟨apart, same, routes.trans routes_sample, cells 0⟩

end Memory

end ScreenAtlas.Route
