import Mathlib.Logic.Relation
import ScreenAtlas.Proofs.ScannedRoutes
import ScreenAtlas.Proofs.TagGrammar

/-!
# The spans of scanned declarations stay in bounds

The end of a `Route` element is found by counting: from the end of its opening tag,
the count goes from one `Route` tag to the next, one level deeper behind an opening
tag and one level up behind a closing tag, until no element is open or no tag is left.

In a malformed text a tag may never end, and the scan of it then runs to the end of the
text. Still every round of the count goes forward and stays inside the text, so the
count comes to an end, and it ends behind a closing bracket or at the end of the text.
-/
namespace ScreenAtlas.Route

open ScreenAtlas.Text Relation

/-- A place behind a closing bracket or at the end of a text. -/
structure Landing (content : List Char) (place : Nat) : Prop where
  within : place ≤ content.length
  closed : content[place - 1]? = some '>' ∨ place = content.length

/-- The end of the text is a place where a span may end. -/
theorem landing_length (content : List Char) : Landing content content.length :=
  ⟨Nat.le_refl _, Or.inr rfl⟩

/-- The place behind a closing bracket is one where a span may end, and it lies inside the text.
-/
theorem landing_of_drop {content front rest : List Char} {place : Nat}
    (split : content.drop place = front ++ '>' :: rest) :
    Landing content (place + (front.length + 1)) := by
  have bracket : content[place + front.length]? = some '>' := by
    rw [← List.getElem?_drop, split]
    simp
  obtain ⟨inside, _⟩ := List.getElem?_eq_some_iff.mp bracket
  exact ⟨inside, Or.inl bracket⟩

/-- The scan of a tag goes forward and ends behind a bracket or at the end of the
text. -/
theorem Tag.scan_landing {content : List Char} {start : Nat} (inside : start < content.length) :
    start < (scan content start).1 ∧ Landing content (scan content start).1 := by
  by_cases ended : ∃ stop, EndsAt content start stop
  · obtain ⟨stop, ends⟩ := ended
    obtain ⟨within, _⟩ := List.getElem?_eq_some_iff.mp ends.bracket
    have behind := ends.behind
    rw [ends.scan_eq]
    exact ⟨by omega, by omega, Or.inl ends.bracket⟩
  · rw [scan_of_endless (not_exists.mp ended)]
    exact ⟨inside, landing_length content⟩

/-- A tag is scanned alike in the rest of a text, with positions counted from where the rest
starts. -/
theorem Tag.scan_drop {content : List Char} {place : Nat} (within : place ≤ content.length)
    (start : Nat) :
    scan content (place + start) =
      (place + (scan (content.drop place) start).1, (scan (content.drop place) start).2) := by
  simp only [scan, List.getElem?_drop, List.drop_drop, Nat.add_assoc, List.length_drop]
  cases closing? none 0 content[place + start]? (content.drop (place + (start + 1))) with
  | none => simp [Nat.add_sub_cancel' within]
  | some found => simp

/-- A recognised closing tag ends in a bracket, so the place behind it is one where a span may
end. -/
theorem exists_bracket_of_routeClosing? {before : Option Char} {text rest : List Char}
    (found : routeClosing? before text = some ((), rest)) :
    ∃ front, text = front ++ '>' :: rest := by
  cases after : literal? "</Route" text with
  | none => simp [routeClosing?, after] at found
  | some behind =>
    simp only [routeClosing?, after, Option.bind_eq_bind, Option.bind_some] at found
    split at found
    · next following skipped =>
      cases found
      refine ⟨"</Route".toList ++ behind.takeWhile isBlank, ?_⟩
      rw [eq_append_of_after? after, List.append_assoc, ← skipped, skipBlanks,
        List.takeWhile_append_dropWhile]
    · cases found

/-- The state of a count: how many elements are open, and the place reached. -/
structure Count where
  depth : Nat
  position : Nat

namespace Count

/-- One round of a count while an element is open. The next tag of the text decides: a
closing tag leads one level up and to the place behind it; an opening tag leads to the
end of this tag, one level deeper unless it closes itself. -/
inductive Step (content : List Char) : Count → Count → Prop where
  | closing {depth position : Nat} {close : Hit Unit}
      (found : first? routeClosing? (content.drop position) = some close)
      (earlier : ∀ hit, first? routeOpening? (content.drop position) = some hit →
        close.start < hit.start) :
      Step content ⟨depth + 1, position⟩ ⟨depth, position + close.stop⟩
  | opening {depth position : Nat} {hit : Hit Unit}
      (found : first? routeOpening? (content.drop position) = some hit)
      (earlier : ∀ close, first? routeClosing? (content.drop position) = some close →
        hit.start ≤ close.start) :
      Step content ⟨depth + 1, position⟩
        ⟨if (Tag.scan content (position + hit.start)).2 then depth + 1 else depth + 2,
          (Tag.scan content (position + hit.start)).1⟩

/-- The count is over: no element is open, or no tag is left. -/
def Over (content : List Char) (count : Count) : Prop :=
  count.depth = 0 ∨
    first? routeOpening? (content.drop count.position) = none ∧
      first? routeClosing? (content.drop count.position) = none

/-- Where a count that is over puts the end of the element: at the place reached, or at
the end of the text when an element is still open. -/
def outcome (content : List Char) (count : Count) : Nat :=
  if count.depth = 0 then count.position else content.length

variable {content : List Char} {count next : Count}

/-- Every round goes forward and ends behind a bracket or at the end of the text. -/
theorem Step.forward (step : Step content count next) :
    count.position < next.position ∧ Landing content next.position := by
  cases step with
  | @closing depth position close found _ =>
    generalize rest : content.drop position = text at found
    obtain ⟨front, tag, following, value, _, accepted⟩ := occurs_of_firstFrom found
    obtain ⟨inner, rfl⟩ := exists_bracket_of_routeClosing? accepted
    have place : Hit.stop (⟨0 + front.length, (inner ++ '>' :: following).length -
        following.length, value⟩ : Hit Unit) = (front ++ inner).length + 1 := by
      simp only [Hit.stop, List.length_append, List.length_cons]
      omega
    have split : content.drop position = (front ++ inner) ++ '>' :: following := by
      rw [rest, List.append_assoc]
    rw [place]
    exact ⟨by dsimp only; omega, landing_of_drop split⟩
  | @opening depth position hit found _ =>
    generalize rest : content.drop position = text at found
    obtain ⟨front, tag, following, value, present, _⟩ := occurs_of_firstFrom found
    have long := congrArg List.length rest
    have positive := List.length_pos_iff.mpr present
    rw [List.length_drop, List.length_append] at long
    have inside : position + (0 + front.length) < content.length := by omega
    obtain ⟨further, landing⟩ := Tag.scan_landing inside
    exact ⟨by dsimp only; omega, landing⟩

/-- No count goes on forever, because every round goes forward and no round leaves the text. -/
theorem wellFounded_step (content : List Char) :
    WellFounded fun next count => Step content count next := by
  refine Subrelation.wf ?_ (measure fun count : Count => content.length - count.position).wf
  intro next count step
  obtain ⟨further, landing⟩ := step.forward
  have := landing.within
  show content.length - next.position < content.length - count.position
  omega

/-- A whole run of rounds never goes back, and it stays at places where a span may end. The
induction is along the run. -/
theorem forward_of_run (run : ReflTransGen (Step content) count next)
    (landing : Landing content count.position) :
    count.position ≤ next.position ∧ Landing content next.position := by
  induction run with
  | refl => exact ⟨Nat.le_refl _, landing⟩
  | tail _ step inductionHypothesis =>
    obtain ⟨further, lands⟩ := step.forward
    exact ⟨by omega, lands⟩

/-- A count that is not over goes on: an element is open and a tag is left, and of two tags the
earlier one decides. -/
theorem exists_step (unfinished : ¬ Over content count) : ∃ next, Step content count next := by
  obtain ⟨depth, position⟩ := count
  obtain ⟨opened, tags⟩ := not_or.mp unfinished
  obtain ⟨depth, rfl⟩ := Nat.exists_eq_succ_of_ne_zero opened
  cases opening : first? routeOpening? (content.drop position) with
  | none =>
    cases closing : first? routeClosing? (content.drop position) with
    | none => exact absurd ⟨opening, closing⟩ tags
    | some close => exact ⟨_, .closing closing (by simp [opening])⟩
  | some hit =>
    cases closing : first? routeClosing? (content.drop position) with
    | none => exact ⟨_, .opening opening (by simp [closing])⟩
    | some close =>
      by_cases earlier : close.start < hit.start
      · refine ⟨_, .closing closing fun other found => ?_⟩
        obtain rfl := Option.some.inj (opening.symm.trans found)
        exact earlier
      · refine ⟨_, .opening opening fun other found => ?_⟩
        obtain rfl := Option.some.inj (closing.symm.trans found)
        exact Nat.not_lt.mp earlier

/-- A count that is over gives the end of the element: the place reached if no element is open,
and otherwise the end of the text. -/
theorem elementEnd_of_over (within : count.position ≤ content.length)
    (finished : Over content count) :
    elementEnd count.depth count.position (content.drop count.position) =
      count.outcome content := by
  obtain ⟨depth, position⟩ := count
  dsimp only at within ⊢
  cases depth with
  | zero => simp [elementEnd, outcome]
  | succ depth =>
    obtain ⟨opening, closing⟩ := finished.resolve_left (Nat.succ_ne_zero depth)
    dsimp only at opening closing
    have long : position + (content.drop position).length = content.length := by
      rw [List.length_drop]
      omega
    cases text : content.drop position with
    | nil =>
      rw [text, List.length_nil] at long
      simpa [elementEnd, outcome] using long
    | cons c rest =>
      rw [text] at opening closing long
      rw [elementEnd, outcome, if_neg (Nat.succ_ne_zero depth)]
      simpa only [opening, closing] using long

/-- What follows some characters of the rest of a text is the rest from a later place on. -/
theorem drop_rest {c : Char} {rest : List Char} {position : Nat}
    (text : content.drop position = c :: rest) {stop : Nat} (positive : 0 < stop) :
    rest.drop (stop - 1) = content.drop (position + stop) := by
  obtain ⟨fewer, rfl⟩ := Nat.exists_eq_succ_of_ne_zero (Nat.ne_of_gt positive)
  rw [← List.drop_drop, text, List.drop_succ_cons, Nat.succ_eq_add_one, Nat.add_sub_cancel]

/-- A round does not change the end of the element, for the program goes on with the same depth at
the same place. -/
theorem Step.elementEnd_eq (step : Step content count next)
    (within : count.position ≤ content.length) :
    elementEnd count.depth count.position (content.drop count.position) =
      elementEnd next.depth next.position (content.drop next.position) := by
  have further := step.forward.1
  cases step with
  | @closing depth position close found earlier =>
    dsimp only at further ⊢
    have positive : 0 < close.stop := by omega
    cases text : content.drop position with
    | nil =>
      rw [text] at found
      cases found
    | cons c rest =>
      rw [text] at found earlier
      rw [Markup.elementEnd_closing found earlier, drop_rest text positive,
        Nat.max_eq_left positive]
  | @opening depth position hit found earlier =>
    dsimp only at further within ⊢
    have scanned := Tag.scan_drop within hit.start
    cases text : content.drop position with
    | nil =>
      rw [text] at found
      cases found
    | cons c rest =>
      rw [text] at found earlier scanned
      rcases tag : Tag.scan (c :: rest) hit.start with ⟨stop, leaf⟩
      rw [scanned, tag] at further ⊢
      dsimp only at further ⊢
      have positive : 0 < stop := by omega
      rw [Markup.elementEnd_opening found earlier tag, drop_rest text positive,
        Nat.max_eq_left positive]

/-- The end of an element is where a run of rounds is over.

Proof: induction along the rounds, which end because they go forward. A count that is
not over goes on, and a round does not change the end of the element. -/
theorem exists_run (count : Count) (within : count.position ≤ content.length) :
    ∃ final, ReflTransGen (Step content) count final ∧ final.Over content ∧
      elementEnd count.depth count.position (content.drop count.position) =
        final.outcome content := by
  induction count using (wellFounded_step content).induction with
  | _ count inductionHypothesis =>
  by_cases finished : Over content count
  · exact ⟨count, .refl, finished, elementEnd_of_over within finished⟩
  · obtain ⟨next, step⟩ := exists_step finished
    obtain ⟨final, run, last, ends⟩ := inductionHypothesis next step step.forward.2.within
    exact ⟨final, .head step run, last, (step.elementEnd_eq within).trans ends⟩

end Count

/-- What holds of the span of a scanned declaration. A `Route` tag opens at its start.
The span goes forward, covers this tag, stays inside the text and ends behind a bracket
or with the text. When the tag does not close itself, the span ends where the count of
`Route` tags that starts behind it is over. -/
structure ScannedSpan (content : List Char) (start stop : Nat) : Prop where
  opens : "<Route".toList <+: content.drop start
  covers : (Tag.scan content start).1 ≤ stop
  forward : start < stop
  within : stop ≤ content.length
  closed : content[stop - 1]? = some '>' ∨ stop = content.length
  counted : if (Tag.scan content start).2 then stop = (Tag.scan content start).1
    else ∃ final, ReflTransGen (Count.Step content) ⟨1, (Tag.scan content start).1⟩ final ∧
      final.Over content ∧ stop = final.outcome content

/-- The span of an element whose tag opens at a place has all that is asked of a scanned span,
whatever the text is. -/
theorem scannedSpan {content : List Char} {start : Nat} (inside : start < content.length)
    (opens : "<Route".toList <+: content.drop start) :
    ScannedSpan content start (declarationEnd content start) := by
  obtain ⟨further, landing⟩ := Tag.scan_landing inside
  cases leaf : (Tag.scan content start).2 with
  | true =>
    have ends : declarationEnd content start = (Tag.scan content start).1 := by
      simp only [declarationEnd, leaf, ↓reduceIte]
    rw [ends]
    exact ⟨opens, Nat.le_refl _, further, landing.within, landing.closed, by simp [leaf]⟩
  | false =>
    obtain ⟨final, run, last, ends⟩ :=
      Count.exists_run ⟨1, (Tag.scan content start).1⟩ landing.within
    have reached : declarationEnd content start = final.outcome content := by
      simpa only [declarationEnd, leaf, Bool.false_eq_true, ↓reduceIte] using ends
    obtain ⟨ahead, lands⟩ := Count.forward_of_run run landing
    have covers : (Tag.scan content start).1 ≤ final.outcome content := by
      unfold Count.outcome
      split
      · exact ahead
      · exact landing.within
    have stops : Landing content (final.outcome content) := by
      unfold Count.outcome
      split
      · exact lands
      · exact landing_length content
    rw [reached]
    exact ⟨opens, covers, by omega, stops.within, stops.closed, by
      simpa [leaf] using ⟨final, run, last, rfl⟩⟩

/-- The text scan is safe on every text. Every round of its count goes forward, so no
count goes on forever. The declarations that it finds stand in the order of strictly
increasing starts; at each start a `Route` tag opens, and each span covers this tag,
goes forward, stays inside the text and ends behind a closing bracket or with the text.

Proof: a declaration is read at each hit of the search for openings, and hits follow
each other. Its end is the end of its tag or the outcome of a run of rounds; both the
scan of a tag and each round end behind a bracket or at the end of the text. -/
theorem scanned_spans_stay_in_bounds (layouts : List String) (content : List Char) :
    (∀ count next, Count.Step content count next → count.position < next.position) ∧
    (WellFounded fun next count => Count.Step content count next) ∧
    ((scanDeclarations layouts content).Pairwise fun left right => left.start < right.start) ∧
    ∀ declaration ∈ scanDeclarations layouts content, ∃ start stop : Nat,
      declaration.start = start ∧ declaration.stop = stop ∧ ScannedSpan content start stop := by
  have span {start : Nat} {declaration : Declaration}
      (made : declarationAt? layouts content start = some declaration) :
      declaration.start = start ∧ declaration.stop = declarationEnd content start := by
    simp only [declarationAt?, Option.bind_eq_bind, Option.bind_eq_some_iff, Option.pure_def,
      Option.some.injEq] at made
    obtain ⟨_, _, _, _, rfl⟩ := made
    exact ⟨rfl, rfl⟩
  refine ⟨fun count next step => step.forward.1, Count.wellFounded_step content, ?_, ?_⟩
  · refine List.pairwise_filterMap.mpr ((hitsFrom_pairwise routeOpening? 0 0 none content).imp ?_)
    intro left right before declaration made other found
    rw [(span made).1, (span found).1]
    exact Int.ofNat_lt.mpr before
  · intro declaration member
    obtain ⟨hit, present, made⟩ := List.mem_filterMap.mp member
    obtain ⟨starts, stops⟩ := span made
    refine ⟨_, _, starts, stops, ?_⟩
    obtain ⟨front, tag, following, value, filled, accepted⟩ := occurs_of_mem_hitsFrom present
    have spelled := Markup.eq_append_of_routeOpening? accepted
    have rest : (front ++ tag).drop (0 + front.length) = tag := by rw [Nat.zero_add, List.drop_left]
    have positive := List.length_pos_iff.mpr filled
    have inside : 0 + front.length < (front ++ tag).length := by
      rw [List.length_append]
      omega
    refine scannedSpan inside ?_
    rw [rest, spelled]
    exact ⟨following, by simp⟩

/-- Two tags of which the second one never ends: a brace stays open. -/
def openTags : List Char := "<Route path='/a'><Route path='/b' x=\x7b>".toList

/-- The count that starts behind the first tag goes on to the end of the text, and there
both spans end. -/
theorem openTags_stay_in_bounds :
    (scanDeclarations [] openTags).map (fun found => (found.start, found.stop)) =
        [(0, 38), (17, 38)] ∧
      ScannedSpan openTags 17 38 ∧
      ∃ next, Count.Step openTags ⟨1, 17⟩ next ∧ 17 < next.position := by
  have spans : (scanDeclarations [] openTags).map (fun found => (found.start, found.stop)) =
      [(0, 38), (17, 38)] := by
    decide +kernel
  obtain ⟨forward, _, _, bounded⟩ := scanned_spans_stay_in_bounds [] openTags
  obtain ⟨declaration, member, same⟩ :
      ∃ found ∈ scanDeclarations [] openTags, (found.start, found.stop) = (17, 38) :=
    List.mem_map.mp (by rw [spans]; decide)
  obtain ⟨starts, stops⟩ := Prod.mk.inj same
  obtain ⟨start, stop, opened, closed, span⟩ := bounded declaration member
  obtain rfl : start = 17 := Int.ofNat.inj (opened.symm.trans starts)
  obtain rfl : stop = 38 := Int.ofNat.inj (closed.symm.trans stops)
  have unfinished : ¬ Count.Over openTags ⟨1, 17⟩ := by
    rintro (closed | ⟨none, _⟩)
    · cases closed
    · exact absurd (congrArg Option.isSome none) (by decide +kernel)
  obtain ⟨next, step⟩ := Count.exists_step unfinished
  exact ⟨spans, span, next, step, forward _ next step⟩

end ScreenAtlas.Route
