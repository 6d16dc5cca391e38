import Mathlib.Data.List.Induction
import ScreenAtlas.Proofs.TagText

/-!
# The scan of a tag reads exactly its grammar

A tag ends at a bracket that only a tag body separates from the tag's opening. The
scan passes over every body, so it finds such an end when there is one. Conversely,
a scan that finds an end has passed over a body: a quoted run or a brace group that
it enters is one that it also leaves, since inside of these it only looks for their
ends. So a tag has at most one end, and the scan finds exactly the ends of tags.
-/
namespace ScreenAtlas.Route.Tag

open ScreenAtlas.Text

/-- A scan that passes over something and finds an end finds it behind that. -/
theorem exists_of_later {passed : Nat} {answer : Option (Nat × Bool)} {found : Nat × Bool}
    (shown : later passed answer = some found) : ∃ behind, answer = some behind := by
  obtain ⟨behind, given, _⟩ := Option.map_eq_some_iff.mp shown
  exact ⟨behind, given⟩

/-- A scan that finds an end from inside a quoted run has passed its closing mark. The induction
is on the text, up to the first such mark. -/
theorem exists_mark_of_closing? {mark : Char} {before : Option Char} {text : List Char}
    {found : Nat × Bool} (shown : closing? (some mark) 0 before text = some found) :
    ∃ inner rest, text = inner ++ mark :: rest ∧ mark ∉ inner := by
  induction text generalizing before found with
  | nil => simp [closing?] at shown
  | cons c text inductionHypothesis =>
    by_cases closes : c = mark
    · exact ⟨[], text, by simp [closes], List.not_mem_nil⟩
    · have other : (c == mark) = false := by simpa using closes
      simp only [closing?, other, Bool.false_eq_true, ↓reduceIte] at shown
      obtain ⟨behind, given⟩ := exists_of_later shown
      obtain ⟨inner, rest, rfl, unquoted⟩ := inductionHypothesis given
      exact ⟨c :: inner, rest, rfl, by simp [Ne.symm closes, unquoted]⟩

/-- A scan that finds an end from inside a brace group has passed its closing brace,
with balanced text before it.

Proof: induction over the length of the text. At an opening brace the inner group is
balanced by the induction hypothesis; the scan goes on behind it at the same depth,
and the induction hypothesis applies once more. -/
theorem exists_balanced_of_closing? {depth : Nat} {before : Option Char} {text : List Char}
    {found : Nat × Bool} (shown : closing? none (depth + 1) before text = some found) :
    ∃ inner rest, text = inner ++ '\x7d' :: rest ∧ Balanced inner := by
  induction size : text.length using Nat.strongRecOn
    generalizing depth before text found with
  | ind size inductionHypothesis =>
  subst size
  cases text with
  | nil => simp [closing?] at shown
  | cons c text =>
    by_cases closes : c = '\x7d'
    · exact ⟨[], text, by simp [closes], .nil⟩
    by_cases opens : c = '\x7b'
    · subst opens
      obtain ⟨behind, given⟩ := exists_of_later ((closing?_open _ _ _).symm.trans shown)
      obtain ⟨inner, rest, rfl, inside⟩ :=
        inductionHypothesis text.length (by simp) given rfl
      rw [closing?_group (closing?_balanced inside _)] at shown
      obtain ⟨last, given⟩ := exists_of_later shown
      obtain ⟨further, rest, rfl, balanced⟩ := inductionHypothesis rest.length
        (by simp only [List.length_append, List.length_cons]; omega) given rfl
      exact ⟨'\x7b' :: inner ++ '\x7d' :: further, rest, by simp,
        .group inner further inside balanced⟩
    · rw [closing?_char _ _ _ _ opens closes (by omega)] at shown
      obtain ⟨behind, given⟩ := exists_of_later shown
      obtain ⟨inner, rest, rfl, inside⟩ :=
        inductionHypothesis text.length (by simp) given rfl
      exact ⟨c :: inner, rest, rfl, .char c inner opens closes inside⟩

/-- A scan that finds an end has passed over a body up to a closing bracket.

Proof: induction over the length of the text, with one case for each way in which a
body can go on. -/
theorem exists_body_of_closing? {before : Option Char} {text : List Char} {found : Nat × Bool}
    (shown : closing? none 0 before text = some found) :
    ∃ body rest, text = body ++ '>' :: rest ∧ Body body := by
  induction size : text.length using Nat.strongRecOn generalizing before text found with
  | ind size inductionHypothesis =>
  subst size
  cases text with
  | nil => simp [closing?] at shown
  | cons c text =>
    by_cases ends : c = '>'
    · exact ⟨[], text, by simp [ends], .nil⟩
    by_cases quote : c = '"' ∨ c = '\''
    · have entered : closing? none 0 before (c :: text) =
          later 1 (closing? (some c) 0 (some c) text) := by
        rcases quote with rfl | rfl <;> simp [closing?, later]
      rw [entered] at shown
      obtain ⟨behind, given⟩ := exists_of_later shown
      obtain ⟨inner, rest, rfl, unquoted⟩ := exists_mark_of_closing? given
      rw [closing?_quoted c _ inner rest unquoted] at given
      obtain ⟨last, given⟩ := exists_of_later given
      obtain ⟨body, rest, rfl, passable⟩ := inductionHypothesis rest.length
        (by simp only [List.length_append, List.length_cons]; omega) given rfl
      exact ⟨c :: inner ++ c :: body, rest, by simp, .quoted c inner body quote unquoted passable⟩
    obtain ⟨double, single⟩ := not_or.mp quote
    by_cases opens : c = '\x7b'
    · subst opens
      obtain ⟨behind, given⟩ := exists_of_later ((closing?_open _ _ _).symm.trans shown)
      obtain ⟨inner, rest, rfl, inside⟩ := exists_balanced_of_closing? given
      rw [closing?_group (closing?_balanced inside 0)] at shown
      obtain ⟨last, given⟩ := exists_of_later shown
      obtain ⟨body, rest, rfl, passable⟩ := inductionHypothesis rest.length
        (by simp only [List.length_append, List.length_cons]; omega) given rfl
      exact ⟨'\x7b' :: inner ++ '\x7d' :: body, rest, by simp,
        .group inner body inside passable⟩
    · have passed : closing? none 0 before (c :: text) =
          later 1 (closing? none 0 (some c) text) := by
        by_cases closes : c = '\x7d'
        · rw [closes, closing?_close]
        · exact closing?_char 0 before c text opens closes fun _ => ⟨double, single, ends⟩
      rw [passed] at shown
      obtain ⟨behind, given⟩ := exists_of_later shown
      obtain ⟨body, rest, rfl, passable⟩ :=
        inductionHypothesis text.length (by simp) given rfl
      exact ⟨c :: body, rest, rfl, .char c body double single opens ends passable⟩

/-- The scan finds an end exactly behind a body and a closing bracket, and reports
whether a slash precedes the bracket. -/
theorem closing?_eq_some_iff {before : Option Char} {text : List Char} {length : Nat}
    {slash : Bool} :
    closing? none 0 before text = some (length, slash) ↔
      ∃ body rest, text = body ++ '>' :: rest ∧ Body body ∧ length = body.length + 1 ∧
        slash = (lastOr before body == some '/') := by
  have behind {body : List Char} (passable : Body body) (rest : List Char) :
      closing? none 0 before (body ++ '>' :: rest) =
        some (body.length + 1, lastOr before body == some '/') := by
    rw [closing?_body passable]
    simp [closing?, later, Nat.add_comm]
  constructor
  · intro shown
    obtain ⟨body, rest, rfl, passable⟩ := exists_body_of_closing? shown
    rw [behind passable, Option.some.injEq, Prod.mk.injEq] at shown
    exact ⟨body, rest, rfl, passable, shown.1.symm, shown.2.symm⟩
  · rintro ⟨body, rest, rfl, passable, rfl, rfl⟩
    exact behind passable rest

/-- A tag that opens at `start` ends before `stop`: a body and the closing bracket
stand between the two. -/
structure EndsAt (content : List Char) (start stop : Nat) : Prop where
  behind : start + 1 < stop
  body : Body ((content.take (stop - 1)).drop (start + 1))
  bracket : content[stop - 1]? = some '>'

/-- A tag ends at a place exactly when what follows its opening is a body, a bracket and more,
with the bracket right before that place. -/
theorem endsAt_iff_exists {content : List Char} {start stop : Nat} :
    EndsAt content start stop ↔ ∃ body rest, content.drop (start + 1) = body ++ '>' :: rest ∧
      Body body ∧ stop = start + 1 + (body.length + 1) := by
  constructor
  · rintro ⟨behind, body, bracket⟩
    obtain ⟨inside, same⟩ := List.getElem?_eq_some_iff.mp bracket
    have place : start + 1 + (stop - 1 - (start + 1)) = stop - 1 := by omega
    refine ⟨_, content.drop (stop - 1 + 1), ?_, body, ?_⟩
    · have further : (content.drop (start + 1)).drop (stop - 1 - (start + 1)) =
          content.drop (stop - 1) := by rw [List.drop_drop, place]
      rw [← same, ← List.drop_eq_getElem_cons inside, List.drop_take, ← further]
      exact (List.take_append_drop _ _).symm
    · rw [List.length_drop, List.length_take]
      omega
  · rintro ⟨body, rest, split, passable, rfl⟩
    have place : start + 1 + (body.length + 1) - 1 = start + 1 + body.length := by omega
    refine ⟨by omega, ?_, ?_⟩
    · rw [List.drop_take, split, place, Nat.add_sub_cancel_left, List.take_left]
      exact passable
    · rw [place, ← List.getElem?_drop, split]
      simp

/-- The scan finds the end of a tag exactly when it has one. So whether a tag ends somewhere can
be decided. -/
theorem endsAt_iff {content : List Char} {start stop : Nat} :
    EndsAt content start stop ↔
      (closing? none 0 content[start]? (content.drop (start + 1))).map
        (fun found => start + 1 + found.1) = some stop := by
  rw [endsAt_iff_exists, Option.map_eq_some_iff]
  constructor
  · rintro ⟨body, rest, split, passable, rfl⟩
    exact ⟨_, closing?_eq_some_iff.mpr ⟨body, rest, split, passable, rfl, rfl⟩, rfl⟩
  · rintro ⟨⟨length, slash⟩, found, rfl⟩
    obtain ⟨body, rest, split, passable, rfl, _⟩ := closing?_eq_some_iff.mp found
    exact ⟨body, rest, split, passable, rfl⟩

instance (content : List Char) (start stop : Nat) : Decidable (EndsAt content start stop) :=
  decidable_of_iff _ endsAt_iff.symm

/-- A tag has at most one end, because each of its ends is the one that the scan finds. -/
theorem EndsAt.unique {content : List Char} {start stop other : Nat}
    (ends : EndsAt content start stop) (again : EndsAt content start other) : other = stop :=
  Option.some.inj ((endsAt_iff.mp again).symm.trans (endsAt_iff.mp ends))

/-- The character before the closing bracket is the last one of the body, or the one
at the opening when the body is empty. -/
theorem lastOr_body {content body rest : List Char} {start : Nat}
    (split : content.drop (start + 1) = body ++ rest) :
    lastOr content[start]? body = content[start + body.length]? := by
  cases body using List.reverseRecOn with
  | nil => simp [lastOr]
  | append_singleton front last =>
    have place : start + (front ++ [last]).length = start + 1 + front.length := by
      simp only [List.length_append, List.length_singleton]
      omega
    rw [lastOr_concat, place, ← List.getElem?_drop, split]
    simp

/-- The scan of a tag that has an end gives this end and looks at the character before
the closing bracket. -/
theorem EndsAt.scan_eq {content : List Char} {start stop : Nat}
    (ends : EndsAt content start stop) :
    scan content start = (stop, content[stop - 2]? == some '/') := by
  obtain ⟨body, rest, split, passable, rfl⟩ := endsAt_iff_exists.mp ends
  have found : closing? none 0 content[start]? (content.drop (start + 1)) =
      some (body.length + 1, lastOr content[start]? body == some '/') :=
    closing?_eq_some_iff.mpr ⟨body, rest, split, passable, rfl, rfl⟩
  have place : start + 1 + (body.length + 1) - 2 = start + body.length := by omega
  rw [place, ← lastOr_body split]
  simp only [scan, found]

/-- The scan of a tag without an end runs to the end of the text and says that the tag does not
close itself. -/
theorem scan_of_endless {content : List Char} {start : Nat}
    (endless : ∀ stop, ¬ EndsAt content start stop) :
    scan content start = (content.length, false) := by
  cases found : closing? none 0 content[start]? (content.drop (start + 1)) with
  | none => simp only [scan, found]
  | some answer => exact absurd (endsAt_iff.mpr (by rw [found]; rfl)) (endless _)

/-- The scan of a tag accepts exactly the grammar of tags. When the tag that opens at
a place has an end, that end is the only one, and the scan gives it and says whether a
slash stands before the closing bracket; otherwise the scan gives the end of the text
and says that the tag does not close itself. This holds for every text and every place,
and it makes no difference whether the place is given by a natural number or by an
integer.

Proof: a scan that passes over a body and meets a bracket ends there, and a scan that
ends anywhere has passed over a body up to a bracket. -/
theorem scan_accepts_exactly_tags (content : List Char) (start : Nat) :
    scanFrom content start = some (((scan content start).1 : Int), (scan content start).2) ∧
    (∀ stop, EndsAt content start stop →
      (∀ other, EndsAt content start other → other = stop) ∧
      scan content start = (stop, content[stop - 2]? == some '/')) ∧
    ((∀ stop, ¬ EndsAt content start stop) → scan content start = (content.length, false)) := by
  refine ⟨by simp [scanFrom], ?_, scan_of_endless⟩
  intro stop ends
  exact ⟨fun other again => ends.unique again, ends.scan_eq⟩

/-- A tag with brackets, braces and quotes where they have no meaning: in quoted runs,
in a nested brace group and as a stray closing brace. -/
def tangledTag : List Char := "<A \x7d b='\x7b>' c=\x7bx > \"\x7b'\x7d\x7d />z".toList

/-- The end of the tangled tag is found, and it has no other. A tag with an open quote has no end
at all. -/
theorem tangledTag_ends_once :
    EndsAt tangledTag 0 27 ∧ scan tangledTag 0 = (27, true) ∧
      (∀ other, EndsAt tangledTag 0 other → other = 27) ∧
      (∀ stop, ¬ EndsAt "<A b='/>".toList 0 stop) ∧
      scan "<A b='/>".toList 0 = (8, false) := by
  have ends : EndsAt tangledTag 0 27 := by decide +kernel
  have endless : ∀ stop, ¬ EndsAt "<A b='/>".toList 0 stop := by
    intro stop ends
    rw [endsAt_iff] at ends
    exact absurd ends (by simp [closing?])
  obtain ⟨_, accepted, _⟩ := scan_accepts_exactly_tags tangledTag 0
  obtain ⟨_, _, refused⟩ := scan_accepts_exactly_tags "<A b='/>".toList 0
  obtain ⟨unique, scanned⟩ := accepted 27 ends
  exact ⟨ends, scanned.trans (by decide +kernel), unique, endless, refused endless⟩

end ScreenAtlas.Route.Tag
