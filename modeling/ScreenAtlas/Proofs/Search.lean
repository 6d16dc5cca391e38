import Mathlib.Data.List.Basic
import ScreenAtlas.Text.Scan

/-!
# Searching a text that is put together from pieces

A search tries a recogniser at one place after the other. When the recogniser
accepts at no place of a piece, the search goes on behind the piece as if it had
started there. Every hit stands at a place where the recogniser accepts, and hits
follow each other. This module states that, and the few facts on literals and blanks
that decide where a recogniser accepts.
-/
namespace ScreenAtlas.Text

/-- The last character of a text, or the one before it when it is empty. -/
def lastOr (before : Option Char) : List Char → Option Char
  | [] => before
  | c :: rest => lastOr (some c) rest

/-- The last character of two texts is looked for in the second one first, and in the first one
when the second is empty. -/
theorem lastOr_append (before : Option Char) (left right : List Char) :
    lastOr before (left ++ right) = lastOr (lastOr before left) right := by
  induction left generalizing before with
  | nil => rfl
  | cons c rest inductionHypothesis => exact inductionHypothesis (some c)

/-- The last character of a text that ends in a given one is this one, whatever stands before. -/
theorem lastOr_concat (before : Option Char) (text : List Char) (c : Char) :
    lastOr before (text ++ [c]) = some c := by
  rw [lastOr_append]
  rfl

variable {α : Type} (recognise : Recogniser α)

/-- The recogniser accepts at no place of a piece, when the given text follows. -/
def Avoids : List Char → List Char → Prop
  | [], _ => True
  | c :: piece, rest =>
    (∀ before, recognise before (c :: piece ++ rest) = none) ∧ Avoids piece rest

variable {recognise}

/-- Two pieces are avoided one after the other exactly when the first is avoided with the second
behind it, and then the second. -/
theorem avoids_append {left right rest : List Char} :
    Avoids recognise (left ++ right) rest ↔
      Avoids recognise left (right ++ rest) ∧ Avoids recognise right rest := by
  induction left with
  | nil => simp [Avoids]
  | cons c left inductionHypothesis =>
    simp only [List.cons_append, Avoids, inductionHypothesis, List.append_assoc, and_assoc]

/-- A recogniser that accepts at one character only avoids all pieces without it, whatever
follows. The induction is on the piece. -/
theorem avoids_of_not_mem {mark : Char}
    (needs : ∀ before c text, c ≠ mark → recognise before (c :: text) = none)
    {piece : List Char} (absent : mark ∉ piece) (rest : List Char) :
    Avoids recognise piece rest := by
  induction piece with
  | nil => trivial
  | cons c piece inductionHypothesis =>
    simp only [List.mem_cons, not_or] at absent
    exact ⟨fun before => needs before c _ (Ne.symm absent.1), inductionHypothesis absent.2⟩

/-- The search for the first hit goes on behind an avoided piece as if it had started there, with
the piece counted into the offset. -/
theorem firstFrom_append {piece rest : List Char} (avoided : Avoids recognise piece rest)
    (offset : Nat) (before : Option Char) :
    firstFrom recognise offset before (piece ++ rest) =
      firstFrom recognise (offset + piece.length) (lastOr before piece) rest := by
  induction piece generalizing offset before with
  | nil => rfl
  | cons c piece inductionHypothesis =>
    have refused := avoided.1 before
    rw [List.cons_append] at refused ⊢
    simp only [firstFrom, refused, inductionHypothesis avoided.2, lastOr, List.length_cons]
    congr 1
    omega

/-- The first hit of a text whose front is avoided is the one behind the front, if the recogniser
accepts there. -/
theorem first?_append {front text behind : List Char} {value : α}
    (avoided : Avoids recognise front text)
    (accepted : recognise (lastOr none front) text = some (value, behind)) (present : text ≠ []) :
    first? recognise (front ++ text) =
      some ⟨front.length, text.length - behind.length, value⟩ := by
  rw [first?, firstFrom_append avoided]
  cases text with
  | nil => exact absurd rfl present
  | cons c text => simp [firstFrom, accepted]

/-- A text that is avoided as a whole has no hit, since the search ends behind its last character.
-/
theorem first?_eq_none {text : List Char} (avoided : Avoids recognise text []) :
    first? recognise text = none := by
  have passed := firstFrom_append avoided 0 none
  rw [List.append_nil] at passed
  exact passed

/-- A hit stands in a text that starts at `offset`, behind the character `before`: the
recogniser accepts at the place of the hit, and the hit covers what it recognised. -/
inductive Occurs (recognise : Recogniser α) (offset : Nat) (before : Option Char) :
    List Char → Hit α → Prop where
  | behind (front rest following : List Char) (value : α) (present : rest ≠ [])
      (accepted : recognise (lastOr before front) rest = some (value, following)) :
      Occurs recognise offset before (front ++ rest)
        ⟨offset + front.length, rest.length - following.length, value⟩

/-- A hit that stands in a text stands in every longer text as well, with one more character in
front. -/
theorem Occurs.cons {text : List Char} {offset : Nat} {before : Option Char} {c : Char}
    {hit : Hit α} (occurs : Occurs recognise (offset + 1) (some c) text hit) :
    Occurs recognise offset before (c :: text) hit := by
  obtain ⟨front, rest, following, value, present, accepted⟩ := occurs
  have place : offset + 1 + front.length = offset + (c :: front).length := by
    rw [List.length_cons]
    omega
  rw [place, ← List.cons_append]
  exact .behind (c :: front) rest following value present accepted

/-- The first hit stands in the text. The induction is on the text, as the search either accepts
at its front or moves on. -/
theorem occurs_of_firstFrom {text : List Char} {offset : Nat} {before : Option Char}
    {hit : Hit α} (found : firstFrom recognise offset before text = some hit) :
    Occurs recognise offset before text hit := by
  induction text generalizing offset before with
  | nil => cases found
  | cons c text inductionHypothesis =>
    rw [firstFrom] at found
    split at found
    · next value following accepted =>
      obtain rfl := Option.some.inj found
      exact .behind [] (c :: text) following value (List.cons_ne_nil c text) accepted
    · exact (inductionHypothesis found).cons

/-- No hit starts before the place where the search starts, as a hit stands in the text that is
searched. -/
theorem le_start_of_firstFrom {text : List Char} {offset : Nat} {before : Option Char}
    {hit : Hit α} (found : firstFrom recognise offset before text = some hit) :
    offset ≤ hit.start := by
  obtain ⟨front, rest, following, value, _, _⟩ := occurs_of_firstFrom found
  exact Nat.le_add_right offset front.length

/-- Where some place of a text is accepted, there is a first hit, at this place or before it. -/
theorem firstFrom_ne_none {front rest : List Char} {before : Option Char} (present : rest ≠ [])
    (accepted : recognise (lastOr before front) rest ≠ none) (offset : Nat) :
    firstFrom recognise offset before (front ++ rest) ≠ none := by
  induction front generalizing offset before with
  | nil =>
    obtain ⟨c, text, rfl⟩ := List.exists_cons_of_ne_nil present
    obtain ⟨⟨value, following⟩, found⟩ := Option.ne_none_iff_exists'.mp accepted
    rw [lastOr] at found
    simp [firstFrom, found]
  | cons c front inductionHypothesis =>
    rw [List.cons_append, firstFrom]
    split
    · exact Option.some_ne_none _
    · exact inductionHypothesis accepted (offset + 1)

/-- The search for all hits goes on behind an avoided piece as if it had started there. -/
theorem hitsFrom_append {piece rest : List Char} (avoided : Avoids recognise piece rest)
    (offset : Nat) (before : Option Char) :
    hitsFrom recognise 0 offset before (piece ++ rest) =
      hitsFrom recognise 0 (offset + piece.length) (lastOr before piece) rest := by
  induction piece generalizing offset before with
  | nil => rfl
  | cons c piece inductionHypothesis =>
    have refused := avoided.1 before
    rw [List.cons_append] at refused ⊢
    simp only [hitsFrom, refused, inductionHypothesis avoided.2, lastOr, List.length_cons]
    congr 1
    omega

/-- A piece that belongs to a hit is passed over by counting off its length, and the search goes
on behind it. -/
theorem hitsFrom_skip (recognise : Recogniser α) (piece rest : List Char) (offset : Nat)
    (before : Option Char) :
    hitsFrom recognise piece.length offset before (piece ++ rest) =
      hitsFrom recognise 0 (offset + piece.length) (lastOr before piece) rest := by
  induction piece generalizing offset before with
  | nil => rfl
  | cons c piece inductionHypothesis =>
    simp only [List.cons_append, List.length_cons, hitsFrom, inductionHypothesis, lastOr]
    congr 1
    omega

/-- Behind a hit the search goes on with what the recogniser left, if it took at least one
character. -/
theorem hitsFrom_hit {piece rest : List Char} {before : Option Char} {value : α}
    (accepted : recognise before (piece ++ rest) = some (value, rest)) (filled : piece ≠ [])
    (offset : Nat) :
    hitsFrom recognise 0 offset before (piece ++ rest) =
      ⟨offset, piece.length, value⟩ ::
        hitsFrom recognise 0 (offset + piece.length) (lastOr before piece) rest := by
  cases piece with
  | nil => exact absurd rfl filled
  | cons c piece =>
    rw [List.cons_append] at accepted ⊢
    have covered : (c :: (piece ++ rest)).length - rest.length = (c :: piece).length := by
      simp only [List.length_cons, List.length_append]
      omega
    simp only [hitsFrom, accepted, covered]
    rw [List.length_cons, Nat.add_sub_cancel, hitsFrom_skip, lastOr]
    congr 2
    omega

/-- Nothing is replaced in an avoided piece: it stays as it is, and the replacing goes on behind
it. -/
theorem substituteFrom_append {recognise : Recogniser (List Char)} {piece rest : List Char}
    (avoided : Avoids recognise piece rest) (before : Option Char) :
    substituteFrom recognise 0 before (piece ++ rest) =
      piece ++ substituteFrom recognise 0 (lastOr before piece) rest := by
  induction piece generalizing before with
  | nil => rfl
  | cons c piece inductionHypothesis =>
    have refused := avoided.1 before
    rw [List.cons_append] at refused ⊢
    simp only [substituteFrom, refused, inductionHypothesis avoided.2, lastOr, List.cons_append]

/-- A piece that belongs to a hit is passed over and leaves nothing, since its replacement has
been written already. -/
theorem substituteFrom_skip (recognise : Recogniser (List Char)) (piece rest : List Char)
    (before : Option Char) :
    substituteFrom recognise piece.length before (piece ++ rest) =
      substituteFrom recognise 0 (lastOr before piece) rest := by
  induction piece generalizing before with
  | nil => rfl
  | cons c piece inductionHypothesis => exact inductionHypothesis (some c)

/-- A hit is replaced by what was found there, and the replacing goes on with what the recogniser
left. -/
theorem substituteFrom_hit {recognise : Recogniser (List Char)} {piece rest value : List Char}
    {before : Option Char} (accepted : recognise before (piece ++ rest) = some (value, rest))
    (filled : piece ≠ []) :
    substituteFrom recognise 0 before (piece ++ rest) =
      value ++ substituteFrom recognise 0 (lastOr before piece) rest := by
  cases piece with
  | nil => exact absurd rfl filled
  | cons c piece =>
    rw [List.cons_append] at accepted ⊢
    have covered : (c :: (piece ++ rest)).length - rest.length - 1 = piece.length := by
      simp only [List.length_cons, List.length_append]
      omega
    simp only [substituteFrom, accepted, covered]
    rw [substituteFrom_skip, lastOr]

/-- Where every hit is replaced by nothing, characters are only dropped, so the result is a part
of the text in its order. -/
theorem substituteFrom_sublist {recognise : Recogniser (List Char)}
    (erases : ∀ before text value rest, recognise before text = some (value, rest) → value = [])
    (skip : Nat) (before : Option Char) (text : List Char) :
    (substituteFrom recognise skip before text).Sublist text := by
  induction text generalizing skip before with
  | nil => exact List.Sublist.slnil
  | cons c text inductionHypothesis =>
    cases skip with
    | succ skip => exact (inductionHypothesis skip (some c)).cons c
    | zero =>
      rw [substituteFrom]
      split
      · next value rest accepted =>
        rw [erases before _ value rest accepted, List.nil_append]
        exact (inductionHypothesis _ (some c)).cons c
      · exact (inductionHypothesis 0 (some c)).cons_cons c

/-- A text that is avoided as a whole has no hits at all. The induction is on the text. -/
theorem hits_eq_nil {text : List Char} (avoided : Avoids recognise text []) :
    hits recognise text = [] := by
  have passed : ∀ offset before, hitsFrom recognise 0 offset before text = [] := by
    induction text with
    | nil => intro offset before; rfl
    | cons c text inductionHypothesis =>
      intro offset before
      have refused := avoided.1 before
      rw [List.append_nil] at refused
      simp only [hitsFrom, refused, inductionHypothesis avoided.2]
  exact passed 0 none

/-- What is found first was accepted at some place, so properties of what the recogniser accepts
hold of it. -/
theorem accepted_of_firstFrom {text : List Char} {offset : Nat} {before : Option Char}
    {hit : Hit α} (found : firstFrom recognise offset before text = some hit) :
    ∃ before rest behind, recognise before rest = some (hit.value, behind) := by
  obtain ⟨front, rest, following, value, _, accepted⟩ := occurs_of_firstFrom found
  exact ⟨_, rest, following, accepted⟩

/-- Every hit of a search stands in the text, also those behind a stretch that is still to be
passed over. -/
theorem occurs_of_mem_hitsFrom {text : List Char} {skip offset : Nat} {before : Option Char}
    {hit : Hit α} (member : hit ∈ hitsFrom recognise skip offset before text) :
    Occurs recognise offset before text hit := by
  induction text generalizing skip offset before with
  | nil => cases member
  | cons c text inductionHypothesis =>
    cases skip with
    | succ skip => exact (inductionHypothesis member).cons
    | zero =>
      rw [hitsFrom] at member
      split at member
      · next value following accepted =>
        rcases List.mem_cons.mp member with rfl | later
        · exact .behind [] (c :: text) following value (List.cons_ne_nil c text) accepted
        · exact (inductionHypothesis later).cons
      · exact (inductionHypothesis member).cons

/-- Every hit of a search was accepted at some place, so properties of what the recogniser accepts
hold of it. -/
theorem accepted_of_mem_hitsFrom {text : List Char} {skip offset : Nat} {before : Option Char}
    {hit : Hit α} (member : hit ∈ hitsFrom recognise skip offset before text) :
    ∃ before rest behind, recognise before rest = some (hit.value, behind) := by
  obtain ⟨front, rest, following, value, _, accepted⟩ := occurs_of_mem_hitsFrom member
  exact ⟨_, rest, following, accepted⟩

/-- The hits stand in the order of their places, no two of them at the same place. -/
theorem hitsFrom_pairwise (recognise : Recogniser α) (skip offset : Nat) (before : Option Char)
    (text : List Char) :
    (hitsFrom recognise skip offset before text).Pairwise fun left right =>
      left.start < right.start := by
  induction text generalizing skip offset before with
  | nil => exact .nil
  | cons c text inductionHypothesis =>
    cases skip with
    | succ skip => exact inductionHypothesis skip (offset + 1) (some c)
    | zero =>
      rw [hitsFrom]
      split
      · refine .cons ?_ (inductionHypothesis _ (offset + 1) (some c))
        intro hit later
        obtain ⟨front, rest, following, value, _, _⟩ := occurs_of_mem_hitsFrom later
        exact Nat.lt_of_lt_of_le (Nat.lt_succ_self offset) (Nat.le_add_right _ front.length)
      · exact inductionHypothesis 0 (offset + 1) (some c)

/-- A word is followed by what stands behind it, which is what is left when the word is read. -/
theorem after?_append (word text : List Char) : after? word (word ++ text) = some text := by
  induction word with
  | nil => rfl
  | cons c word inductionHypothesis => simp [after?, inductionHypothesis]

/-- What follows a word that was read stands behind it in the text, so the text is the word and
this rest. -/
theorem eq_append_of_after? {word text behind : List Char}
    (found : after? word text = some behind) : text = word ++ behind := by
  induction word generalizing text with
  | nil => simpa [after?] using found
  | cons w word inductionHypothesis =>
    cases text with
    | nil => simp [after?] at found
    | cons c text =>
      by_cases same : w = c
      · simp only [after?, same, beq_self_eq_true, ↓reduceIte] at found
        rw [same, inductionHypothesis found, List.cons_append]
      · simp [after?, same] at found

/-- A text holds a word that is not empty exactly when the word is a part of it, at whatever
place. -/
theorem holds_iff_infix {word : String} (filled : word.toList ≠ []) (text : List Char) :
    holds word text = true ↔ word.toList <:+: text := by
  rw [holds, Option.isSome_iff_ne_none]
  constructor
  · intro some
    obtain ⟨hit, found⟩ := Option.ne_none_iff_exists'.mp some
    obtain ⟨front, rest, following, _, _, accepted⟩ := occurs_of_firstFrom found
    obtain ⟨behind, read, _⟩ := Option.map_eq_some_iff.mp accepted
    rw [eq_append_of_after? read, ← List.append_assoc]
    exact List.infix_append front word.toList behind
  · rintro ⟨front, behind, rfl⟩
    rw [List.append_assoc]
    apply firstFrom_ne_none (List.append_ne_nil_of_left_ne_nil filled behind)
    simp [literal?, after?_append]

/-- A run ends before the first character outside its class. It must not be empty, since an empty
run is no run. -/
theorem run?_append {belongs : Char → Bool} {front : List Char} {stop : Char} (rest : List Char)
    (inside : ∀ c ∈ front, belongs c = true) (filled : front ≠ [])
    (outside : belongs stop = false) :
    run? belongs (front ++ stop :: rest) = some (front, stop :: rest) := by
  have taken : (front ++ stop :: rest).takeWhile belongs = front := by
    simp [List.takeWhile_append_of_pos inside, outside]
  have dropped : (front ++ stop :: rest).dropWhile belongs = stop :: rest := by
    simp [List.dropWhile_append_of_pos inside, outside]
  cases front with
  | nil => exact absurd rfl filled
  | cons c front => rw [run?, taken, dropped]

/-- What precedes an ending is the text in front of it, and it is found exactly when the text ends
so. -/
theorem before?_eq_some_iff {ending text front : List Char} :
    before? ending text = some front ↔ text = front ++ ending := by
  rw [before?, Option.map_eq_some_iff]
  constructor
  · rintro ⟨reversed, found, rfl⟩
    rw [← List.reverse_reverse text, eq_append_of_after? found]
    simp
  · rintro rfl
    exact ⟨front.reverse, by rw [List.reverse_append, after?_append], List.reverse_reverse front⟩

/-- No blanks are skipped in front of a character that is none. -/
theorem skipBlanks_cons {c : Char} (solid : isBlank c = false) (text : List Char) :
    skipBlanks (c :: text) = c :: text := by
  simp [skipBlanks, solid]

/-- Skipping blanks stops at the latest at a character that is none, so what follows this
character does not matter. -/
theorem skipBlanks_append {c : Char} (solid : isBlank c = false) (front text : List Char) :
    skipBlanks (front ++ c :: text) = skipBlanks front ++ c :: text := by
  induction front with
  | nil => simp [skipBlanks, solid]
  | cons d front inductionHypothesis =>
    by_cases blank : isBlank d = true
    · simpa [skipBlanks, blank] using inductionHypothesis
    · simp [skipBlanks, blank]

end ScreenAtlas.Text
