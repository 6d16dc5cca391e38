import ScreenAtlas.Json.Reader
import ScreenAtlas.Json.Writer
import ScreenAtlas.Proofs.ShortestDecimal

/-!
# Reading back written numbers

A number in a document ends at a comma, a line break or the end of the text. Read up
to there, a whole number of bearable length is itself again, and so is every double:
the layout of its figures, positional or with an exponent, keeps the exact value of
the decimal, and the decimal is rounded to the double it was written for.
-/
namespace ScreenAtlas

namespace Numeral

/-- Two numerals written after each other have the value of the first, moved up by the length of
the second, plus that of the second. -/
theorem value_append (front back : List Char) :
    value (front ++ back) = value front * 10 ^ back.length + value back := by
  have shifted (digits : List Char) (total : Nat) :
      digits.foldl (fun total c => 10 * total + (c.toNat - '0'.toNat)) total =
        total * 10 ^ digits.length + value digits := by
    induction digits generalizing total with
    | nil => simp [value]
    | cons c digits inductionHypothesis =>
      simp only [value, List.foldl_cons, List.length_cons, Nat.mul_zero, Nat.zero_add]
      rw [inductionHypothesis, inductionHypothesis (c.toNat - '0'.toNat), Nat.pow_succ]
      ring
  rw [value, List.foldl_append, shifted]
  rfl

/-- A zero in front of a numeral adds nothing to its value, because reading starts from zero
anyway. -/
theorem value_zero_cons (digits : List Char) : value ('0' :: digits) = value digits := rfl

/-- A numeral of nothing but zeros has the value zero, also when it is empty. The induction is on
their number. -/
theorem value_replicate_zero (count : Nat) : value (List.replicate count '0') = 0 := by
  induction count with
  | zero => rfl
  | succ count inductionHypothesis =>
    rw [List.replicate_succ, value_zero_cons, inductionHypothesis]

/-- The decimal digits of a natural stand for it: reading them gives the natural again. The
induction follows the division by ten. -/
theorem value_toDigits (n : Nat) : value (Nat.toDigits 10 n) = n := by
  induction n using Nat.strongRecOn with
  | ind n inductionHypothesis =>
    have single (digit : Nat) (small : digit < 10) : value [Nat.digitChar digit] = digit := by
      simp [value, Nat.toNat_digitChar_of_lt_ten small]
    by_cases small : n < 10
    · rw [Nat.toDigits_of_lt_base small, single n small]
    · rw [Nat.toDigits_of_base_le (by decide) (by omega), value_append,
        inductionHypothesis (n / 10) (by omega), single (n % 10) (by omega)]
      simp only [List.length_cons, List.length_nil, Nat.zero_add, Nat.pow_one]
      omega

end Numeral

/-- The text is made of digits only. -/
def Figures (digits : List Char) : Prop := ∀ c ∈ digits, c.isDigit = true

namespace Figures

/-- The decimal digits of a natural are figures, as all of them stand for a remainder below ten.
-/
theorem toDigits (n : Nat) : Figures (Nat.toDigits 10 n) := fun _ member =>
  Nat.isDigit_of_mem_toDigits (by decide) (by decide) member

/-- Zeros are figures, however many of them are written. -/
theorem zeros (count : Nat) : Figures (List.replicate count '0') := by
  intro c member
  rw [List.eq_of_mem_replicate member]
  rfl

/-- Figures behind figures are figures. Together with zeros this covers every layout of a number.
-/
theorem append {front back : List Char} (left : Figures front) (right : Figures back) :
    Figures (front ++ back) := by
  intro c member
  rcases List.mem_append.mp member with first | second
  · exact left c first
  · exact right c second

/-- A text is made of figures if all its characters are taken from figures, as those of a part of
a numeral are. -/
theorem of_subset {digits kept : List Char} (given : Figures digits)
    (subset : ∀ c ∈ kept, c ∈ digits) : Figures kept := fun c member => given c (subset c member)

/-- Figures are read up to the first other character: all of them are taken, and what follows is
left as it is. -/
theorem takeWhile_append {digits rest : List Char} (given : Figures digits)
    (stops : ∀ c ∈ rest.head?, c.isDigit = false) :
    (digits ++ rest).takeWhile Char.isDigit = digits ∧
      (digits ++ rest).dropWhile Char.isDigit = rest := by
  have first : rest.takeWhile Char.isDigit = [] ∧ rest.dropWhile Char.isDigit = rest := by
    cases rest with
    | nil => exact ⟨rfl, rfl⟩
    | cons c rest => simp [stops c rfl]
  rw [List.takeWhile_append_of_pos given, List.dropWhile_append_of_pos given, first.1, first.2]
  exact ⟨List.append_nil _, rfl⟩

end Figures

namespace Json

/-- Text that ends a number: nothing, a comma or a line break. -/
def Delimited (rest : List Char) : Prop := ∀ c ∈ rest.head?, c = ',' ∨ c = '\n'

/-- A fraction behind its point, or nothing when there is none. -/
def pointed (fraction : List Char) : List Char :=
  if fraction.isEmpty then [] else '.' :: fraction

/-- The digits from a position on, written as a fraction, are nothing when the position lies
behind the last digit. -/
theorem pointed_drop (digits : List Char) (count : Nat) :
    pointed (digits.drop count) =
      if digits.length ≤ count then [] else '.' :: digits.drop count := by
  simp only [pointed, List.isEmpty_iff, List.drop_eq_nil_iff]

/-- An exponent behind its mark, or nothing when there is none. -/
def powered : Option Int → List Char
  | none => []
  | some power => 'e' :: Double.exponentText power

/-- What can follow the whole part and the fraction of a number: its end, or an exponent. -/
def Follows (rest : List Char) : Prop :=
  ∀ c ∈ rest.head?, c = ',' ∨ c = '\n' ∨ c = 'e'

/-- What ends a number can follow its fraction, both directly and behind an exponent. -/
theorem Delimited.follows_powered {rest : List Char} (delimited : Delimited rest)
    (power : Option Int) : Follows (powered power ++ rest) := by
  cases power with
  | none =>
    intro c first
    rcases delimited c first with comma | line
    · exact .inl comma
    · exact .inr (.inl line)
  | some power =>
    intro c first
    cases first
    exact .inr (.inr rfl)

/-- A written fraction is read up to its last digit, and an empty one is read as none. The text
behind must not go on with a digit or a point. -/
theorem fractionPart_pointed {fraction rest : List Char} (figures : Figures fraction)
    (follows : Follows rest) : fractionPart (pointed fraction ++ rest) = (fraction, rest) := by
  have stops : ∀ c ∈ rest.head?, c.isDigit = false := by
    intro c first
    rcases follows c first with rfl | rfl | rfl <;> rfl
  cases fraction with
  | nil =>
    cases rest with
    | nil => rfl
    | cons c rest => rcases follows c rfl with rfl | rfl | rfl <;> rfl
  | cons c fraction =>
    obtain ⟨taken, dropped⟩ := figures.takeWhile_append stops
    simp only [pointed, List.isEmpty_cons, Bool.false_eq_true, ↓reduceIte, List.cons_append] at *
    simp only [fractionPart, taken, dropped]

/-- An exponent is written as a sign and figures whose value is its absolute value; a single
figure gets a zero in front, which adds nothing to it. -/
theorem exponentText_eq (power : Int) :
    ∃ figures, Double.exponentText power = (if power < 0 then '-' else '+') :: figures ∧
      figures ≠ [] ∧ Figures figures ∧ Numeral.value figures = power.natAbs := by
  have written := Figures.toDigits power.natAbs
  refine ⟨_, rfl, ?_, ?_, ?_⟩
  · split
    · exact List.cons_ne_nil _ _
    · exact List.ne_nil_of_length_pos Nat.length_toDigits_pos
  · split
    · exact (Figures.zeros 1).append written
    · exact written
  · split
    · rw [Numeral.value_zero_cons, Numeral.value_toDigits]
    · exact Numeral.value_toDigits _

/-- A written exponent is read with its sign, and a missing one is read as none, if the number
ends behind it. -/
theorem exponentPart_powered {rest : List Char} (delimited : Delimited rest)
    (power : Option Int) : exponentPart (powered power ++ rest) = (power, rest) := by
  have stops : ∀ c ∈ rest.head?, c.isDigit = false := by
    intro c first
    rcases delimited c first with rfl | rfl <;> rfl
  cases power with
  | none =>
    cases rest with
    | nil => rfl
    | cons c rest => rcases delimited c rfl with rfl | rfl <;> rfl
  | some power =>
    obtain ⟨figures, written, some, digits, value⟩ := exponentText_eq power
    obtain ⟨taken, dropped⟩ := digits.takeWhile_append stops
    have sign : Numeral.splitSign ((if power < 0 then '-' else '+') :: (figures ++ rest)) =
        (decide (power < 0), figures ++ rest) := by
      split <;> rename_i signed <;> simp [Numeral.splitSign, signed]
    simp only [powered, written, List.cons_append, exponentPart, BEq.rfl, Bool.true_or, ↓reduceIte,
      sign, taken, dropped, value]
    cases figures with
    | nil => exact absurd rfl some
    | cons c figures =>
      have signed : (if decide (power < 0) = true then -(power.natAbs : Int) else power.natAbs) =
          power := by
        simp only [decide_eq_true_eq]
        split <;> omega
      simp only [signed]

/-- The digits in front of a fraction or an exponent. -/
def wholePart (source : List Char) : List Char :=
  match source with
  | '0' :: _ => ['0']
  | _ => source.takeWhile Char.isDigit

/-- A fraction follows: a point with a digit behind it. -/
def startsFraction : List Char → Bool
  | '.' :: c :: _ => c.isDigit
  | _ => false

/-- The number with a known whole part and what follows it. -/
def numberOf (negative : Bool) (whole behind : List Char) : Except ReadError (Json × List Char) :=
  let (fraction, after) := fractionPart behind
  let (power, rest) := exponentPart after
  if startsFraction behind || power.isSome then
    .ok (.double (Double.ofDecimal negative (Numeral.value (whole ++ fraction))
      (power.getD 0 - fraction.length)), rest)
  else if Numeral.digitLimit < whole.length then .error .tooManyDigits
  else .ok (.int (if negative then -(Numeral.value whole : Int) else Numeral.value whole), rest)

/-- A number is read in two parts, the whole part and what follows. The reader is split here, so
that the parts can be dealt with one by one. -/
theorem readNumber_eq (negative : Bool) (source : List Char) :
    readNumber negative source =
      if (wholePart source).isEmpty then .error .malformed
      else numberOf negative (wholePart source) (source.drop (wholePart source).length) := rfl

/-- The digits of a whole part: zero, or digits of which the first is not zero. -/
structure Whole (digits : List Char) : Prop where
  figures : Figures digits
  nonempty : digits ≠ []
  leading : digits = ['0'] ∨ digits.head? ≠ some '0'

/-- A whole part is read up to the first other character, also when it is a single zero, which no
digit may follow. -/
theorem Whole.wholePart_append {digits rest : List Char} (whole : Whole digits)
    (stops : ∀ c ∈ rest.head?, c.isDigit = false) : wholePart (digits ++ rest) = digits := by
  rcases whole.leading with zero | other
  · rw [zero]
    rfl
  · unfold wholePart
    split
    · rename_i source begins
      cases digits with
      | nil => exact absurd rfl whole.nonempty
      | cons c digits =>
        cases begins
        exact absurd rfl other
    · exact (whole.figures.takeWhile_append stops).1

/-- Reading a number with a known whole part goes on with what is behind it, if that does not
start with a digit. -/
theorem Whole.readNumber_append (negative : Bool) {digits rest : List Char} (whole : Whole digits)
    (stops : ∀ c ∈ rest.head?, c.isDigit = false) :
    readNumber negative (digits ++ rest) = numberOf negative digits rest := by
  have some : digits.isEmpty = false := List.isEmpty_eq_false_iff.mpr whole.nonempty
  rw [readNumber_eq, whole.wholePart_append stops, some, if_neg Bool.false_ne_true, List.drop_left]

/-- A number with a fraction or an exponent is read as the double nearest to its decimal. -/
theorem readNumber_double (negative : Bool) {whole fraction rest : List Char} {power : Option Int}
    (leads : Whole whole) (figures : Figures fraction) (delimited : Delimited rest)
    (inexact : fraction ≠ [] ∨ power.isSome = true) :
    readNumber negative (whole ++ (pointed fraction ++ (powered power ++ rest))) =
      .ok (.double (Double.ofDecimal negative (Numeral.value (whole ++ fraction))
        (power.getD 0 - fraction.length)), rest) := by
  have follows := delimited.follows_powered power
  have stops : ∀ c ∈ (pointed fraction ++ (powered power ++ rest)).head?, c.isDigit = false := by
    intro c first
    cases fraction with
    | nil => rcases follows c first with rfl | rfl | rfl <;> rfl
    | cons digit fraction =>
      cases first
      rfl
  have marked : (startsFraction (pointed fraction ++ (powered power ++ rest)) || power.isSome) =
      true := by
    cases fraction with
    | nil => rw [inexact.resolve_left (fun some => some rfl), Bool.or_true]
    | cons digit fraction =>
      simp [pointed, startsFraction, figures digit List.mem_cons_self]
  rw [leads.readNumber_append negative stops]
  simp only [numberOf, fractionPart_pointed figures follows, exponentPart_powered delimited power,
    marked, ↓reduceIte]

/-- A whole number of bearable length is read as such when nothing but its end follows: there is
neither a fraction nor an exponent. -/
theorem readNumber_int (negative : Bool) {whole rest : List Char} (leads : Whole whole)
    (bearable : whole.length ≤ Numeral.digitLimit) (delimited : Delimited rest) :
    readNumber negative (whole ++ rest) =
      .ok (.int (if negative then -(Numeral.value whole : Int) else Numeral.value whole),
        rest) := by
  have stops : ∀ c ∈ rest.head?, c.isDigit = false := by
    intro c first
    rcases delimited c first with rfl | rfl <;> rfl
  have unmarked : startsFraction rest = false := by
    cases rest with
    | nil => rfl
    | cons c rest => rcases delimited c rfl with rfl | rfl <;> rfl
  have fractional : fractionPart rest = ([], rest) :=
    fractionPart_pointed (Figures.zeros 0) (delimited.follows_powered none)
  have exponential : exponentPart rest = (none, rest) := exponentPart_powered delimited none
  rw [leads.readNumber_append negative stops]
  simp [numberOf, fractional, exponential, unmarked, Nat.not_lt.mpr bearable]

/-- The digits of a positive natural do not start with zero. The induction follows the division by
ten, down to the first digit. -/
theorem head?_toDigits_ne {n : Nat} (positive : 0 < n) :
    (Nat.toDigits 10 n).head? ≠ some '0' := by
  induction n using Nat.strongRecOn with
  | ind n inductionHypothesis =>
    by_cases small : n < 10
    · rw [Nat.toDigits_of_lt_base small]
      simpa using fun zero => Nat.ne_of_gt positive (Nat.digitChar_eq_zero.mp zero)
    · rw [Nat.toDigits_of_base_le (by decide) (by omega),
        List.head?_append_of_ne_nil _ (List.ne_nil_of_length_pos Nat.length_toDigits_pos)]
      exact inductionHypothesis (n / 10) (by omega) (by omega)

/-- The digits of a natural are a whole part: they are a single zero, or they do not start with
one. -/
theorem Whole.toDigits (n : Nat) : Whole (Nat.toDigits 10 n) where
  figures := Figures.toDigits n
  nonempty := List.ne_nil_of_length_pos Nat.length_toDigits_pos
  leading := by
    rcases Nat.eq_zero_or_pos n with rfl | positive
    · exact .inl rfl
    · exact .inr (head?_toDigits_ne positive)

end Json

namespace Double

/-- The figures of a positive decimal: digits that start with no zero and, below the
given power of ten, have the value of the decimal. -/
structure Decimal.Shows (decimal : Decimal) (figures : List Char) (power : Int) : Prop where
  digits : Figures figures
  nonempty : figures ≠ []
  leading : figures.head? ≠ some '0'
  value : decimal.value = Numeral.value figures * 10 ^ (power - figures.length)

/-- Digits are what is left without the zeros at the end, and those zeros behind it. -/
theorem exists_trailing_zeros (written : List Char) :
    ∃ zeros, written =
      (written.reverse.dropWhile (· == '0')).reverse ++ List.replicate zeros '0' := by
  have front (digits : List Char) :
      ∃ zeros, digits = List.replicate zeros '0' ++ digits.dropWhile (· == '0') := by
    induction digits with
    | nil => exact ⟨0, rfl⟩
    | cons c digits inductionHypothesis =>
      obtain ⟨zeros, split⟩ := inductionHypothesis
      by_cases zero : c = '0'
      · refine ⟨zeros + 1, ?_⟩
        rw [List.replicate_succ, List.cons_append, List.dropWhile_cons_of_pos (by simp [zero]),
          ← split, zero]
      · refine ⟨0, ?_⟩
        rw [List.dropWhile_cons_of_neg (by simp [zero])]
        rfl
  obtain ⟨zeros, split⟩ := front written.reverse
  refine ⟨zeros, ?_⟩
  rw [← List.reverse_replicate, ← List.reverse_append, ← split, List.reverse_reverse]

/-- The figures of a decimal show its value: dropping the zeros at the end is made up for by the
power of ten. -/
theorem Decimal.shows_figures {decimal : Decimal} (positive : 0 < decimal.digits) :
    decimal.Shows decimal.figures.1 decimal.figures.2 := by
  have digits := Figures.toDigits decimal.digits
  have leading := Json.head?_toDigits_ne positive
  have value := Numeral.value_toDigits decimal.digits
  obtain ⟨zeros, split⟩ := exists_trailing_zeros (Nat.toDigits 10 decimal.digits)
  simp only [Decimal.figures]
  generalize ((Nat.toDigits 10 decimal.digits).reverse.dropWhile (· == '0')).reverse = kept at *
  rw [split] at digits leading value ⊢
  rw [Numeral.value_append, Numeral.value_replicate_zero, Nat.add_zero,
    List.length_replicate] at value
  have some : kept ≠ [] := by
    rintro rfl
    rw [← value, Numeral.value, List.foldl_nil, Nat.zero_mul] at positive
    exact absurd positive (Nat.lt_irrefl 0)
  rw [List.isEmpty_eq_false_iff.mpr some, if_neg Bool.false_ne_true]
  refine ⟨digits.of_subset fun c member => List.mem_append_left _ member, some, ?_, ?_⟩
  · rwa [List.head?_append_of_ne_nil _ some] at leading
  · have power : (decimal.scale + (kept ++ List.replicate zeros '0').length - kept.length : Int) =
        zeros + decimal.scale := by
      rw [List.length_append, List.length_replicate]
      omega
    rw [power, zpow_add₀ (by norm_num), zpow_natCast, Decimal.value, ← mul_assoc]
    congr 1
    exact_mod_cast value.symm

/-- A text writes a decimal: a whole part with a fraction, an exponent or both. -/
inductive Decimal.WrittenAs : Decimal → List Char → Prop
  | parts (whole fraction : List Char) (power : Option Int) (leads : Json.Whole whole)
      (figures : Figures fraction) (inexact : fraction ≠ [] ∨ power.isSome = true) :
      WrittenAs ⟨Numeral.value (whole ++ fraction), power.getD 0 - fraction.length⟩
        (whole ++ (Json.pointed fraction ++ Json.powered power))

/-- A text that writes a decimal is read as the double nearest to this decimal, with a fraction,
an exponent or both. -/
theorem Decimal.WrittenAs.readNumber {decimal : Decimal} {text : List Char}
    (written : decimal.WrittenAs text) (negative : Bool) {rest : List Char}
    (delimited : Json.Delimited rest) :
    Json.readNumber negative (text ++ rest) = .ok (.double (decimal.nearest negative), rest) := by
  obtain ⟨whole, fraction, power, leads, figures, inexact⟩ := written
  rw [List.append_assoc, List.append_assoc,
    Json.readNumber_double negative leads figures delimited inexact, Decimal.nearest]

/-- A text that writes a decimal starts with a whole part, so a sign in front of it is read as
that of a number. -/
theorem Decimal.WrittenAs.exists_whole {decimal : Decimal} {text : List Char}
    (written : decimal.WrittenAs text) :
    ∃ whole behind, Json.Whole whole ∧ text = whole ++ behind := by
  obtain ⟨whole, fraction, power, leads, -, -⟩ := written
  exact ⟨whole, _, leads, rfl⟩

namespace Decimal.Shows

variable {decimal : Decimal} {figures : List Char} {power : Int}
  (shows : decimal.Shows figures power)

include shows

/-- The first figures of a decimal, at least one of them and with or without further digits, are a
whole part: they do not start with zero. -/
theorem whole_append {count : Nat} (some : 0 < count) {added : List Char} (digits : Figures added) :
    Json.Whole (figures.take count ++ added) := by
  have first : figures.take count ≠ [] := by
    simp [shows.nonempty, Nat.ne_of_gt some]
  refine ⟨(shows.digits.of_subset fun c => List.mem_of_mem_take).append digits, ?_, .inr ?_⟩
  · simp [first]
  · rw [List.head?_append_of_ne_nil _ first, List.head?_take, if_neg (Nat.ne_of_gt some)]
    exact shows.leading

/-- Figures with a point inside, or with an exponent behind them, write a decimal of the same
value. The exponent and the place of the point must make up the power. -/
theorem writtenAs_split (count : Nat) (some : 0 < count) (fits : count ≤ figures.length)
    (exponent : Option Int) (inexact : count < figures.length ∨ exponent.isSome = true)
    (sized : exponent.getD 0 + count = power) :
    ∃ read : Decimal, read.value = decimal.value ∧
      read.WrittenAs (figures.take count ++ (Json.pointed (figures.drop count) ++
        Json.powered exponent)) := by
  have whole := shows.whole_append some (Figures.zeros 0)
  rw [List.replicate_zero, List.append_nil] at whole
  refine ⟨_, ?_, .parts (figures.take count) (figures.drop count) exponent whole
    (shows.digits.of_subset fun c => List.mem_of_mem_drop)
    (inexact.imp_left fun more => by simpa using more)⟩
  rw [shows.value]
  simp only [Decimal.value, List.take_append_drop, List.length_drop]
  congr 2
  omega

/-- Figures behind the point and some zeros write a decimal of the same value, if the power is not
positive; there are as many zeros as it is below zero. -/
theorem writtenAs_below (low : power ≤ 0) :
    ∃ read : Decimal, read.value = decimal.value ∧
      read.WrittenAs ('0' :: '.' :: (List.replicate (-power).toNat '0' ++ figures)) := by
  have some : List.replicate (-power).toNat '0' ++ figures ≠ [] := by simp [shows.nonempty]
  have written := WrittenAs.parts ['0'] (List.replicate (-power).toNat '0' ++ figures) none
    ⟨Figures.zeros 1, by simp, .inl rfl⟩ ((Figures.zeros _).append shows.digits) (.inl some)
  simp only [Json.pointed, List.isEmpty_eq_false_iff.mpr some, Bool.false_eq_true, ↓reduceIte,
    Json.powered, List.append_nil, List.cons_append, List.nil_append] at written
  refine ⟨_, ?_, written⟩
  rw [shows.value, Decimal.value, Numeral.value_zero_cons, Numeral.value_append,
    Numeral.value_replicate_zero, Nat.zero_mul, Nat.zero_add]
  congr 2
  simp only [Option.getD_none, List.length_append, List.length_replicate]
  omega

/-- Figures in front of zeros and the point write a decimal of the same value, if the zeros fill
them up to the power. -/
theorem writtenAs_padded {count : Nat} (fits : figures.length ≤ count) (sized : power = count) :
    ∃ read : Decimal, read.value = decimal.value ∧
      read.WrittenAs (figures ++ List.replicate (count - figures.length) '0' ++ ['.', '0']) := by
  have long : 0 < figures.length := List.length_pos_iff.mpr shows.nonempty
  have whole := shows.whole_append long (Figures.zeros (count - figures.length))
  rw [List.take_length] at whole
  refine ⟨_, ?_, .parts _ ['0'] none whole (Figures.zeros 1) (.inl (by simp))⟩
  have power : power - figures.length = (count - figures.length : Nat) := by omega
  have zero : Numeral.value ['0'] = 0 := rfl
  rw [shows.value, Decimal.value, Numeral.value_append, zero, Numeral.value_append,
    Numeral.value_replicate_zero, power, zpow_natCast]
  simp

end Decimal.Shows

/-- Figures in any layout are read as a decimal of the same value.

Proof: each layout is a whole part, a fraction and perhaps an exponent. In the
exponential one and in the two that put the point inside or in front of the figures the
decimal read has just these figures; behind the figures zeros are added, as many as the
exponent is smaller. -/
theorem Decimal.Shows.exists_writtenAs {decimal : Decimal} {figures : List Char} {power : Int}
    (shows : decimal.Shows figures power) :
    ∃ read : Decimal, read.value = decimal.value ∧ read.WrittenAs (layFigures figures power) := by
  have long : 0 < figures.length := List.length_pos_iff.mpr shows.nonempty
  simp only [layFigures]
  split
  · have written := shows.writtenAs_split 1 Nat.one_pos long (some (power - 1)) (.inr rfl) (by simp)
    rw [Json.pointed_drop] at written
    rw [List.append_assoc]
    exact written
  · split
    · rename_i low
      exact shows.writtenAs_below low
    · split
      · rename_i fits
        exact shows.writtenAs_padded fits (by omega)
      · rename_i longer
        have written := shows.writtenAs_split power.toNat (by omega) (by omega) none
          (.inl (by omega)) (by rw [Option.getD_none]; omega)
        rw [Json.pointed_drop, if_neg longer, Json.powered, List.append_nil] at written
        exact written

/-- A magnitude is written as a decimal that is rounded to it, whichever sign is put in front. So
its text can be read back. -/
theorem exists_writtenAs_magnitudeText (place : Fin finiteMagnitudes) :
    ∃ read : Decimal, (∀ negative, read.nearest negative = .finite negative place) ∧
      read.WrittenAs (magnitudeText place) := by
  unfold magnitudeText
  split
  · rename_i none
    have first : place = ⟨0, by decide⟩ := Fin.ext (beq_iff_eq.mp none)
    refine ⟨_, fun negative => ?_, .parts ['0'] ['0'] Option.none
      ⟨Figures.zeros 1, by simp, .inl rfl⟩ (Figures.zeros 1) (.inl (by simp))⟩
    rw [first]
    rfl
  · rename_i some
    have positive : 0 < (shortest place).digits := by
      by_contra none
      have nearest := nearest_shortest false place
      rw [Decimal.nearest, Nat.eq_zero_of_not_pos none] at nearest
      have zero : ofPlace false 0 = .finite false place := nearest
      rw [ofPlace, dif_pos (by decide)] at zero
      injection zero with _ same
      exact some (beq_iff_eq.mpr (congrArg Fin.val same).symm)
    obtain ⟨read, value, written⟩ := (Decimal.shows_figures positive).exists_writtenAs
    refine ⟨read, fun negative => ?_, written⟩
    rw [Decimal.nearest_congr negative value, nearest_shortest]

end Double

namespace Json

/-- No word of documents stands at the front. -/
def Wordless (source : List Char) : Prop :=
  ∀ entry ∈ keywords, Text.after? entry.1.toList source = none

/-- Where no word stands, a number is read, behind a minus if there is one. Words and numbers
never compete for a text. -/
theorem Wordless.readScalar_eq {source : List Char} (wordless : Wordless source) :
    readScalar source =
      if source.head? = some '-' then readNumber true source.tail
      else readNumber false source := by
  unfold readScalar
  split
  · rename_i found read
    obtain ⟨⟨word, value⟩, known, spelled⟩ := List.exists_of_findSome?_eq_some read
    simp [wordless _ known] at spelled
  · split
    · rfl
    · rename_i unsigned
      rw [if_neg]
      intro first
      obtain ⟨rest, rfl⟩ := List.head?_eq_some_iff.mp first
      exact unsigned rest rfl

section Scalars

variable {c : Char} (digit : c.isDigit = true)

include digit

/-- A character that is no digit is not this digit, which rules out the first letters of words. -/
theorem beq_digit {other : Char} (none : other.isDigit = false) : (other == c) = false := by
  rw [beq_eq_false_iff_ne]
  rintro rfl
  rw [digit] at none
  cases none

/-- What starts with a digit is read as a number, since no word does. -/
theorem readScalar_digit (source : List Char) :
    readScalar (c :: source) = readNumber false (c :: source) := by
  have wordless : Wordless (c :: source) := by
    simp [Wordless, keywords, Text.after?, beq_digit digit]
  rw [wordless.readScalar_eq, if_neg]
  rintro ⟨⟩
  cases digit

/-- What starts with a minus and a digit is read as a negative number; the only word with a minus
goes on with a letter. -/
theorem readScalar_minus (source : List Char) :
    readScalar ('-' :: c :: source) = readNumber true (c :: source) := by
  have wordless : Wordless ('-' :: c :: source) := by
    simp [Wordless, keywords, Text.after?, beq_digit digit]
  rw [wordless.readScalar_eq, if_pos List.head?_cons, List.tail_cons]

end Scalars

/-- A number behind its sign, of which only the minus is written. -/
def signed (negative : Bool) (text : List Char) : List Char :=
  if negative then '-' :: text else text

/-- The sign stands in front of a text and of what follows it alike. -/
theorem signed_append (negative : Bool) (text rest : List Char) :
    signed negative text ++ rest = signed negative (text ++ rest) := by
  cases negative <;> rfl

/-- A signed whole part with whatever follows it is read as a number of this sign, because the
whole part starts with a digit. -/
theorem Whole.readScalar_signed (negative : Bool) {digits : List Char} (whole : Whole digits)
    (rest : List Char) :
    readScalar (signed negative (digits ++ rest)) = readNumber negative (digits ++ rest) := by
  cases digits with
  | nil => exact absurd rfl whole.nonempty
  | cons c digits =>
    have digit := whole.figures c List.mem_cons_self
    cases negative with
    | false => exact readScalar_digit digit _
    | true => exact readScalar_minus digit _

/-- The text of a whole number is its sign and the decimal digits of its absolute value. -/
theorem toList_repr_int (value : Int) :
    value.repr.toList = signed (decide (value < 0)) (Nat.toDigits 10 value.natAbs) := by
  rw [Int.repr_eq_if]
  by_cases negative : value < 0
  · have digits : (-value).toNat = value.natAbs := by omega
    rw [if_neg (by omega), String.toList_append, Nat.toList_repr, digits]
    simp [signed, negative]
  · have digits : value.toNat = value.natAbs := by omega
    rw [if_pos (by omega), Nat.toList_repr, digits]
    simp [signed, negative]

/-- A whole number of bearable length is read back as itself, up to the comma, the line break or
the end behind it. -/
theorem readScalar_int {value : Int}
    (bearable : Double.digitCount value.natAbs ≤ Numeral.digitLimit) {rest : List Char}
    (delimited : Delimited rest) :
    readScalar (value.repr.toList ++ rest) = .ok (.int value, rest) := by
  have whole := Whole.toDigits value.natAbs
  rw [toList_repr_int, signed_append, whole.readScalar_signed,
    readNumber_int _ whole bearable delimited, Numeral.value_toDigits]
  congr 3
  simp only [decide_eq_true_eq]
  split <;> omega

/-- Every finite double is read back as itself, sign and all: its text is a decimal that is
rounded to it. -/
theorem readScalar_finite (negative : Bool) (place : Fin finiteMagnitudes) {rest : List Char}
    (delimited : Delimited rest) :
    readScalar (signed negative (Double.magnitudeText place) ++ rest) =
      .ok (.double (.finite negative place), rest) := by
  obtain ⟨read, nearest, written⟩ := Double.exists_writtenAs_magnitudeText place
  have reads := written.readNumber negative delimited
  rw [nearest negative] at reads
  obtain ⟨whole, behind, leads, text⟩ := written.exists_whole
  rw [← reads, signed_append, text, List.append_assoc, leads.readScalar_signed]

end Json

end ScreenAtlas
