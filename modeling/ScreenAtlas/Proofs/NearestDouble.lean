import Mathlib.Algebra.Order.Field.Power
import Mathlib.Algebra.Order.Field.Rat
import Mathlib.Tactic.FieldSimp
import Mathlib.Tactic.Linarith
import Mathlib.Tactic.NormNum
import Mathlib.Tactic.Positivity
import Mathlib.Tactic.Ring
import ScreenAtlas.Number.Decimal

/-!
# The double nearest to a quotient

Rounding is computed with naturals. Here it is described by the exact rational
values: what is rounded is decided by the value of the quotient alone, not by its
numerator and denominator, and a quotient that lies close enough to a magnitude is
rounded to that magnitude.

Close enough means within one part in two to the power of 54. This is half the
distance to the next magnitude or less, also just above a power of two, where the
magnitudes below lie twice as close.
-/
namespace ScreenAtlas.Double

/-- The exact value of the magnitude at a place. -/
def magnitude (place : Nat) : ℚ := significand place * 2 ^ exponent place

/-- A whole number within less than a half of a quotient is the one to which it is rounded, since
every other one is farther away. -/
theorem roundQuotient_of_near {numerator denominator nearest : Nat} (positive : 0 < denominator)
    (near : |(numerator : ℚ) / denominator - nearest| < 1 / 2) :
    roundQuotient numerator denominator = nearest := by
  have divisor : (0 : ℚ) < denominator := by exact_mod_cast positive
  obtain ⟨below, above⟩ := abs_lt.mp near
  rw [lt_sub_iff_add_lt, lt_div_iff₀ divisor] at below
  rw [sub_lt_iff_lt_add, div_lt_iff₀ divisor] at above
  have lower : 2 * nearest * denominator < 2 * numerator + denominator := by
    have : (2 * nearest * denominator : ℚ) < 2 * numerator + denominator := by linarith
    exact_mod_cast this
  have upper : 2 * numerator < (2 * nearest + 1) * denominator := by
    have : (2 * numerator : ℚ) < (2 * nearest + 1) * denominator := by linarith
    exact_mod_cast this
  have split := Nat.div_add_mod numerator denominator
  have small := Nat.mod_lt numerator positive
  rw [roundQuotient]
  generalize numerator / denominator = whole at *
  generalize numerator % denominator = rest at *
  subst split
  have floor : nearest = whole ∨ nearest = whole + 1 := by
    have least : whole < nearest + 1 := by
      by_contra far
      have := Nat.mul_le_mul_left denominator (Nat.not_lt.mp far)
      nlinarith
    have most : nearest < whole + 2 := by
      by_contra far
      have := Nat.mul_le_mul_left denominator (Nat.not_lt.mp far)
      nlinarith
    omega
  rcases floor with rfl | rfl
  · have : 2 * rest < denominator := by nlinarith
    have low : ¬ denominator < 2 * rest := by omega
    have other : denominator ≠ 2 * rest := by omega
    simp [low, other]
  · have high : denominator < 2 * rest := by nlinarith
    simp [high]

/-- Rounding does not change when both parts of a quotient are multiplied by the same positive
number. -/
theorem roundQuotient_scale (numerator denominator : Nat) {factor : Nat} (positive : 0 < factor) :
    roundQuotient (numerator * factor) (denominator * factor) =
      roundQuotient numerator denominator := by
  have twice : 2 * (numerator % denominator * factor) = 2 * (numerator % denominator) * factor := by
    ring
  have greater : denominator * factor < 2 * (numerator % denominator) * factor ↔
      denominator < 2 * (numerator % denominator) := Nat.mul_lt_mul_right positive
  have equal : (denominator * factor == 2 * (numerator % denominator) * factor) =
      (denominator == 2 * (numerator % denominator)) := by
    rw [Bool.eq_iff_iff, beq_iff_eq, beq_iff_eq, Nat.mul_left_inj (Nat.ne_of_gt positive)]
  simp only [roundQuotient, Nat.mul_div_mul_right _ _ positive, Nat.mul_mod_mul_right, twice,
    greater, equal]

/-- Rounding depends on the value of the quotient only: two quotients of equal cross products
become the same when both are expanded. -/
theorem roundQuotient_congr {numerator denominator other divisor : Nat}
    (positive : 0 < denominator) (divides : 0 < divisor)
    (same : numerator * divisor = other * denominator) :
    roundQuotient numerator denominator = roundQuotient other divisor := by
  rw [← roundQuotient_scale numerator denominator divides, same, Nat.mul_comm denominator,
    roundQuotient_scale other divisor positive]

/-- Powers of two are positive, so that one can divide by them. -/
theorem twoTo_pos (n : Nat) : 0 < twoTo n := Nat.pow_pos (by decide)

/-- A power of two among the naturals is the same power of two among the rational numbers. -/
theorem cast_twoTo (n : Nat) : (twoTo n : ℚ) = 2 ^ n := by
  rw [twoTo]
  exact_mod_cast Nat.cast_pow 2 n

/-- A whole power of a number is a quotient of natural powers, one of which is
one. -/
theorem zpow_eq_div (base : ℚ) (power : Int) :
    base ^ power = base ^ power.toNat / base ^ (-power).toNat := by
  rcases le_total 0 power with up | down
  · have none : (-power).toNat = 0 := by omega
    rw [none, pow_zero, div_one, ← zpow_natCast, Int.toNat_of_nonneg up]
  · have none : power.toNat = 0 := by omega
    rw [none, pow_zero, ← zpow_natCast, Int.toNat_of_nonneg (by omega), one_div, zpow_neg, inv_inv]

/-- The scale of a value is the exponent of the largest power of two not above it. -/
def HasScale (value : ℚ) (scale : Int) : Prop := 2 ^ scale ≤ value ∧ value < 2 ^ (scale + 1)

/-- A value has one scale, because powers of two grow with their exponents and a value lies
between two neighbours in one way only. -/
theorem HasScale.unique {value : ℚ} {first second : Int} (left : HasScale value first)
    (right : HasScale value second) : first = second := by
  have forth : first < second + 1 :=
    (zpow_lt_zpow_iff_right₀ one_lt_two).mp (left.1.trans_lt right.2)
  have back : second < first + 1 :=
    (zpow_lt_zpow_iff_right₀ one_lt_two).mp (right.1.trans_lt left.2)
  omega

/-- A positive natural lies between two neighbouring powers of two, and its binary logarithm tells
the lower one. -/
theorem hasScale_log2 {n : Nat} (positive : 0 < n) : HasScale n n.log2 := by
  constructor
  · rw [zpow_natCast]
    exact_mod_cast Nat.log2_self_le (Nat.ne_of_gt positive)
  · have least := @Nat.lt_log2_self n
    have power : (2 : ℚ) ^ ((n.log2 : Int) + 1) = 2 ^ (n.log2 + 1) := by exact_mod_cast rfl
    rw [power]
    exact_mod_cast least

/-- A power of two is compared with a quotient on naturals: its exponent goes to the numerator if
it is negative and to the denominator otherwise. -/
theorem power_le_quotient_iff (numerator : Nat) {denominator : Nat} (positive : 0 < denominator)
    (power : Int) :
    (if power < 0 then denominator ≤ numerator * twoTo (-power).toNat
      else denominator * twoTo power.toNat ≤ numerator) ↔
      (2 : ℚ) ^ power ≤ numerator / denominator := by
  have divisor : (0 : ℚ) < denominator := by exact_mod_cast positive
  rw [le_div_iff₀ divisor, zpow_eq_div]
  split
  · have none : power.toNat = 0 := by omega
    rw [none, pow_zero, div_mul_eq_mul_div, one_mul, div_le_iff₀ (by positivity), ← cast_twoTo]
    exact_mod_cast Iff.rfl
  · have none : (-power).toNat = 0 := by omega
    rw [none, pow_zero, div_one, mul_comm, ← cast_twoTo]
    exact_mod_cast Iff.rfl

/-- The binary scale of a quotient is the scale of its value.

Proof: the difference of the sizes of numerator and denominator is the scale or one
more, and the comparison tells which. -/
theorem hasScale_binaryScale {numerator denominator : Nat} (above : 0 < numerator)
    (below : 0 < denominator) :
    HasScale (numerator / denominator) (binaryScale numerator denominator) := by
  have divisor : (0 : ℚ) < denominator := by exact_mod_cast below
  obtain ⟨topLow, topHigh⟩ := hasScale_log2 above
  obtain ⟨bottomLow, bottomHigh⟩ := hasScale_log2 below
  rw [binaryScale]
  have reaches := power_le_quotient_iff numerator below
    ((numerator.log2 : Int) - denominator.log2)
  generalize (numerator.log2 : Int) = top at *
  generalize (denominator.log2 : Int) = bottom at *
  have upper : (numerator / denominator : ℚ) < 2 ^ (top - bottom + 1) := by
    rw [div_lt_iff₀ divisor]
    calc (numerator : ℚ) < 2 ^ (top + 1) := topHigh
      _ = 2 ^ (top - bottom + 1) * 2 ^ bottom := by rw [← zpow_add₀ two_ne_zero]; congr 1; ring
      _ ≤ 2 ^ (top - bottom + 1) * denominator := by gcongr
  have lower : (2 : ℚ) ^ (top - bottom - 1) ≤ numerator / denominator := by
    rw [le_div_iff₀ divisor]
    calc (2 : ℚ) ^ (top - bottom - 1) * denominator
        ≤ 2 ^ (top - bottom - 1) * 2 ^ (bottom + 1) := by gcongr
      _ = 2 ^ top := by rw [← zpow_add₀ two_ne_zero]; congr 1; ring
      _ ≤ numerator := topLow
  by_cases met : (2 : ℚ) ^ (top - bottom) ≤ numerator / denominator
  · rw [if_pos (reaches.mpr met)]
    exact ⟨met, upper⟩
  · rw [if_neg fun reached => met (reaches.mp reached)]
    refine ⟨lower, ?_⟩
    rw [sub_add_cancel]
    exact lt_of_not_ge met

/-- A quotient in units of a power of two, rounded to a whole number. -/
def roundedAt (numerator denominator : Nat) (unit : Int) : Nat :=
  if unit < 0 then roundQuotient (numerator * twoTo (-unit).toNat) denominator
  else roundQuotient numerator (denominator * twoTo unit.toNat)

/-- The unit in which a quotient is rounded, as the exponent of a power of two. -/
def unitOf (numerator denominator : Nat) : Int :=
  max (binaryScale numerator denominator - 52) (-1074)

/-- A positive quotient is rounded in its unit, and its place is counted from the unit and the
number of units. -/
theorem ofQuotient_eq (negative : Bool) {numerator : Nat} (positive : 0 < numerator)
    (denominator : Nat) :
    ofQuotient negative numerator denominator =
      ofPlace negative ((unitOf numerator denominator + 1074).toNat * binade +
        roundedAt numerator denominator (unitOf numerator denominator)) := by
  have nonzero : (numerator == 0) = false := by simpa using Nat.ne_of_gt positive
  simp only [ofQuotient, nonzero, Bool.false_eq_true, ↓reduceIte, unitOf, roundedAt]
  rfl

/-- A whole number within less than a half of a quotient in a unit is what the quotient is rounded
to in that unit. -/
theorem roundedAt_of_near {numerator denominator nearest : Nat} (positive : 0 < denominator)
    {unit : Int} (near : |(numerator / denominator : ℚ) / 2 ^ unit - nearest| < 1 / 2) :
    roundedAt numerator denominator unit = nearest := by
  rw [zpow_eq_div] at near
  rw [roundedAt]
  split
  · have none : unit.toNat = 0 := by omega
    apply roundQuotient_of_near positive
    rw [none, pow_zero, one_div, div_inv_eq_mul, div_mul_eq_mul_div] at near
    rw [Nat.cast_mul, cast_twoTo]
    exact near
  · have none : (-unit).toNat = 0 := by omega
    apply roundQuotient_of_near (Nat.mul_pos positive (twoTo_pos _))
    rw [none, pow_zero, div_one, div_div] at near
    rw [Nat.cast_mul, cast_twoTo]
    exact near

section Congruence

variable {numerator denominator other divisor : Nat} (below : 0 < denominator)
  (beneath : 0 < divisor) (same : numerator * divisor = other * denominator)

include below beneath same

/-- Quotients of equal cross products have equal values, as neither denominator is zero. -/
theorem quotient_eq : (numerator / denominator : ℚ) = other / divisor := by
  rw [div_eq_div_iff (by positivity) (by positivity)]
  exact_mod_cast same

/-- The rounded number of units depends on the value of the quotient only, for units above one and
below. -/
theorem roundedAt_congr (unit : Int) :
    roundedAt numerator denominator unit = roundedAt other divisor unit := by
  rw [roundedAt, roundedAt]
  split
  · apply roundQuotient_congr below beneath
    rw [Nat.mul_right_comm, same, Nat.mul_right_comm]
  · have power := twoTo_pos unit.toNat
    apply roundQuotient_congr (Nat.mul_pos below power) (Nat.mul_pos beneath power)
    rw [← Nat.mul_assoc, same, Nat.mul_assoc]

/-- The nearest double depends on the value of the quotient only: equal values have the same
scale, so they are rounded in the same unit. -/
theorem ofQuotient_congr (negative : Bool) :
    ofQuotient negative numerator denominator = ofQuotient negative other divisor := by
  rcases Nat.eq_zero_or_pos numerator with rfl | positive
  · have zero : other = 0 := by
      rw [Nat.zero_mul] at same
      rcases Nat.mul_eq_zero.mp same.symm with zero | zero
      · exact zero
      · omega
    simp [zero, ofQuotient]
  · have nonzero : 0 < other := by
      rcases Nat.eq_zero_or_pos other with rfl | given
      · have := Nat.mul_pos positive beneath
        omega
      · exact given
    have scale := hasScale_binaryScale positive below
    rw [quotient_eq below beneath same] at scale
    have units : unitOf numerator denominator = unitOf other divisor := by
      rw [unitOf, unitOf, scale.unique (hasScale_binaryScale nonzero beneath)]
    rw [ofQuotient_eq negative positive, ofQuotient_eq negative nonzero, units,
      roundedAt_congr below beneath same]

end Congruence

/-- In units of a power of two a value has a scale that is smaller by the exponent of this power.
-/
theorem HasScale.div_power {value : ℚ} {scale : Int} (given : HasScale value scale) (power : Int) :
    HasScale (value / 2 ^ power) (scale - power) := by
  have positive : (0 : ℚ) < 2 ^ power := by positivity
  constructor
  · rw [le_div_iff₀ positive, ← zpow_add₀ two_ne_zero, sub_add_cancel]
    exact given.1
  · rw [div_lt_iff₀ positive, ← zpow_add₀ two_ne_zero]
    have same : scale - power + 1 + power = scale + 1 := by ring
    rw [same]
    exact given.2

/-- The number of magnitudes in a binade, written out for the arithmetic on places. -/
theorem binade_eq : binade = 4503599627370496 := rfl

/-- A place lies in the first binade, where the significand is the place, or in a later one,
where the significand fills a binade. -/
theorem place_cases (place : Nat) :
    (place < binade ∧ significand place = place ∧ exponent place = -1074) ∨
      ∃ index offset, 0 < index ∧ offset < binade ∧ place = index * binade + offset ∧
        significand place = binade + offset ∧ exponent place = (index : Int) - 1075 := by
  have positive : 0 < binade := twoTo_pos 52
  rcases Nat.eq_zero_or_pos (place / binade) with first | later
  · left
    refine ⟨(Nat.div_eq_zero_iff_lt positive).mp first, ?_, ?_⟩
    · simp [significand, first]
    · simp [exponent, first]
  · right
    have other : place / binade ≠ 0 := Nat.ne_of_gt later
    refine ⟨place / binade, place % binade, later, Nat.mod_lt _ positive, ?_, ?_, ?_⟩
    · rw [Nat.mul_comm, Nat.div_add_mod]
    · simp [significand, other]
    · simp [exponent, other]

/-- A magnitude other than zero has a significand of at most 53 binary figures. -/
theorem significand_bounds {place : Nat} (positive : 0 < place) :
    (1 : ℚ) ≤ significand place ∧ (significand place : ℚ) ≤ 9007199254740991 := by
  have bounds : 1 ≤ significand place ∧ significand place ≤ 9007199254740991 := by
    rcases place_cases place with ⟨first, significant, _⟩ |
      ⟨index, offset, _, within, _, significant, _⟩ <;> rw [binade_eq] at * <;> omega
  exact_mod_cast bounds

/-- The next magnitude lies one unit of the last binary figure higher.

Proof: the next place has the next significand, except at the end of a binade. There the unit
doubles, and the next binade starts with half the significand. -/
theorem magnitude_succ (place : Nat) :
    magnitude (place + 1) = magnitude place + 2 ^ exponent place := by
  have next : (exponent (place + 1) = exponent place ∧
        significand (place + 1) = significand place + 1) ∨
      (exponent (place + 1) = exponent place + 1 ∧
        2 * significand (place + 1) = significand place + 1) := by
    rcases place_cases place with ⟨first, significant, unit⟩ |
      ⟨index, offset, later, within, located, significant, unit⟩ <;>
    rcases place_cases (place + 1) with ⟨early, counted, scale⟩ |
      ⟨binades, rest, late, inside, lies, counted, scale⟩ <;>
    rw [binade_eq] at * <;> omega
  unfold magnitude
  rcases next with ⟨same, counted⟩ | ⟨doubled, counted⟩
  · rw [same, counted]
    push_cast
    ring
  · have halved : (2 * significand (place + 1) : ℚ) = significand place + 1 := by
      exact_mod_cast counted
    calc (significand (place + 1) : ℚ) * 2 ^ exponent (place + 1)
        = 2 * significand (place + 1) * 2 ^ exponent place := by
          rw [doubled, zpow_add_one₀ two_ne_zero]
          ring
      _ = significand place * 2 ^ exponent place + 2 ^ exponent place := by
          rw [halved]
          ring

/-- Magnitudes are ordered like their places, since each place is followed by a larger magnitude.
-/
theorem magnitude_strictMono : StrictMono magnitude := by
  refine strictMono_nat_of_lt_succ fun place => ?_
  rw [magnitude_succ]
  exact lt_add_of_pos_right _ (by positivity)

/-- The place of a magnitude follows from its unit and its significand; this holds in the first
binade and in all later ones. -/
theorem place_of_significand (place : Nat) :
    (exponent place + 1074).toNat * binade + significand place = place := by
  rcases place_cases place with ⟨_, significant, exponential⟩ |
    ⟨index, offset, later, _, located, significant, exponential⟩
  · rw [significant, exponential]
    simp
  · obtain ⟨before, rfl⟩ : ∃ before, index = before + 1 := ⟨index - 1, by omega⟩
    have steps : ((before + 1 : Nat) - 1075 + 1074 : Int).toNat = before := by omega
    rw [significant, exponential, steps, located]
    ring

/-- A quotient is rounded to a place once its unit is known and a number of units is near enough
that leads to this place. -/
theorem ofQuotient_of_unit (negative : Bool) {numerator denominator place units : Nat}
    (above : 0 < numerator) (below : 0 < denominator) (unit : Int)
    (inUnit : unitOf numerator denominator = unit)
    (near : |(numerator / denominator : ℚ) / 2 ^ unit - units| < 1 / 2)
    (lands : (unit + 1074).toNat * binade + units = place) :
    ofQuotient negative numerator denominator = ofPlace negative place := by
  rw [ofQuotient_eq negative above, inUnit, roundedAt_of_near below near, lands]

/-- The distance of a value from a magnitude, in units of the last binary figure of the magnitude,
is bounded by the significand in the same proportion. -/
theorem near_in_units {value : ℚ} {place : Nat}
    (near : |value - magnitude place| < magnitude place / 2 ^ 54) :
    |value / 2 ^ exponent place - significand place| < significand place / 2 ^ 54 := by
  have power : (0 : ℚ) < 2 ^ exponent place := by positivity
  rw [magnitude] at near
  have units : value / 2 ^ exponent place - significand place =
      (value - significand place * 2 ^ exponent place) / 2 ^ exponent place := by field_simp
  rw [units, abs_div, abs_of_pos power, div_lt_iff₀ power]
  calc _ < (significand place : ℚ) * 2 ^ exponent place / 2 ^ 54 := near
    _ = _ := by ring

/-- A value close to a magnitude, in units of the last binary figure of the magnitude,
is scaled so that it is rounded in that unit, or the magnitude is a power of two and the
value lies just below. -/
theorem scale_near {value : ℚ} {place : Nat} {scale : Int} (positive : 0 < place)
    (near : |value - significand place| < significand place / 2 ^ 54)
    (scaled : HasScale value scale) :
    max (scale + exponent place - 52) (-1074) = exponent place ∨
      -1074 < exponent place ∧ scale = 51 ∧ significand place = binade := by
  obtain ⟨least, most⟩ := abs_lt.mp near
  obtain ⟨smallest, largest⟩ := significand_bounds positive
  rcases place_cases place with ⟨first, significant, exponential⟩ |
    ⟨index, offset, later, within, located, significant, exponential⟩
  · have small : (significand place : ℚ) ≤ 4503599627370495 := by
      rw [significant]
      rw [binade_eq] at first
      exact_mod_cast Nat.le_of_lt_succ first
    have low : scale < 52 := by
      apply (zpow_lt_zpow_iff_right₀ (one_lt_two : (1 : ℚ) < 2)).mp
      refine scaled.1.trans_lt ?_
      norm_num
      linarith
    left
    omega
  · by_cases high : (4503599627370496 : ℚ) ≤ value
    · have fixed : scale = 52 := by
        refine scaled.unique ⟨?_, ?_⟩ <;> norm_num <;> linarith
      left
      omega
    · have large : (4503599627370496 : ℚ) ≤ significand place := by
        rw [significant, binade_eq]
        exact_mod_cast Nat.le_add_right _ _
      have start : offset = 0 := by
        have bound : (significand place : ℚ) < 4503599627370497 := by linarith
        rw [significant, binade_eq] at bound
        have : 4503599627370496 + offset < 4503599627370497 := by exact_mod_cast bound
        omega
      have fixed : scale = 51 := by
        refine scaled.unique ⟨?_, ?_⟩ <;> norm_num <;> linarith
      by_cases second : index = 1
      · left
        omega
      · right
        exact ⟨by omega, fixed, by rw [significant, start, Nat.add_zero]⟩

/-- A quotient close to a magnitude is rounded to it.

Proof: the quotient is measured in units of the last binary figure of the magnitude.
It then lies within a half of the significand, so it is rounded to the significand
when this is also the unit in which the quotient is rounded. The only other case is a
quotient just below a power of two: its unit is half as large, and it is rounded to
twice the significand. -/
theorem ofQuotient_of_near (negative : Bool) {numerator denominator place : Nat}
    (below : 0 < denominator) (positive : 0 < place)
    (near : |(numerator / denominator : ℚ) - magnitude place| < magnitude place / 2 ^ 54) :
    ofQuotient negative numerator denominator = ofPlace negative place := by
  have close := near_in_units near
  obtain ⟨least, most⟩ := abs_lt.mp close
  obtain ⟨smallest, largest⟩ := significand_bounds positive
  have above : 0 < numerator := by
    by_contra none
    rw [Nat.eq_zero_of_not_pos none, Nat.cast_zero, zero_div, zero_div] at least
    linarith
  have scale := (hasScale_binaryScale above below).div_power (exponent place)
  rcases scale_near positive close scale with same | ⟨inside, lower, power⟩
  · refine ofQuotient_of_unit negative above below (exponent place) ?_ ?_
      (place_of_significand place)
    · rw [sub_add_cancel] at same
      exact same
    · linarith
  · refine ofQuotient_of_unit negative above below (exponent place - 1) ?_
      (?_ : |_ - ((2 * binade : Nat) : ℚ)| < _) ?_
    · rw [unitOf]
      omega
    · have halved : (numerator / denominator : ℚ) / 2 ^ (exponent place - 1) =
          2 * (numerator / denominator / 2 ^ exponent place) := by
        rw [zpow_sub_one₀ two_ne_zero]
        field_simp
      rw [halved]
      rw [power] at close
      push_cast
      rw [← mul_sub, abs_mul, abs_of_pos two_pos]
      rw [binade_eq] at close ⊢
      norm_num at close ⊢
      linarith
    · have whole := place_of_significand place
      have steps : (exponent place + 1074).toNat = (exponent place - 1 + 1074).toNat + 1 := by omega
      rw [power, steps, Nat.add_mul, Nat.one_mul] at whole
      omega

end ScreenAtlas.Double
