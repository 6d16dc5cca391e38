import ScreenAtlas.Proofs.NearestDouble

/-!
# The shortest decimal of a double

A finite double is written in the fewest digits that read back as it. The search for
those digits ends: of the two decimals of 17 digits around a magnitude the nearer one
is always close enough to be rounded to it. So the decimal that is written reads back,
whatever its length.

The search starts from a power of ten estimated from the binary size of the magnitude.
Eight steps are enough to reach the true power, as ten binary figures are a little
more than three decimal ones and 93 a little less than 28.
-/
namespace ScreenAtlas.Double

/-- Powers of ten are positive, so that one can divide by them. -/
theorem tenTo_pos (n : Nat) : 0 < tenTo n := Nat.pow_pos (by decide)

/-- A power of ten among the naturals is the same power of ten among the rational numbers. -/
theorem cast_tenTo (n : Nat) : (tenTo n : ℚ) = 10 ^ n := by
  rw [tenTo]
  exact_mod_cast Nat.cast_pow 10 n

/-- The exact value of a decimal, as a rational number. -/
def Decimal.value (decimal : Decimal) : ℚ := decimal.digits * 10 ^ decimal.scale

/-- The exponent of the power of ten just above a decimal. -/
def Decimal.size (decimal : Decimal) : Int := digitCount decimal.digits + decimal.scale

/-- A decimal is a quotient of naturals: a positive scale goes to the numerator, a negative one to
the denominator. -/
theorem Decimal.value_eq_div (decimal : Decimal) :
    decimal.value = (decimal.digits * tenTo decimal.scale.toNat : Nat) /
      (tenTo (-decimal.scale).toNat : Nat) := by
  rw [Decimal.value, zpow_eq_div, Nat.cast_mul, cast_tenTo, cast_tenTo, mul_div_assoc]

/-- A positive natural has as many digits as the power of ten just above it says, and at least
one. -/
theorem digitCount_bounds {n : Nat} (positive : 0 < n) :
    0 < digitCount n ∧ 10 ^ (digitCount n - 1) ≤ n ∧ n < 10 ^ digitCount n := by
  have some : 0 < digitCount n := Nat.length_toDigits_pos
  refine ⟨some, ?_, ?_⟩
  · by_contra fewer
    rcases Nat.eq_zero_or_pos (digitCount n - 1) with one | more
    · rw [one, Nat.pow_zero] at fewer
      omega
    · have : digitCount n ≤ digitCount n - 1 :=
        (Nat.length_toDigits_le_iff (by decide) more).mpr (by omega)
      omega
  · exact (Nat.length_toDigits_le_iff (by decide) some).mp le_rfl

/-- A positive decimal lies below the power of ten of its size and not below the one before, since
its digits do so and the scale moves both. -/
theorem Decimal.size_bounds (decimal : Decimal) (positive : 0 < decimal.digits) :
    10 ^ (decimal.size - 1) ≤ decimal.value ∧ decimal.value < 10 ^ decimal.size := by
  obtain ⟨some, least, most⟩ := digitCount_bounds positive
  have power : (0 : ℚ) < 10 ^ decimal.scale := by positivity
  have low : ((10 : ℚ) ^ (digitCount decimal.digits - 1)) ≤ decimal.digits := by
    exact_mod_cast least
  have high : (decimal.digits : ℚ) < 10 ^ digitCount decimal.digits := by exact_mod_cast most
  rw [Decimal.size, Decimal.value]
  constructor
  · have split : (digitCount decimal.digits + decimal.scale - 1 : Int) =
        (digitCount decimal.digits - 1 : Nat) + decimal.scale := by omega
    rw [split, zpow_add₀ (by norm_num), zpow_natCast]
    gcongr
  · rw [zpow_add₀ (by norm_num), zpow_natCast]
    gcongr

/-- Positive decimals of equal value have one size, because a number lies between two neighbouring
powers of ten in one way only. -/
theorem Decimal.size_congr {left right : Decimal} (positive : 0 < left.digits)
    (nonzero : 0 < right.digits) (same : left.value = right.value) : left.size = right.size := by
  obtain ⟨leftLow, leftHigh⟩ := left.size_bounds positive
  obtain ⟨rightLow, rightHigh⟩ := right.size_bounds nonzero
  rw [same] at leftLow leftHigh
  have base : (1 : ℚ) < 10 := by norm_num
  have forth := (zpow_lt_zpow_iff_right₀ base).mp (leftLow.trans_lt rightHigh)
  have back := (zpow_lt_zpow_iff_right₀ base).mp (rightLow.trans_lt leftHigh)
  omega

/-- The double nearest to a decimal, with a sign. -/
def Decimal.nearest (negative : Bool) (decimal : Decimal) : Double :=
  ofDecimal negative decimal.digits decimal.scale

/-- A decimal of moderate size is rounded as a quotient of naturals. One that is far too large or
far too small is settled by its size alone. -/
theorem Decimal.nearest_eq (negative : Bool) (decimal : Decimal) (positive : 0 < decimal.digits) :
    decimal.nearest negative =
      if 400 < decimal.size then .infinite negative
      else if decimal.size < -400 then ofPlace negative 0
      else ofQuotient negative (decimal.digits * tenTo decimal.scale.toNat)
        (tenTo (-decimal.scale).toNat) := by
  have nonzero : (decimal.digits == 0) = false := by simpa using Nat.ne_of_gt positive
  have one : tenTo 0 = 1 := rfl
  simp only [Decimal.nearest, ofDecimal, nonzero, Bool.false_eq_true, ↓reduceIte, Decimal.size]
  by_cases down : decimal.scale < 0
  · have none : decimal.scale.toNat = 0 := by omega
    rw [if_pos down, none, one, Nat.mul_one]
    rfl
  · have none : (-decimal.scale).toNat = 0 := by omega
    rw [if_neg down, none, one]
    rfl

/-- What a decimal is rounded to depends on its value only, and not on how the value is split into
digits and scale. -/
theorem Decimal.nearest_congr (negative : Bool) {left right : Decimal}
    (same : left.value = right.value) : left.nearest negative = right.nearest negative := by
  have zero : left.digits = 0 ↔ right.digits = 0 := by
    have leftPower : (10 : ℚ) ^ left.scale ≠ 0 := by positivity
    have rightPower : (10 : ℚ) ^ right.scale ≠ 0 := by positivity
    rw [Decimal.value, Decimal.value] at same
    constructor <;> intro none <;> simpa [none, leftPower, rightPower] using same
  rcases Nat.eq_zero_or_pos left.digits with none | positive
  · simp [Decimal.nearest, ofDecimal, none, zero.mp none]
  · have nonzero : 0 < right.digits := by omega
    rw [left.nearest_eq negative positive, right.nearest_eq negative nonzero,
      Decimal.size_congr positive nonzero same]
    rw [left.value_eq_div, right.value_eq_div, div_eq_div_iff
      (by exact_mod_cast Nat.ne_of_gt (tenTo_pos _))
      (by exact_mod_cast Nat.ne_of_gt (tenTo_pos _))] at same
    rw [ofQuotient_congr (tenTo_pos _) (tenTo_pos _) (by exact_mod_cast same)]

/-- The sign of a decimal does not change the place it is rounded to, only the sign of the double.
-/
theorem Decimal.exists_nearest (decimal : Decimal) :
    ∃ place, ∀ negative, decimal.nearest negative = ofPlace negative place := by
  have rounded (numerator denominator : Nat) :
      ∃ place, ∀ negative, ofQuotient negative numerator denominator = ofPlace negative place := by
    rcases Nat.eq_zero_or_pos numerator with rfl | positive
    · exact ⟨0, fun _ => rfl⟩
    · exact ⟨_, fun negative => ofQuotient_eq negative positive denominator⟩
  rcases Nat.eq_zero_or_pos decimal.digits with none | positive
  · exact ⟨0, fun negative => by simp [Decimal.nearest, ofDecimal, none]⟩
  · simp only [decimal.nearest_eq _ positive]
    split
    · exact ⟨finiteMagnitudes, fun negative => by simp [ofPlace]⟩
    · split
      · exact ⟨0, fun _ => rfl⟩
      · exact rounded _ _

/-- A decimal that reads back as a magnitude does so with either sign, although it is tried with
one of them. -/
theorem Decimal.readsAs_iff (decimal : Decimal) (place : Fin finiteMagnitudes) :
    decimal.readsAs place = true ↔
      ∀ negative, decimal.nearest negative = .finite negative place := by
  obtain ⟨found, nearest⟩ := decimal.exists_nearest
  have plain := nearest false
  rw [Decimal.nearest] at plain
  simp only [nearest, Decimal.readsAs, plain, ofPlace]
  by_cases bounded : found < finiteMagnitudes
  · simp [bounded, Fin.ext_iff]
  · simp [bounded]

/-- Ten binary figures hold more than three decimal ones: a power of ten is below a power of two
if its exponent is at most three tenths of the other. -/
theorem tenPower_le_twoPower {decimals binaries : Nat} (few : 10 * decimals ≤ 3 * binaries) :
    (10 : ℚ) ^ decimals ≤ 2 ^ binaries := by
  have cubes : ((10 : ℚ) ^ decimals) ^ 3 ≤ (2 ^ binaries) ^ 3 := by
    calc ((10 : ℚ) ^ decimals) ^ 3 = (10 ^ 3) ^ decimals := by rw [← pow_mul, ← pow_mul, mul_comm]
      _ ≤ (2 ^ 10) ^ decimals := by gcongr; norm_num
      _ = 2 ^ (10 * decimals) := (pow_mul _ _ _).symm
      _ ≤ 2 ^ (3 * binaries) := pow_le_pow_right₀ (by norm_num) few
      _ = (2 ^ binaries) ^ 3 := by rw [← pow_mul, mul_comm]
  exact le_of_pow_le_pow_left₀ (by decide) (by positivity) cubes

/-- Twenty-eight decimal figures hold more than 93 binary ones, which bounds powers of two from
above by powers of ten. -/
theorem twoPower_le_tenPower {decimals binaries : Nat} (few : 28 * binaries ≤ 93 * decimals) :
    (2 : ℚ) ^ binaries ≤ 10 ^ decimals := by
  have powers : ((2 : ℚ) ^ binaries) ^ 93 ≤ (10 ^ decimals) ^ 93 := by
    calc ((2 : ℚ) ^ binaries) ^ 93 = (2 ^ 93) ^ binaries := by rw [← pow_mul, ← pow_mul, mul_comm]
      _ ≤ (10 ^ 28) ^ binaries := by gcongr; norm_num
      _ = 10 ^ (28 * binaries) := (pow_mul _ _ _).symm
      _ ≤ 10 ^ (93 * decimals) := pow_le_pow_right₀ (by norm_num) few
      _ = (10 ^ decimals) ^ 93 := by rw [← pow_mul, mul_comm]
  exact le_of_pow_le_pow_left₀ (by decide) (by positivity) powers

/-- A power of ten is at most a power of two if its exponent is small enough by both comparisons:
the one decides for positive exponents, the other for negative ones. -/
theorem tenPower_le {decimals binaries : Int} (few : 10 * decimals ≤ 3 * binaries)
    (less : 93 * decimals ≤ 28 * binaries) : (10 : ℚ) ^ decimals ≤ 2 ^ binaries := by
  rw [zpow_eq_div, zpow_eq_div, div_le_div_iff₀ (by positivity) (by positivity)]
  gcongr
  · exact tenPower_le_twoPower (by omega)
  · exact twoPower_le_tenPower (by omega)

/-- A power of two is at most a power of ten if its exponent is small enough by both comparisons,
of which one counts for each sign. -/
theorem twoPower_le {decimals binaries : Int} (few : 28 * binaries ≤ 93 * decimals)
    (less : 3 * binaries ≤ 10 * decimals) : (2 : ℚ) ^ binaries ≤ 10 ^ decimals := by
  rw [zpow_eq_div, zpow_eq_div, div_le_div_iff₀ (by positivity) (by positivity)]
  gcongr
  · exact twoPower_le_tenPower (by omega)
  · exact tenPower_le_twoPower (by omega)

/-- The exponent of the largest power of two not above a magnitude. -/
def magnitudeScale (place : Nat) : Int := (significand place).log2 + exponent place

section Magnitude

variable {place : Nat} (positive : 0 < place) (finite : place < finiteMagnitudes)

include positive

/-- The largest power of two not above a magnitude is its scale: the significand lies between two
powers of two, and the exponent moves it. -/
theorem hasScale_magnitude : HasScale (magnitude place) (magnitudeScale place) := by
  have significant : 0 < significand place := by exact_mod_cast (significand_bounds positive).1
  have scaled := (hasScale_log2 significant).div_power (-exponent place)
  rw [zpow_neg, div_inv_eq_mul, sub_neg_eq_add] at scaled
  exact scaled

/-- A magnitude other than zero is positive, as it is not below the power of two that is its
scale. -/
theorem magnitude_pos : 0 < magnitude place :=
  lt_of_lt_of_le (by positivity) (hasScale_magnitude positive).1

include finite

/-- The scales of finite magnitudes other than zero lie between that of the smallest and that of
the largest double. -/
theorem magnitudeScale_bounds : -1074 ≤ magnitudeScale place ∧ magnitudeScale place ≤ 1023 := by
  have figures : (significand place).log2 ≤ 52 := by
    obtain ⟨least, most⟩ : 1 ≤ significand place ∧ significand place ≤ 9007199254740991 := by
      exact_mod_cast significand_bounds positive
    exact Nat.le_of_lt_succ ((Nat.log2_lt (by omega)).mpr (by omega))
  have exponents : -1074 ≤ exponent place ∧ exponent place ≤ 971 := by
    rcases place_cases place with ⟨_, _, exponential⟩ |
      ⟨index, offset, later, _, located, _, exponential⟩
    · omega
    · rw [finiteMagnitudes] at finite
      rw [binade_eq] at located
      omega
  rw [magnitudeScale]
  omega

/-- A decimal is rounded to a finite magnitude other than zero if it is off by less than the
magnitude over the fifty-fourth power of two. Such a decimal is neither too large nor too small to
be rounded as a quotient. -/
theorem Decimal.nearest_of_near (negative : Bool) {decimal : Decimal}
    (near : |decimal.value - magnitude place| < magnitude place / 2 ^ 54) :
    decimal.nearest negative = ofPlace negative place := by
  obtain ⟨smallest, largest⟩ := magnitudeScale_bounds positive finite
  obtain ⟨low, high⟩ := hasScale_magnitude positive
  obtain ⟨least, most⟩ := abs_lt.mp near
  have above := magnitude_pos positive
  have nonzero : 0 < decimal.digits := by
    by_contra none
    rw [Decimal.value, Nat.eq_zero_of_not_pos none, Nat.cast_zero, zero_mul] at least
    linarith
  obtain ⟨sizeLow, sizeHigh⟩ := decimal.size_bounds nonzero
  have base : (1 : ℚ) < 10 := by norm_num
  have notTiny : -400 < decimal.size := by
    apply (zpow_lt_zpow_iff_right₀ base).mp
    calc (10 : ℚ) ^ (-400 : Int) ≤ 2 ^ (magnitudeScale place - 1) :=
          tenPower_le (by omega) (by omega)
      _ = 2 ^ magnitudeScale place / 2 := by rw [zpow_sub_one₀ two_ne_zero, div_eq_mul_inv]
      _ ≤ magnitude place / 2 := by gcongr
      _ < decimal.value := by linarith
      _ < 10 ^ decimal.size := sizeHigh
  have notHuge : decimal.size - 1 < 400 := by
    apply (zpow_lt_zpow_iff_right₀ base).mp
    calc (10 : ℚ) ^ (decimal.size - 1) ≤ decimal.value := sizeLow
      _ < 2 * magnitude place := by linarith
      _ < 2 * 2 ^ (magnitudeScale place + 1) := by gcongr
      _ = 2 ^ (magnitudeScale place + 2) := by
          rw [mul_comm, ← zpow_add_one₀ two_ne_zero, add_assoc]
          rfl
      _ ≤ 10 ^ (400 : Int) := twoPower_le (by omega) (by omega)
  rw [decimal.nearest_eq negative nonzero, if_neg (by omega), if_neg (by omega)]
  apply ofQuotient_of_near negative (tenTo_pos _) positive
  rw [← decimal.value_eq_div]
  exact near

end Magnitude

/-- A magnitude over a power of ten is the quotient of naturals that is computed for it, with a
positive denominator. -/
theorem scaledQuotient_spec (place : Nat) (power : Int) :
    0 < (scaledQuotient place power).2 ∧
      ((scaledQuotient place power).1 / (scaledQuotient place power).2 : ℚ) =
        magnitude place / 10 ^ power := by
  have twos := twoTo_pos (-exponent place).toNat
  have tens := tenTo_pos power.toNat
  rw [magnitude, zpow_eq_div, zpow_eq_div]
  simp only [scaledQuotient]
  by_cases down : exponent place < 0 <;> by_cases under : power < 0
  · have noTwo : (exponent place).toNat = 0 := by omega
    have noTen : power.toNat = 0 := by omega
    simp only [down, under, ↓reduceIte, noTwo, noTen, twos, Nat.cast_mul, cast_twoTo, cast_tenTo,
      pow_zero, true_and]
    field_simp
  · have noTwo : (exponent place).toNat = 0 := by omega
    have noTen : (-power).toNat = 0 := by omega
    simp only [down, under, ↓reduceIte, noTwo, noTen, Nat.mul_pos twos tens, Nat.cast_mul,
      cast_twoTo, cast_tenTo, pow_zero, true_and]
    field_simp
  · have noTwo : (-exponent place).toNat = 0 := by omega
    have noTen : power.toNat = 0 := by omega
    simp only [down, under, ↓reduceIte, noTwo, noTen, Nat.cast_mul, cast_twoTo, cast_tenTo,
      pow_zero, Nat.zero_lt_one, true_and]
    field_simp
    simp
  · have noTwo : (-exponent place).toNat = 0 := by omega
    have noTen : (-power).toNat = 0 := by omega
    simp only [down, under, ↓reduceIte, noTwo, noTen, Nat.one_mul, tens, Nat.cast_mul,
      cast_twoTo, cast_tenTo, pow_zero, true_and]
    field_simp

/-- The program's comparison of a magnitude with a power of ten, made on naturals, is the
comparison of the exact numbers. -/
theorem belowPower_iff (place : Nat) (power : Int) :
    belowPower place power = true ↔ magnitude place < 10 ^ power := by
  obtain ⟨below, quotient⟩ := scaledQuotient_spec place power
  have divisor : (0 : ℚ) < (scaledQuotient place power).2 := by exact_mod_cast below
  have tens : (0 : ℚ) < 10 ^ power := by positivity
  rw [← div_lt_one tens, ← quotient, div_lt_one divisor]
  simp [belowPower]

/-- Counting up from a power of ten that is not too large ends just above the magnitude, if there
are enough steps. The induction is on the steps. -/
theorem decimalScale_bounds {place : Nat} (steps : Nat) (power : Int)
    (low : 10 ^ (power - 1) ≤ magnitude place) (high : magnitude place < 10 ^ (power + steps)) :
    10 ^ (decimalScale place steps power - 1) ≤ magnitude place ∧
      magnitude place < 10 ^ decimalScale place steps power := by
  induction steps generalizing power with
  | zero =>
    rw [Nat.cast_zero, add_zero] at high
    exact ⟨low, high⟩
  | succ steps inductionHypothesis =>
    rw [decimalScale]
    split
    · rename_i below
      exact ⟨low, (belowPower_iff place power).mp below⟩
    · rename_i reached
      apply inductionHypothesis
      · rw [belowPower_iff] at reached
        rw [add_sub_cancel_right]
        exact le_of_not_gt reached
      · rw [Nat.cast_succ] at high
        rw [add_assoc, add_comm 1]
        exact high

/-- A quotient lies within a half of the whole number below it or of the next one, as the two are
one apart. -/
theorem near_floor_or_next (numerator : Nat) {denominator : Nat} (positive : 0 < denominator) :
    |((numerator / denominator : Nat) : ℚ) - numerator / denominator| ≤ 1 / 2 ∨
      |((numerator / denominator + 1 : Nat) : ℚ) - numerator / denominator| ≤ 1 / 2 := by
  have divisor : (0 : ℚ) < denominator := by exact_mod_cast positive
  have split : (denominator * (numerator / denominator : Nat) + (numerator % denominator : Nat) : ℚ)
      = numerator := by exact_mod_cast Nat.div_add_mod numerator denominator
  have rest : (numerator / denominator : ℚ) =
      (numerator / denominator : Nat) + (numerator % denominator : Nat) / denominator := by
    rw [← split]
    field_simp
  have small : ((numerator % denominator : Nat) : ℚ) / denominator < 1 := by
    rw [div_lt_one divisor]
    exact_mod_cast Nat.mod_lt numerator positive
  have least : (0 : ℚ) ≤ ((numerator % denominator : Nat) : ℚ) / denominator := by positivity
  rw [rest]
  generalize ((numerator % denominator : Nat) : ℚ) / denominator = part at *
  rcases le_total part (1 / 2) with low | high
  · left
    rw [abs_le]
    constructor <;> linarith
  · right
    rw [Nat.cast_succ, abs_le]
    constructor <;> linarith

/-- What the search for one digit count finds reads back as the magnitude, because it is tested
before it is given. -/
theorem readsAs_of_decimalOfLength? {place : Nat} {power : Int} {count : Nat} {decimal : Decimal}
    (found : decimalOfLength? place power count = some decimal) :
    decimal.readsAs place = true := by
  simp only [decimalOfLength?] at found
  split at found
  · split at found <;> cases found <;> assumption
  · cases found
    assumption
  · cases found
    assumption
  · cases found

/-- When the search for one digit count finds nothing, neither of the two decimals of this length
around the magnitude reads back. -/
theorem not_readsAs_of_decimalOfLength? {place : Nat} {power : Int} {count : Nat}
    (nothing : decimalOfLength? place power count = none) :
    let quotient := scaledQuotient place (power - count)
    ¬ (Decimal.mk (quotient.1 / quotient.2) (power - count)).readsAs place = true ∧
      ¬ (Decimal.mk (quotient.1 / quotient.2 + 1) (power - count)).readsAs place = true := by
  simp only [decimalOfLength?] at nothing
  split at nothing
  · split at nothing <;> cases nothing
  · cases nothing
  · cases nothing
  · rename_i lower upper
    simp [lower, upper]

/-- The exponent of the power of ten just above a magnitude, found from the estimate. -/
def decimalPower (place : Nat) : Int := decimalScale place 8 (decimalScaleBound place)

section Search

variable {place : Nat} (positive : 0 < place) (finite : place < finiteMagnitudes)

include positive finite

/-- The estimate from the binary size is close enough: eight steps from it reach the power of ten
just above the magnitude. -/
theorem decimalPower_bounds :
    10 ^ (decimalPower place - 1) ≤ magnitude place ∧
      magnitude place < 10 ^ decimalPower place := by
  obtain ⟨smallest, largest⟩ := magnitudeScale_bounds positive finite
  obtain ⟨low, high⟩ := hasScale_magnitude positive
  have bound : decimalScaleBound place = magnitudeScale place * 30103 / 100000 - 1 := rfl
  apply decimalScale_bounds
  · exact (tenPower_le (by omega) (by omega)).trans low
  · exact high.trans_le (twoPower_le (by omega) (by omega))

/-- A decimal within half a unit of its seventeenth digit is rounded to the magnitude, since this
is less than the distance that rounding allows. -/
theorem nearest_of_seventeen (negative : Bool) (decimal : Decimal)
    (scale : decimal.scale = decimalPower place - 17)
    (half : |decimal.digits - magnitude place / 10 ^ decimal.scale| ≤ 1 / 2) :
    decimal.nearest negative = ofPlace negative place := by
  apply Decimal.nearest_of_near positive finite
  obtain ⟨low, -⟩ := decimalPower_bounds positive finite
  have tens : (0 : ℚ) < 10 ^ decimal.scale := by positivity
  have apart : decimal.value - magnitude place =
      (decimal.digits - magnitude place / 10 ^ decimal.scale) * 10 ^ decimal.scale := by
    rw [Decimal.value]
    field_simp
  have power : (10 : ℚ) ^ (decimalPower place - 1) = 10 ^ 16 * 10 ^ decimal.scale := by
    rw [scale, ← zpow_natCast, ← zpow_add₀ (by norm_num)]
    congr 1
    omega
  rw [apart, abs_mul, abs_of_pos tens]
  calc _ ≤ 1 / 2 * (10 : ℚ) ^ decimal.scale := by gcongr
    _ < 10 ^ 16 * 10 ^ decimal.scale / 2 ^ 54 := by
        have : (1 / 2 : ℚ) < 10 ^ 16 / 2 ^ 54 := by norm_num
        calc _ < (10 ^ 16 / 2 ^ 54 : ℚ) * 10 ^ decimal.scale := by gcongr
          _ = _ := by ring
    _ ≤ magnitude place / 2 ^ 54 := by
        rw [← power]
        gcongr

/-- Seventeen digits are always enough.

Proof: the magnitude in units of the seventeenth digit lies between two whole numbers
and within a half of one of them. -/
theorem decimalOfLength?_seventeen_ne_none :
    decimalOfLength? place (decimalPower place) 17 ≠ none := by
  obtain ⟨below, quotient⟩ := scaledQuotient_spec place (decimalPower place - 17)
  have reads (digits : Nat)
      (half : |(digits : ℚ) - magnitude place / 10 ^ (decimalPower place - 17)| ≤ 1 / 2) :
      (Decimal.mk digits (decimalPower place - 17)).readsAs place = true := by
    refine (Decimal.readsAs_iff _ ⟨place, finite⟩).mpr fun negative => ?_
    rw [nearest_of_seventeen positive finite negative ⟨digits, _⟩ rfl half, ofPlace,
      dif_pos finite]
  rw [← quotient] at reads
  have either := near_floor_or_next (scaledQuotient place (decimalPower place - 17)).1 below
  intro nothing
  obtain ⟨lower, upper⟩ := not_readsAs_of_decimalOfLength? nothing
  rcases either with floor | next
  · exact lower (reads _ floor)
  · exact upper (reads _ next)

end Search

/-- The decimal that is written for a finite double reads back as it, with either sign, whether
the search ends at seventeen digits or before. -/
theorem nearest_shortest (negative : Bool) (place : Fin finiteMagnitudes) :
    (shortest place).nearest negative = .finite negative place := by
  rcases Nat.eq_zero_or_pos place.val with none | positive
  · have first : place = ⟨0, by decide⟩ := Fin.ext none
    rw [first]
    rfl
  · apply (Decimal.readsAs_iff _ place).mp
    have nonzero : (place.val == 0) = false := by simpa using Nat.ne_of_gt positive
    have ends : ((List.range 17).findSome? fun count =>
        decimalOfLength? place (decimalPower place) (count + 1)) ≠ none := by
      intro nothing
      rw [List.findSome?_eq_none_iff] at nothing
      exact decimalOfLength?_seventeen_ne_none positive place.isLt (nothing 16 (by decide))
    obtain ⟨decimal, found⟩ := Option.ne_none_iff_exists'.mp ends
    obtain ⟨count, -, last⟩ := List.exists_of_findSome?_eq_some found
    have chosen : shortest place = decimal := by
      rw [decimalPower] at found
      simp only [shortest, nonzero, Bool.false_eq_true, ↓reduceIte, found, Option.getD_some]
    rw [chosen]
    exact readsAs_of_decimalOfLength? last

end ScreenAtlas.Double
