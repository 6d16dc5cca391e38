/-!
# Double-precision numbers

A confidence and the numbers of a data file are binary floating-point numbers of
64 bits. A finite magnitude is named by its place among all finite magnitudes in
increasing order, so that every value of the type is a number the format really
has, comparison of magnitudes is comparison of places, and rounding up past the
end of a binade is ordinary counting. All arithmetic below is exact arithmetic
on naturals and integers; nothing depends on the machine's floating point.
-/
namespace ScreenAtlas

/-- How many finite magnitudes there are, zero included. -/
def finiteMagnitudes : Nat := 0x7FF0000000000000

/-- A double-precision number. The place of a finite magnitude counts from zero,
the smallest. -/
inductive Double where
  | finite (negative : Bool) (place : Fin finiteMagnitudes)
  | infinite (negative : Bool)
  | notANumber
  deriving DecidableEq, Repr

namespace Double

/-- A power of two. -/
def twoTo (n : Nat) : Nat := Nat.pow 2 n

/-- A power of ten. -/
def tenTo (n : Nat) : Nat := Nat.pow 10 n

/-- The number of magnitudes in one binade. -/
def binade : Nat := twoTo 52

/-- The magnitude at a place is `significand * 2 ^ exponent`. -/
def significand (place : Nat) : Nat :=
  if place / binade == 0 then place else binade + place % binade

/-- The power of two that scales the significand at a place. -/
def exponent (place : Nat) : Int :=
  if place / binade == 0 then -1074 else (place / binade : Nat) - 1075

/-- The magnitude at a place, or infinity past the last finite one. -/
def ofPlace (negative : Bool) (place : Nat) : Double :=
  if bounded : place < finiteMagnitudes then .finite negative ⟨place, bounded⟩
  else .infinite negative

/-- Zero. -/
def zero : Double := ofPlace false 0

/-- The nearest whole number to a quotient; a half goes to the even neighbour. -/
def roundQuotient (numerator denominator : Nat) : Nat :=
  let whole := numerator / denominator
  let twice := 2 * (numerator % denominator)
  if denominator < twice || (denominator == twice && whole % 2 == 1) then whole + 1 else whole

/-- The largest power of two not above a positive quotient, as an exponent. -/
def binaryScale (numerator denominator : Nat) : Int :=
  let guess : Int := (numerator.log2 : Int) - (denominator.log2 : Int)
  let reaches :=
    if guess < 0 then denominator ≤ numerator * twoTo (-guess).toNat
    else denominator * twoTo guess.toNat ≤ numerator
  if reaches then guess else guess - 1

/-- The double nearest to a quotient of naturals. The significand is rounded at
the unit of its binade; rounding up to the next binade carries into the place. -/
def ofQuotient (negative : Bool) (numerator denominator : Nat) : Double :=
  if numerator == 0 then ofPlace negative 0
  else
    let unit : Int := max (binaryScale numerator denominator - 52) (-1074)
    let rounded :=
      if unit < 0 then roundQuotient (numerator * twoTo (-unit).toNat) denominator
      else roundQuotient numerator (denominator * twoTo unit.toNat)
    ofPlace negative ((unit + 1074).toNat * binade + rounded)

/-- The count of decimal digits of a natural, one for zero. -/
def digitCount (n : Nat) : Nat := (Nat.toDigits 10 n).length

/-- The double nearest to `digits * 10 ^ scale`. Decimals far outside the range
are decided by their size alone. -/
def ofDecimal (negative : Bool) (digits : Nat) (scale : Int) : Double :=
  if digits == 0 then ofPlace negative 0
  else
    let size : Int := digitCount digits + scale
    if 400 < size then .infinite negative
    else if size < -400 then ofPlace negative 0
    else if scale < 0 then ofQuotient negative digits (tenTo (-scale).toNat)
    else ofQuotient negative (digits * tenTo scale.toNat) 1

/-- The double nearest to a whole number; none when it lies beyond the largest
finite double. -/
def ofInt? (n : Int) : Option Double :=
  match ofQuotient (decide (n < 0)) n.natAbs 1 with
  | .infinite _ => none
  | number => some number

/-- The number is zero of either sign. -/
def isZero : Double → Bool
  | .finite _ place => place.val == 0
  | _ => false

/-- A finite number without its fraction. -/
def truncate (negative : Bool) (place : Nat) : Int :=
  let magnitude : Nat :=
    if exponent place < 0 then significand place / twoTo (-(exponent place)).toNat
    else significand place * twoTo (exponent place).toNat
  if negative then -(magnitude : Int) else magnitude

/-- The number equals a given whole number. -/
def equalsInt (number : Double) (n : Int) : Bool :=
  match number, ofInt? n with
  | .finite negative place, some (.finite otherNegative otherPlace) =>
    place == otherPlace && (place.val == 0 || negative == otherNegative) &&
      truncate negative place == n
  | _, _ => false

/-- The larger of two numbers that are not negative. -/
def larger (left right : Double) : Double :=
  match left, right with
  | .finite _ p, .finite _ q => if p.val < q.val then right else left
  | .infinite _, _ => left
  | _, .infinite _ => right
  | _, _ => left

end Double

end ScreenAtlas
