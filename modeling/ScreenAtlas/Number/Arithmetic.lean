import ScreenAtlas.Number.Double

/-!
# Sums and products of double-precision numbers

Sums and products are computed exactly and rounded once.
-/
namespace ScreenAtlas.Double

/-- The double nearest to a whole number times a power of two. A zero takes the
given sign. -/
def ofScaled (zeroNegative : Bool) (whole : Int) (power : Int) : Double :=
  let negative := if whole == 0 then zeroNegative else decide (whole < 0)
  if power < 0 then ofQuotient negative whole.natAbs (twoTo (-power).toNat)
  else ofQuotient negative (whole.natAbs * twoTo power.toNat) 1

/-- A significand with its sign. -/
def signed (negative : Bool) (magnitude : Nat) : Int :=
  if negative then -(magnitude : Int) else magnitude

/-- The number with the opposite sign. -/
def negate : Double → Double
  | .finite negative place => .finite (!negative) place
  | .infinite negative => .infinite (!negative)
  | .notANumber => .notANumber

/-- The sum of two numbers. -/
def plus : Double → Double → Double
  | .finite n p, .finite m q =>
    let power := min (exponent p) (exponent q)
    let whole := signed n (significand p) * twoTo (exponent p - power).toNat +
      signed m (significand q) * twoTo (exponent q - power).toNat
    ofScaled (n && m) whole power
  | .infinite n, .infinite m => if n == m then .infinite n else .notANumber
  | .infinite n, .finite _ _ => .infinite n
  | .finite _ _, .infinite m => .infinite m
  | _, _ => .notANumber

/-- The product of two numbers. -/
def times : Double → Double → Double
  | .finite n p, .finite m q =>
    ofScaled (n != m) (signed (n != m) (significand p * significand q)) (exponent p + exponent q)
  | .infinite n, .infinite m => .infinite (n != m)
  | .infinite n, .finite m q => if q.val == 0 then .notANumber else .infinite (n != m)
  | .finite n p, .infinite m => if p.val == 0 then .notANumber else .infinite (n != m)
  | _, _ => .notANumber

end ScreenAtlas.Double
