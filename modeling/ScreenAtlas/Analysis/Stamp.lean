import ScreenAtlas.Text.Quote

/-!
# Stamps

What tells one analysis from all others: an identifier made of random bytes, and the
time. Identifiers have the usual grouped form, with the version and the variant that
say that they are random. Times are given in the universal time zone.
-/
namespace ScreenAtlas.Analysis

/-- What tells one analysis from all others. -/
structure Stamp where
  id : String
  time : String
  deriving DecidableEq, Repr

/-- Two hexadecimal digits for each byte. -/
def hexText (bytes : List UInt8) : List Char :=
  bytes.flatMap fun byte => Text.hexadecimal 2 byte.toNat

/-- A random identifier from sixteen bytes. -/
def identifier (bytes : List UInt8) : String :=
  let marked := bytes.mapIdx fun index byte =>
    if index == 6 then (byte &&& 0x0F) ||| 0x40
    else if index == 8 then (byte &&& 0x3F) ||| 0x80
    else byte
  let part := fun (start count : Nat) => String.ofList (hexText ((marked.drop start).take count))
  "-".intercalate [part 0 4, part 4 2, part 6 2, part 8 2, part 10 6]

/-- A date of the usual calendar. -/
structure Date where
  year : Nat
  month : Nat
  day : Nat
  deriving DecidableEq, Repr

/-- The date some days after the first of January 1970. Days are counted from the
first of March of the year zero, so that a leap day is the last day of its year. -/
def Date.ofDays (days : Nat) : Date :=
  let shifted := days + 719468
  let era := shifted / 146097
  let dayOfEra := shifted % 146097
  let yearOfEra := (dayOfEra - dayOfEra / 1460 + dayOfEra / 36524 - dayOfEra / 146096) / 365
  let dayOfYear := dayOfEra - (365 * yearOfEra + yearOfEra / 4 - yearOfEra / 100)
  let shiftedMonth := (5 * dayOfYear + 2) / 153
  let month := if shiftedMonth < 10 then shiftedMonth + 3 else shiftedMonth - 9
  { year := yearOfEra + 400 * era + if month ≤ 2 then 1 else 0
    month
    day := dayOfYear - (153 * shiftedMonth + 2) / 5 + 1 }

/-- A number with leading zeros up to a width. -/
def padded (width n : Nat) : String :=
  let digits := Nat.toDigits 10 n
  String.ofList (List.replicate (width - digits.length) '0' ++ digits)

/-- The time some seconds and millionths of a second after the start of 1970. -/
def timeText (seconds micros : Nat) : String :=
  let date := Date.ofDays (seconds / 86400)
  let rest := seconds % 86400
  "-".intercalate [padded 4 date.year, padded 2 date.month, padded 2 date.day] ++ "T" ++
    ":".intercalate [padded 2 (rest / 3600), padded 2 (rest / 60 % 60), padded 2 (rest % 60)] ++
    (if micros == 0 then "" else "." ++ padded 6 micros) ++ "Z"

end ScreenAtlas.Analysis
