import Intcode.Double

/-! The decimal text of a number: the fewest digits that still round to it, and of
those the nearest to it. -/

namespace Intcode.Double

/-- Compare `digits` times ten to `place` with `amount` times two to `exponent`. -/
def compareDecimal (digits : Nat) (place : Int) (amount : Nat) (exponent : Int) : Ordering :=
  compare
    (digits * pow10 (max place 0).toNat * pow2 (max (-exponent) 0).toNat)
    (amount * pow2 (max exponent 0).toNat * pow10 (max (-place) 0).toNat)

/-- The decimal rounds to the number. The ends of the interval that does lie
half a unit away, below a power of two a quarter, and count as inside for an even
mantissa. -/
def roundsTo (mantissa : Nat) (exponent : Int) (digits : Nat) (place : Int) : Bool :=
  let below :=
    if mantissa = pow2 (precision - 1) && leastExponent < exponent then 4 * mantissa - 1
    else 4 * mantissa - 2
  let above := 4 * mantissa + 2
  let inside (ordering : Ordering) (wanted : Ordering) :=
    ordering = wanted || (ordering = .eq && mantissa % 2 = 0)
  inside (compareDecimal digits place below (exponent - 2)) .gt &&
    inside (compareDecimal digits place above (exponent - 2)) .lt

def stepsOf (mantissa : Nat) (exponent place : Int) : Nat :=
  (mantissa * pow2 (max exponent 0).toNat * pow10 (max (-place) 0).toNat) /
    (pow2 (max (-exponent) 0).toNat * pow10 (max place 0).toNat)

/-- The number lies nearer to the step above than to the step below, or midway
between them and the step below is odd. -/
def nearerAbove (mantissa : Nat) (exponent place : Int) (steps : Nat) : Bool :=
  match compareDecimal (2 * steps + 1) place (2 * mantissa) exponent with
  | .lt => true
  | .eq => steps % 2 = 1
  | .gt => false

/-- The digits on the grid of ten to `place` that round to the number, if any do. -/
def onGrid? (mantissa : Nat) (exponent place : Int) : Option Nat :=
  let steps := stepsOf mantissa exponent place
  match roundsTo mantissa exponent steps place, roundsTo mantissa exponent (steps + 1) place with
  | true, true => some (if nearerAbove mantissa exponent place steps then steps + 1 else steps)
  | true, false => some steps
  | false, true => some (steps + 1)
  | false, false => none

/-- The coarsest grid with a hit among `tries` grids, each ten times as fine as
the one before. -/
def coarsest (mantissa : Nat) (exponent : Int) : (tries : Nat) → (place : Int) → Nat × Int
  | 0, place => (stepsOf mantissa exponent place, place)
  | tries + 1, place =>
    match onGrid? mantissa exponent place with
    | some digits => (digits, place)
    | none => coarsest mantissa exponent tries (place - 1)

def topPlace (mantissa : Nat) (exponent : Int) : Int :=
  ((Nat.log2 mantissa + 1 : Nat) + exponent) * 30103 / 100000 + 1

def dropZeros : (fuel : Nat) → Nat × Int → Nat × Int
  | 0, decimal => decimal
  | fuel + 1, (digits, place) =>
    if digits ≠ 0 && digits % 10 = 0 then dropZeros fuel (digits / 10, place + 1)
    else (digits, place)

/-- The shortest decimal of a nonzero number: its digits and their last place. -/
def shortest (mantissa : Nat) (exponent : Int) : Nat × Int :=
  dropZeros 20 (coarsest mantissa exponent 20 (topPlace mantissa exponent))

structure DecimalStyle where
  /-- The least power of ten of a leading digit that is written positionally. -/
  leastPositional : Int
  /-- The least power of ten that no longer is. -/
  greatestPositional : Int
  /-- The least number of digits of a written power. -/
  powerDigits : Nat
  nan : String
  infinity : String

def plain : DecimalStyle := ⟨-4, 16, 2, "nan", "inf"⟩

def positional (digits : List Char) (lead : Int) : String :=
  if lead < 0 then
    "0." ++ String.ofList (List.replicate (-lead - 1).toNat '0' ++ digits)
  else
    let before := lead.toNat + 1
    let whole := digits.take before ++ List.replicate (before - digits.length) '0'
    let rest := digits.drop before
    String.ofList (whole ++ ['.'] ++ if rest.isEmpty then ['0'] else rest)

def scientific (style : DecimalStyle) (digits : List Char) (lead : Int) : String :=
  let fraction := if digits.length ≤ 1 then [] else '.' :: digits.drop 1
  let power := toString lead.natAbs
  String.ofList (digits.take 1 ++ fraction) ++ (if lead < 0 then "e-" else "e+") ++
    String.ofList (List.replicate (style.powerDigits - power.length) '0') ++ power

def text (style : DecimalStyle) : Double → String
  | nan => style.nan
  | infinity negative => (if negative then "-" else "") ++ style.infinity
  | finite negative 0 _ => if negative then "-0.0" else "0.0"
  | finite negative mantissa exponent =>
    let (number, place) := shortest mantissa exponent
    let digits := (toString number).toList
    let lead := place + digits.length - 1
    (if negative then "-" else "") ++
      if style.leastPositional ≤ lead && lead < style.greatestPositional then positional digits lead
      else scientific style digits lead

end Intcode.Double
