/-! Floating-point numbers of 53 bits, kept exactly: a number is a whole multiple
of a power of two. Every operation is done on whole numbers and rounded once, to
the nearest number, a tie to the even mantissa. -/

namespace Intcode

/-- A floating-point number. A finite one is its mantissa times two to its
exponent; `Double.ofRatio` makes the mantissa as large as 53 bits allow, so that
equal numbers are the same value. -/
inductive Double where
  | nan
  | infinity (negative : Bool)
  | finite (negative : Bool) (mantissa : Nat) (exponent : Int)
deriving DecidableEq, Repr

namespace Double

def pow2 (power : Nat) : Nat := Nat.pow 2 power

def pow10 (power : Nat) : Nat := Nat.pow 10 power

def precision : Nat := 53

def leastExponent : Int := -1074

def greatestExponent : Int := 971

/-- A ratio rounded to the nearest whole number, a tie to the even one. -/
def roundRatio (numerator denominator : Nat) : Nat :=
  let quotient := numerator / denominator
  let twice := 2 * (numerator % denominator)
  if denominator < twice || (denominator = twice && quotient % 2 = 1) then quotient + 1
  else quotient

def scaled (numerator denominator : Nat) (exponent : Int) : Nat × Nat :=
  if exponent < 0 then (numerator * pow2 exponent.natAbs, denominator)
  else (numerator, denominator * pow2 exponent.natAbs)

/-- The exponent at which the whole part of a ratio has 53 bits, but no less
than the least one. -/
def exponentOf (numerator denominator : Nat) : Int :=
  let guess : Int := Nat.log2 numerator - Nat.log2 denominator - precision
  let (n, d) := scaled numerator denominator guess
  max leastExponent (if pow2 precision ≤ n / d then guess + 1 else guess)

def ofRatio (negative : Bool) (numerator denominator : Nat) : Double :=
  if numerator = 0 then finite negative 0 0
  else
    let exponent := exponentOf numerator denominator
    let (n, d) := scaled numerator denominator exponent
    let mantissa := roundRatio n d
    let (mantissa, exponent) :=
      if mantissa = pow2 precision then (pow2 (precision - 1), exponent + 1)
      else (mantissa, exponent)
    if mantissa = 0 then finite negative 0 0
    else if greatestExponent < exponent then infinity negative
    else finite negative mantissa exponent

/-- The number nearest to `digits` times ten to `exponent`. Where the exponent
alone puts the number beyond the range, no power of ten is computed. -/
def ofDecimal (negative : Bool) (digits : Nat) (exponent : Int) : Double :=
  if digits = 0 then finite negative 0 0
  else if 400 < exponent then infinity negative
  else if exponent + Nat.log2 digits < -1200 then finite negative 0 0
  else if exponent < 0 then ofRatio negative digits (pow10 exponent.natAbs)
  else ofRatio negative (digits * pow10 exponent.natAbs) 1

def truncated (negative : Bool) (mantissa : Nat) (exponent : Int) : Int :=
  let magnitude :=
    if exponent < 0 then mantissa / pow2 exponent.natAbs else mantissa * pow2 exponent.natAbs
  if negative then -magnitude else magnitude

def isZero : Double → Bool
  | finite _ mantissa _ => mantissa = 0
  | _ => false

def units (least : Int) (negative : Bool) (mantissa : Nat) (exponent : Int) : Int :=
  let magnitude : Int := mantissa * pow2 (exponent - least).natAbs
  if negative then -magnitude else magnitude

def ofUnits (least : Int) (amount : Int) : Double :=
  let (n, d) := scaled amount.natAbs 1 (-least)
  ofRatio (amount < 0) n d

def add : Double → Double → Double
  | nan, _ | _, nan => nan
  | infinity a, infinity b => if a = b then infinity a else nan
  | infinity a, _ | _, infinity a => infinity a
  | finite a m p, finite b n q =>
    let least := min p q
    ofUnits least (units least a m p + units least b n q)

def mul : Double → Double → Double
  | nan, _ | _, nan => nan
  | infinity a, infinity b => infinity (a != b)
  | infinity a, finite b m _ | finite b m _, infinity a => if m = 0 then nan else infinity (a != b)
  | finite a m p, finite b n q =>
    let (numerator, denominator) := scaled (m * n) 1 (-(p + q))
    ofRatio (a != b) numerator denominator

def ofNat (number : Nat) : Double := ofRatio false number 1

def negate : Double → Double
  | finite negative mantissa exponent => finite (!negative) mantissa exponent
  | infinity negative => infinity (!negative)
  | nan => nan

def isFinite : Double → Bool
  | finite .. => true
  | _ => false

/-- The whole number that a number equals, if there is one. -/
def whole? : Double → Option Int
  | finite negative mantissa exponent =>
    if exponent < 0 && mantissa % pow2 exponent.natAbs ≠ 0 then none
    else some (truncated negative mantissa exponent)
  | _ => none

end Double
end Intcode
