import Intcode.Text.Blank
import Intcode.Text.Digit
import Intcode.Text.Quoted

/-! Whole numbers written by people: blanks around, one sign, digits of any
script, and single underscores between digits. -/

namespace Intcode.Text

inductive NumeralError where
  /-- The text, shown in quotes, does not have the form of a number in the base. -/
  | malformed (base : Nat) (shown : String)
  | tooLong (digits : Nat)
deriving DecidableEq, Repr

namespace Numeral

/-- The greatest number of decimal digits that is read or written, leading zeros
included. -/
def maxDigits : Nat := 4300

/-- The most characters of a malformed text that are shown, its quotes and
escapes included. -/
def shownLength : Nat := 200

/-- The blanks that may stand around a number in a text of basic characters. -/
def isSpace (c : Char) : Bool := c = ' ' || (0x09 ≤ c.toNat && c.toNat ≤ 0x0D)

/-- Replace the digits and blanks of other scripts by basic ones, and whatever
else is no basic character by one that no number holds. A text of basic characters
only is left alone, and so keeps the separating control characters, which stand
around no number. -/
def basic (codes : Codes) : List Char :=
  codes.map fun code =>
    if code < 0x7F then Char.ofNat code
    else if !decide code.isValidChar then '?'
    else if isBlank (Char.ofNat code) then ' '
    else match digitValue? (Char.ofNat code) with
      | some digit => Nat.digitChar digit
      | none => '?'

def digitOf? (c : Char) : Option Nat :=
  if c.isDigit then some (c.toNat - '0'.toNat)
  else if c.isLower then some (c.toNat - 'a'.toNat + 10)
  else if c.isUpper then some (c.toNat - 'A'.toNat + 10)
  else none

def isDigitOf (base : Nat) (c : Char) : Bool := (digitOf? c).any (· < base)

/-- The digits at the front of a text and what follows them. An underscore
belongs to them if a digit follows it. -/
def leadingDigits (base : Nat) : List Char → List Char × List Char
  | [] => ([], [])
  | c :: rest =>
    let (digits, after) := leadingDigits base rest
    if isDigitOf base c then (c :: digits, after)
    else if c = '_' && rest.head?.any (isDigitOf base) then (digits, after)
    else ([], c :: rest)

def valueIn (base : Nat) (digits : List Char) : Nat :=
  digits.foldl (fun value c => base * value + (digitOf? c).getD 0) 0

/-- The letter that marks a base in front of its digits. -/
def markOf? : Nat → Option Char
  | 2 => some 'b'
  | 8 => some 'o'
  | 16 => some 'x'
  | _ => none

/-- A text without the mark of its base. An underscore may follow the mark. -/
def unmarked (base : Nat) (text : List Char) : List Char :=
  match text with
  | '0' :: c :: rest =>
    if (markOf? base).any (· = c.toLower) then
      match rest with
      | '_' :: after => after
      | _ => rest
    else text
  | _ => text

/-- The whole number in a base that code points stand for. Underscores out of
place are found before the digits are counted, anything else out of place after.
Only decimal digits are counted: they alone are slow to read. -/
def readIn (base : Nat) (codes : Codes) : Except NumeralError Int :=
  let body := (basic codes).dropWhile isSpace
  let (negative, unsigned) :=
    match body with
    | '-' :: rest => (true, rest)
    | '+' :: rest => (false, rest)
    | _ => (false, body)
  let unsigned := unmarked base unsigned
  let (digits, after) := leadingDigits base unsigned
  let malformed : NumeralError := .malformed base (quotedCodes codes)
  if unsigned.head? = some '_' || after.head? = some '_' then .error malformed
  else if base = 10 && maxDigits < digits.length then .error (.tooLong digits.length)
  else if digits.isEmpty || !after.all isSpace then .error malformed
  else .ok (if negative then -(valueIn base digits : Int) else valueIn base digits)

def read (text : String) : Except NumeralError Int := readIn 10 (codesOf text)

/-- The whole number that bytes stand for. They are read like a text of basic
characters, and shown as bytes if they are none. -/
def readBytes (bytes : List UInt8) : Except NumeralError Int :=
  let codes := bytes.map fun byte => if byte.toNat < 0x80 then byte.toNat else '?'.toNat
  (readIn 10 codes).mapError fun
    | .malformed base _ => .malformed base (quotedBytes bytes)
    | .tooLong digits => .tooLong digits

/-- The number has more digits than are written. -/
def isTooLong (number : Int) : Bool := Nat.pow 10 maxDigits ≤ number.natAbs

def tooLongMessage : String :=
  "Exceeds the limit (" ++ toString maxDigits ++
    " digits) for integer string conversion; use sys.set_int_max_str_digits() to increase the limit"

end Numeral

def NumeralError.message : NumeralError → String
  | malformed base shown =>
    "invalid literal for int() with base " ++ toString base ++ ": " ++
      String.ofList (shown.toList.take Numeral.shownLength)
  | tooLong digits =>
    "Exceeds the limit (" ++ toString Numeral.maxDigits ++
      " digits) for integer string conversion: value has " ++ toString digits ++
      " digits; use sys.set_int_max_str_digits() to increase the limit"

end Intcode.Text
