import Intcode.Double
import Intcode.Text.Numeral

/-! Fractions written by people: blanks around, one sign, digits of any script
around a point, and a power of ten. -/

namespace Intcode.Double

def ofWord? (negative : Bool) (word : List Char) : Option Double :=
  match String.ofList (word.map Char.toLower) with
  | "inf" | "infinity" => some (infinity negative)
  | "nan" => some nan
  | _ => none

def power? : List Char → Option Int
  | [] => some 0
  | mark :: rest =>
    let (negative, digits) :=
      match rest with
      | '-' :: digits => (true, digits)
      | '+' :: digits => (false, digits)
      | digits => (false, digits)
    if mark.toLower = 'e' && !digits.isEmpty && digits.all Char.isDigit then
      let size : Int := Text.Numeral.valueIn 10 digits
      some (if negative then -size else size)
    else none

/-- The fraction that digits around a point, with a power after them, stand for. -/
def ofDigits? (negative : Bool) (text : List Char) : Option Double :=
  let before := text.takeWhile Char.isDigit
  let (after, rest) :=
    match text.dropWhile Char.isDigit with
    | '.' :: rest => (rest.takeWhile Char.isDigit, rest.dropWhile Char.isDigit)
    | rest => ([], rest)
  if before.isEmpty && after.isEmpty then none
  else
    (power? rest).map fun power =>
      ofDecimal negative (Text.Numeral.valueIn 10 (before ++ after)) (power - after.length)

def read? (codes : Text.Codes) : Option Double :=
  let body := (Text.Numeral.basic codes).dropWhile Text.Numeral.isSpace
  let body := (body.reverse.dropWhile Text.Numeral.isSpace).reverse
  let (negative, unsigned) :=
    match body with
    | '-' :: rest => (true, rest)
    | '+' :: rest => (false, rest)
    | _ => (false, body)
  (ofDigits? negative unsigned).orElse fun _ => ofWord? negative unsigned

end Intcode.Double
