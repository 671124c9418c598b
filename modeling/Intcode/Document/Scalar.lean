import Intcode.Document.Complaint
import Intcode.Document.Timestamp
import Intcode.Double.Reading
import Intcode.Text.Base64
import Intcode.Text.Lower
import Intcode.Value

/-! What the text of a scalar stands for once its type is known. The form of the
text has not been looked at by then if the type was given with it. -/

namespace Intcode.Document

def isChar (c : Char) (code : Nat) : Bool := code = c.toNat

def bare (codes : Text.Codes) : Text.Codes := codes.filter (!isChar '_' ·)

/-- The rest of a text after its sign, and whether that was a minus. There must be
something to look at. -/
def signed : Text.Codes → Except ScalarError (Bool × Text.Codes)
  | [] => .error .empty
  | code :: rest =>
    if isChar '-' code then .ok (true, rest)
    else if isChar '+' code then .ok (false, rest)
    else .ok (false, code :: rest)

def startsWith (codes : Text.Codes) (text : String) : Bool :=
  (Text.codesOf text).isPrefixOf codes

def inBase (base : Nat) (codes : Text.Codes) : Except ScalarError Int :=
  (Text.Numeral.readIn base codes).mapError .numeral

def sixties (codes : Text.Codes) : Except ScalarError Int := do
  let parts ← (Text.pieces ':'.toNat codes).mapM (inBase 10)
  return parts.foldl (fun total part => 60 * total + part) 0

/-- A whole number without a sign: in a base that its first characters tell, or in
parts that count sixties. -/
def unsigned (codes : Text.Codes) : Except ScalarError Int :=
  if startsWith codes "0b" then inBase 2 (codes.drop 2)
  else if startsWith codes "0x" then inBase 16 (codes.drop 2)
  else
    match codes with
    | [] => .error .empty
    | code :: _ =>
      if isChar '0' code then inBase 8 codes
      else if codes.contains ':'.toNat then sixties codes
      else inBase 10 codes

def whole (codes : Text.Codes) : Except ScalarError Int := do
  let (negative, rest) ← signed (bare codes)
  let size ← unsigned rest
  return if negative then -size else size

def fractionPart (codes : Text.Codes) : Except ScalarError Double :=
  match Double.read? codes with
  | some number => .ok number
  | none => .error (.fraction (Text.quotedCodes codes))

/-- The sum of parts that count sixties, from the last part on. `weight` is what
the next part counts. Every product and every sum is rounded. -/
def weighted (weight : Nat) (total : Double) : List Double → Except ScalarError Double
  | [] => .ok total
  | part :: rest =>
    let factor := Double.ofNat weight
    if factor.isFinite then weighted (60 * weight) (total.add (part.mul factor)) rest
    else .error .weight

def usualNaN : Text.Codes := Text.codesOf ".nan"

/-- The text is the usual name of the number that is none, perhaps with a sign. -/
def isUsualNaN (codes : Text.Codes) : Bool :=
  match signed (Text.lower (bare codes)) with
  | .ok (_, rest) => rest = usualNaN
  | .error _ => false

def fraction (codes : Text.Codes) : Except ScalarError Double := do
  let (negative, rest) ← signed (Text.lower (bare codes))
  let size ←
    if rest = Text.codesOf ".inf" then .ok (.infinity false)
    else if rest = usualNaN then .ok .nan
    else if rest.contains ':'.toNat then do
      weighted 1 (.finite false 0 0) (← (Text.pieces ':'.toNat rest).mapM fractionPart).reverse
    else fractionPart rest
  return if negative then size.negate else size

def truth (codes : Text.Codes) : Except ScalarError Bool :=
  let word := Text.lower codes
  if ["yes", "true", "on"].any (word = Text.codesOf ·) then .ok true
  else if ["no", "false", "off"].any (word = Text.codesOf ·) then .ok false
  else .error (.truth (Text.quotedCodes word))

def dayOrMoment (codes : Text.Codes) : Except ScalarError Value :=
  match (Text.stringOf? codes).bind fun text => Timestamp.ofText? text.toList with
  | none => .error .noMoment
  | some stamp => stamp.value.mapError .calendar

/-- The place of the first code point that is no basic character, and the run of
such code points from there on. -/
def foreignRun (codes : Text.Codes) : Nat × Text.Codes :=
  let before := codes.takeWhile (· < 0x80)
  (before.length, (codes.drop before.length).takeWhile (0x80 ≤ ·))

/-- The bytes that a text stands for, or the reason why it does for none. -/
def bytes (codes : Text.Codes) : Except String (List UInt8) :=
  match foreignRun codes with
  | (_, []) =>
    (Text.Base64.decode codes).mapError fun error =>
      "failed to decode base64 data: " ++ error.message
  | (start, code :: rest) =>
    let what :=
      if rest.isEmpty then
        "character \x27" ++ String.ofList (Text.escapedCode code) ++ "\x27 in position " ++
          toString start
      else "characters in position " ++ toString start ++ "-" ++ toString (start + rest.length)
    .error ("failed to convert base64 data into ascii: \x27ascii\x27 codec can\x27t encode " ++
      what ++ ": ordinal not in range(128)")

end Intcode.Document
