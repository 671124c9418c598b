import Intcode.Fault

/-! Texts that hold numbers. A passage is written as a whole or, because of a number that is
too long, not at all, and then nothing behind it is written either. -/

namespace Intcode

/-- A text and the numbers in it. -/
structure Passage where
  text : String
  numbers : List Int := []
deriving DecidableEq, Repr

namespace Passage

def isWritable (passage : Passage) : Bool := !passage.numbers.any Text.Numeral.isTooLong

def write (passage : Passage) : Except Fault String :=
  if passage.isWritable then .ok passage.text else .error .numberTooLong

/-- What is written of passages in a row. -/
def written (passages : List Passage) : String :=
  String.join ((passages.takeWhile isWritable).map text)

/-- How the writing of passages in a row ends. -/
def outcome (passages : List Passage) : Except Fault Unit :=
  if passages.all isWritable then .ok () else .error .numberTooLong

end Passage
end Intcode
