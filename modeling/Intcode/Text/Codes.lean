/-! Texts as their code points. An escape in a document can name one half of a
surrogate pair, which no character stands for, so a text from a document is first
of all a list of numbers. -/

namespace Intcode.Text

abbrev Codes := List Nat

def codesOf (text : String) : Codes := text.toList.map Char.toNat

/-- The string that code points make, if every one of them is a character. -/
def stringOf? (codes : Codes) : Option String :=
  if codes.all fun code => decide code.isValidChar then some (.ofList (codes.map Char.ofNat))
  else none

/-- The string that code points make, with a replacement for what is no character. -/
def approximate (codes : Codes) : String :=
  .ofList (codes.map fun code => if code.isValidChar then Char.ofNat code else '\uFFFD')

end Intcode.Text
