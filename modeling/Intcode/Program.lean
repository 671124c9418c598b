import Intcode.Session
import Intcode.Text.Blank
import Intcode.Text.Quoted

/-! Programs and their text: words in decimal, separated by commas, with blanks
allowed around every word. -/

namespace Intcode

/-- A word sequence from which machines are loaded. -/
structure Program where
  words : List Int
deriving DecidableEq, Repr

/-- A piece of program text that is not a word, and the text it stands in. -/
structure InvalidWord where
  token : String
  text : String
deriving DecidableEq, Repr

def InvalidWord.message (error : InvalidWord) : String :=
  "invalid word " ++ Text.quoted error.token ++ " in program " ++ Text.quoted error.text

namespace Program

/-- A word has no more digits than this, leading zeros included. -/
def maxDigits : Nat := 4300

def digitsValue (value : Nat) : List Char → Nat
  | [] => value
  | c :: rest => digitsValue (10 * value + (c.toNat - '0'.toNat)) rest

def natural? (digits : List Char) : Option Nat :=
  if !digits.isEmpty && digits.all Char.isDigit && digits.length ≤ maxDigits then
    some (digitsValue 0 digits)
  else none

def word? (token : List Char) : Option Int :=
  let value : Option Int :=
    match token with
    | '-' :: digits => (natural? digits).map fun magnitude => -(magnitude : Int)
    | digits => (natural? digits).map Int.ofNat
  value.filter fun word => decide (Word.InRange word)

def tokens (text : String) : List String :=
  (Text.pieces ',' (Text.trim text.toList)).map fun piece => .ofList (Text.trim piece)

/-- Read every token as a word; the first that is none is the error. -/
def wordsOf (text : String) : List String → Except InvalidWord (List Int)
  | [] => .ok []
  | token :: rest =>
    match word? token.toList with
    | none => .error ⟨token, text⟩
    | some word => (word :: ·) <$> wordsOf text rest

def parse (text : String) : Except InvalidWord Program :=
  Program.mk <$> wordsOf text (tokens text)

def size (program : Program) : Nat := program.words.length

def summary (program : Program) : String := "Program(" ++ toString program.size ++ " words)"

def start (program : Program) (trace : Bool) (stepLimit : Option Int) : Session :=
  .load program.words trace stepLimit

end Program
end Intcode
