import Intcode.Double.Shortest
import Intcode.Value

/-! The text that shows a value. A whole number with too many digits is not written
out, and no value that holds one has a text. -/

namespace Intcode.Value

/-- A whole number in digits, unless they are too many. -/
def digits? (number : Int) : Option String :=
  if Text.Numeral.isTooLong number then none else some (toString number)

def bracketed (opening closing : String) (texts : List String) : String :=
  opening ++ ", ".intercalate texts ++ closing

mutual

def literal? : Value → Option String
  | null => some "None"
  | bool value => some (if value then "True" else "False")
  | int value => digits? value
  | float value => some (value.text Double.plain)
  | text value => some (Text.quoted value)
  | broken codes => some (Text.quotedCodes codes)
  | bytes value => some (Text.quotedBytes value)
  | day value => some value.literal
  | moment value => some value.literal
  | list items => (literals? items).map (bracketed "[" "]")
  | pair left right => do
    let first ← literal? left
    let second ← literal? right
    return bracketed "(" ")" [first, second]
  | mapping entries => (entryLiterals? entries).map (bracketed "\x7b" "\x7d")
  | set [] => some "set()"
  | set items => (literals? items).map (bracketed "\x7b" "\x7d")
  | recurrence isMapping => some (if isMapping then "\x7b...\x7d" else "[...]")

def literals? : List Value → Option (List String)
  | [] => some []
  | item :: rest => do
    let first ← literal? item
    let others ← literals? rest
    return first :: others

def entryLiterals? : List (Value × Value) → Option (List String)
  | [] => some []
  | (key, value) :: rest => do
    let name ← literal? key
    let content ← literal? value
    let others ← entryLiterals? rest
    return (name ++ ": " ++ content) :: others

end

def display? : Value → Option String
  | text value => some value
  | broken codes => some (Text.approximate codes)
  | day value => some value.text
  | moment value => some value.text
  | value => value.literal?

end Intcode.Value
