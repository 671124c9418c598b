import Intcode.Value

/-! The written form of days and moments: numbers of a fixed number of digits with
their separators, and a zone after the time. -/

namespace Intcode.Document

/-- The numbers of a time of day as they are written. -/
structure Clock where
  hour : Nat
  minute : Nat
  second : Nat
  fraction : List Char
  ahead : Option Int
deriving DecidableEq, Repr

/-- The numbers of a day or a moment as they are written. -/
structure Timestamp where
  year : Nat
  month : Nat
  day : Nat
  clock : Option Clock
deriving DecidableEq, Repr

namespace Timestamp

abbrev Reading := StateT (List Char) Option

def number (least most : Nat) : Reading Nat := fun text =>
  let digits := (text.take most).takeWhile Char.isDigit
  if digits.length < least then none
  else some (Text.Numeral.valueIn 10 digits, text.drop digits.length)

def mark (allowed : List Char) : Reading Char
  | c :: rest => if allowed.contains c then some (c, rest) else none
  | [] => none

def blanks : Reading Unit := fun text =>
  some ((), text.dropWhile fun c => c = ' ' || c = '\t')

def optional {α : Type} (part : Reading α) : Reading (Option α) := fun text =>
  match part text with
  | some (meaning, rest) => some (some meaning, rest)
  | none => some (none, text)

/-- The gap between a day and a time: a letter or blanks. -/
def gap : Reading Unit := do
  if (← mark ['T', 't', ' ', '\t']).isWhitespace then blanks

/-- A zone: a letter, or hours and perhaps minutes with a sign. -/
def zone : Reading Int := do
  blanks
  let sign ← mark ['Z', '+', '-']
  if sign = 'Z' then return 0
  let hours ← number 1 2
  let minutes ← optional do discard (mark [':']); number 2 2
  let size : Int := 60 * hours + minutes.getD 0
  return if sign = '-' then -size else size

def fraction : Reading (List Char) := do
  discard (mark ['.'])
  fun text => some (text.takeWhile Char.isDigit, text.dropWhile Char.isDigit)

def time : Reading Clock := do
  gap
  let hour ← number 1 2
  discard (mark [':'])
  let minute ← number 2 2
  discard (mark [':'])
  let second ← number 2 2
  let fraction := (← optional fraction).getD []
  let ahead ← optional zone
  return { hour, minute, second, fraction, ahead }

def stamp : Reading Timestamp := do
  let year ← number 4 4
  discard (mark ['-'])
  let month ← number 1 2
  discard (mark ['-'])
  let day ← number 1 2
  return { year, month, day, clock := ← optional time }

def ofText? (text : List Char) : Option Timestamp :=
  match stamp text with
  | some (found, []) | some (found, ['\n']) => some found
  | _ => none

def fullLength : Nat := 10

/-- The text is told to be a day or a moment by its form alone. A day without a time
has all its digits. -/
def isTimestamp (text : List Char) : Bool :=
  match ofText? text with
  | none => false
  | some found =>
    found.clock.isSome || (text.filter (· ≠ '\n')).length = fullLength

def microseconds (digits : List Char) : Nat :=
  let digits := digits.take 6
  Text.Numeral.valueIn 10 (digits ++ List.replicate (6 - digits.length) '0')

/-- The day or the moment that a written form stands for. -/
def value (stamp : Timestamp) : Except CalendarError Value :=
  match stamp.clock with
  | none => Value.day <$> Day.make stamp.year stamp.month stamp.day
  | some clock =>
    Value.moment <$>
      Moment.make stamp.year stamp.month stamp.day clock.hour clock.minute clock.second
        (microseconds clock.fraction) clock.ahead

end Timestamp
end Intcode.Document
