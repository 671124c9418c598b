import Intcode.Document.Complaint

/-! A cursor in the text of a document, and the classes of characters that matter to its
layout. A text is looked at piece by piece, so what is wrong with a later piece shows only
when something there is looked at. -/

namespace Intcode.Document

def isBreak (c : Char) : Bool :=
  c = '\n' || c = '\r' || c = '\u0085' || c = '\u2028' || c = '\u2029'

def isGap : Option Char → Bool
  | none => true
  | some c => c = ' ' || c = '\t' || isBreak c

def endsLine : Option Char → Bool
  | none => true
  | some c => isBreak c

/-- The character may stand in a document at all. -/
def isAllowed (c : Char) : Bool :=
  let code := c.toNat
  c = '\t' || c = '\n' || c = '\r' || (0x20 ≤ code && code ≤ 0x7E) || code = 0x85 ||
    (0xA0 ≤ code && code ≤ 0xD7FF) || (0xE000 ≤ code && code ≤ 0xFFFD) || 0x10000 ≤ code

def isNameChar (c : Char) : Bool := c.isAlphanum || c = '-' || c = '_'

structure Cursor where
  rest : List Char
  index : Nat := 0
  line : Nat := 0
  column : Nat := 0
  /-- Why nothing behind the rest can be looked at, unless the text ends there. -/
  flaw : Option Error := none

namespace Cursor

def place (cursor : Cursor) : Place := ⟨cursor.line, cursor.column⟩

def step (cursor : Cursor) : Cursor :=
  match cursor.rest with
  | [] => cursor
  | c :: rest =>
    if isBreak c && !(c = '\r' && rest.head? = some '\n') then
      { cursor with rest, index := cursor.index + 1, line := cursor.line + 1, column := 0 }
    else
      { cursor with
        rest, index := cursor.index + 1
        column := if c = '\uFEFF' then cursor.column else cursor.column + 1 }

def skip : Nat → Cursor → Cursor
  | 0, cursor => cursor
  | count + 1, cursor => skip count cursor.step

end Cursor

abbrev Scan := StateT Cursor (Except Error)

namespace Scan

/-- Look at a number of characters, as far as the text goes. -/
def demand (count : Nat) : Scan Unit := do
  let cursor ← get
  if let some error := cursor.flaw then
    if count ≠ 0 && cursor.rest[count - 1]?.isNone then throw error

def peek (offset : Nat) : Scan (Option Char) := do
  match (← get).rest[offset]? with
  | some c => return some c
  | none =>
    demand (offset + 1)
    return none

def ahead (count : Nat) : Scan (List Char) := do
  demand count
  return (← get).rest.take count

/-- Move several characters on. The one after them is looked at as well. -/
def forward (count : Nat) : Scan Unit := do
  demand (count + 1)
  modify (·.skip count)

def runFrom (offset : Nat) (test : Char → Bool) : Scan (List Char) := do
  let run := ((← get).rest.drop offset).takeWhile test
  demand (offset + run.length + 1)
  return run

def runOf (test : Char → Bool) : Scan (List Char) := runFrom 0 test

def pass (test : Char → Bool) : Scan (List Char) := do
  let run ← runOf test
  forward run.length
  return run

/-- Take a line break, if there is one. All breaks are read as line feeds but
for the line and paragraph separators, which are kept. -/
def lineBreak : Scan (Option Char) := do
  match ← peek 0 with
  | none => return none
  | some c =>
    if c = '\u2028' || c = '\u2029' then
      forward 1
      return some c
    else if isBreak c then
      forward (if (← ahead 2) = ['\r', '\n'] then 2 else 1)
      return some '\n'
    else return none

def atMarker (mark : Char) : Scan Bool := do
  if (← ahead 3) = [mark, mark, mark] then return isGap (← peek 3) else return false

def atAnyMarker : Scan Bool := return (← atMarker '-') || (← atMarker '.')

def shown (offset : Nat) : Scan String :=
  return Text.quoted (String.singleton ((← peek offset).getD '\x00'))

def fail {α : Type} (context : Option String) (origin : Option Place) (problem : String) :
    Scan α := do
  throw (.complaint { stage := .scanning, context, origin, problem, place := (← get).place })

end Scan
end Intcode.Document
