import Intcode.Document.Cursor
import Intcode.Document.Token

/-! The text of scalars. A plain or quoted scalar that runs over several lines is
folded: a single break becomes a space, further breaks stay. A block scalar
keeps its lines. -/

namespace Intcode.Document
open Scan (peek ahead forward demand pass lineBreak atAnyMarker shown)

/-- What the breaks after a line turn into: `first` is the break that ended the
line, `others` are those of the empty lines that follow. -/
def folded (first : Char) (others : List Char) : List Char :=
  if first ≠ '\n' then first :: others
  else if others.isEmpty then [' ']
  else others

namespace Plain

/-- The number of characters up to where a plain scalar breaks off: at a gap, at
a colon before a gap, and among brackets also at the marks used there. -/
def length (inFlow : Bool) : List Char → Nat
  | [] => 0
  | c :: rest =>
    if isGap (some c) then 0
    else if c = ':' &&
        (isGap rest.head? || (inFlow && rest.head?.any (",[]\x7b\x7d".toList.contains ·))) then 0
    else if inFlow && ",?[]\x7b\x7d".toList.contains c then 0
    else length inFlow rest + 1

def piece (inFlow : Bool) : Scan (List Char) := do
  if (← peek 0) = some '#' then return []
  let count := length inFlow (← get).rest
  if (← peek count) = some ':' then demand (count + 2)
  let text ← ahead count
  if count ≠ 0 then forward count
  return text

def breaks : (fuel : Nat) → (before : List Char) → Scan (Option (List Char))
  | 0, before => return some before.reverse
  | fuel + 1, before => do
    if (← peek 0) = some ' ' then
      forward 1
      breaks fuel before
    else
      match ← lineBreak with
      | none => return some before.reverse
      | some c => if ← atAnyMarker then return none else breaks fuel (c :: before)

/-- The gap after a piece of a plain scalar: the characters it contributes, and
whether it went over a line. No characters mean that the scalar ends here. -/
def gap (fuel : Nat) : Scan (List Char × Bool) := do
  let spaces ← pass (· = ' ')
  match ← lineBreak with
  | none => return (spaces, false)
  | some first =>
    if ← atAnyMarker then return ([], true)
    match ← breaks fuel [] with
    | none => return ([], true)
    | some others => return (folded first others, true)

/-- The pieces of a plain scalar from the cursor on. What came before is in `before`, the
last character first, and the gap after that is in `between`. The answer tells whether the
last gap went over a line. -/
def pieces (inFlow : Bool) (indent : Int) :
    (fuel : Nat) → (before between : List Char) → (crossed : Bool) → Scan (List Char × Bool)
  | 0, before, _, crossed => return (before.reverse, crossed)
  | fuel + 1, before, between, crossed => do
    let text ← piece inFlow
    if text.isEmpty then return (before.reverse, crossed)
    let before := text.reverseAux (between.reverseAux before)
    let (space, crossed) ← gap fuel
    if space.isEmpty || (← peek 0) = some '#' || (!inFlow && ((← get).column : Int) < indent) then
      return (before.reverse, crossed)
    pieces inFlow indent fuel before space crossed

end Plain

namespace Quoted

def simpleEscape? (c : Char) : Option Char :=
  match c with
  | '0' => some '\x00'
  | 'a' => some '\x07'
  | 'b' => some '\x08'
  | 't' | '\t' => some '\t'
  | 'n' => some '\n'
  | 'v' => some '\x0b'
  | 'f' => some '\x0c'
  | 'r' => some '\r'
  | 'e' => some '\x1b'
  | ' ' => some ' '
  | '"' => some '"'
  | '\\' => some '\\'
  | '/' => some '/'
  | 'N' => some '\u0085'
  | '_' => some '\u00a0'
  | 'L' => some '\u2028'
  | 'P' => some '\u2029'
  | _ => none

def codeLength? (c : Char) : Option Nat :=
  match c with
  | 'x' => some 2
  | 'u' => some 4
  | 'U' => some 8
  | _ => none

def isHex (c : Char) : Bool := Text.Numeral.isDigitOf 16 c

def fail {α : Type} (origin : Place) (problem : String) : Scan α :=
  Scan.fail (some "while scanning a quoted scalar") (some origin) problem

def failEscape {α : Type} (origin : Place) (problem : String) : Scan α :=
  Scan.fail (some "while scanning a double-quoted scalar") (some origin) problem

def isBlank (c : Char) : Bool := c = ' ' || c = '\t'

/-- The breaks of the empty lines at the cursor, whose blanks are dropped, after those in
`before`, the last of which comes first. A document marker must not stand at the beginning
of a line. -/
def breaks (origin : Place) : (fuel : Nat) → (before : List Char) → Scan (List Char)
  | 0, before => return before.reverse
  | fuel + 1, before => do
    if ← atAnyMarker then fail origin "found unexpected document separator"
    discard (pass isBlank)
    match ← lineBreak with
    | none => return before.reverse
    | some c => breaks origin fuel (c :: before)

def gap (origin : Place) (fuel : Nat) : Scan (List Char) := do
  let blanks ← pass isBlank
  if (← peek 0).isNone then fail origin "found unexpected end of stream"
  match ← lineBreak with
  | none => return blanks
  | some first => return folded first (← breaks origin fuel [])

def greatestNumber : Nat := 0x7FFFFFFF

def greatestCode : Nat := 0x10FFFF

def hexDigits (count : Nat) : Scan (Except Nat (List Char)) := do
  let digits := ((← get).rest.take count).takeWhile isHex
  if digits.length < count then
    demand (digits.length + 1)
    return .error digits.length
  else
    return .ok digits

def named (origin : Place) (count : Nat) : Scan Nat := do
  match ← hexDigits count with
  | .error offset =>
    failEscape origin
      ("expected escape sequence of " ++ toString count ++ " hexadecimal numbers, but found " ++
        (← shown offset))
  | .ok digits =>
    let code := Text.Numeral.valueIn 16 digits
    if greatestNumber < code then throw (.scalar .hugeCode)
    if greatestCode < code then throw (.scalar .code)
    forward count
    return code

/-- The contribution of the escape whose backslash stands before the cursor. -/
def escape (origin : Place) (fuel : Nat) : Scan Text.Codes := do
  let c := (← peek 0).getD '\x00'
  match simpleEscape? c, codeLength? c with
  | some meant, _ =>
    forward 1
    return [meant.toNat]
  | none, some count =>
    forward 1
    return [← named origin count]
  | none, none =>
    match ← lineBreak with
    | none => failEscape origin ("found unknown escape character " ++ (← shown 0))
    | some _ => return (← breaks origin fuel []).map Char.toNat

/-- The contents up to the closing quote, which is passed. `before` holds what came before,
the last first. -/
def contents (origin : Place) (double : Bool) : (fuel : Nat) → (before : Text.Codes) →
    Scan Text.Codes
  | 0, _ => fail origin "found unexpected end of stream"
  | fuel + 1, before => do
    match ← peek 0 with
    | none => fail origin "found unexpected end of stream"
    | some c =>
      if c = (if double then '"' else '\'') then
        if !double && (← peek 1) = some '\'' then
          forward 2
          contents origin double fuel (c.toNat :: before)
        else
          forward 1
          return before.reverse
      else if double && c = '\\' then
        forward 1
        let meant ← escape origin fuel
        contents origin double fuel (meant.reverseAux before)
      else if isGap (some c) then
        let space ← gap origin fuel
        contents origin double fuel ((space.map Char.toNat).reverseAux before)
      else
        modify Cursor.step
        contents origin double fuel (c.toNat :: before)

end Quoted

namespace Block

/-- What becomes of the breaks at the end of a block scalar. -/
inductive Chomping where
  | strip
  | clip
  | keep
deriving DecidableEq, Repr

def fail {α : Type} (origin : Place) (problem : String) : Scan α :=
  Scan.fail (some "while scanning a block scalar") (some origin) problem

/-- What a mark says becomes of the breaks at the end. The mark is passed. -/
def chomping? : Scan (Option Chomping) := do
  match ← peek 0 with
  | some '+' =>
    forward 1
    return some .keep
  | some '-' =>
    forward 1
    return some .strip
  | _ => return none

def increment (origin : Place) : Scan (Option Nat) := do
  match (← peek 0).filter Char.isDigit with
  | none => return none
  | some '0' =>
    fail origin "expected indentation indicator in the range 1-9, but found 0"
  | some c =>
    forward 1
    return some (c.toNat - '0'.toNat)

/-- The header of a block scalar: chomping and indentation, in either order. -/
def header (origin : Place) : Scan (Chomping × Option Nat) := do
  let first ← chomping?
  let digit ← increment origin
  let second ← if first.isNone && digit.isSome then chomping? else pure none
  let next ← peek 0
  if !isGap next || next = some '\t' then
    fail origin ("expected chomping or indentation indicators, but found " ++ (← shown 0))
  return ((first.orElse fun _ => second).getD .clip, digit)

def nextLine (origin : Place) : Scan Unit := do
  discard (pass (· = ' '))
  if (← peek 0) = some '#' then discard (pass (!isBreak ·))
  if !endsLine (← peek 0) then
    fail origin ("expected a comment or a line break, but found " ++ (← shown 0))
  discard lineBreak

/-- The breaks of the empty lines at the cursor, after those in `before`, the last of which
comes first, and the widest indentation met. -/
def leading : (fuel : Nat) → (widest : Nat) → (before : List Char) → Scan (List Char × Nat)
  | 0, widest, before => return (before.reverse, widest)
  | fuel + 1, widest, before => do
    let spaces ← pass (· = ' ')
    let column := (← get).column
    let widest := if spaces.isEmpty then widest else max widest column
    match ← lineBreak with
    | none => return (before.reverse, widest)
    | some c => leading fuel widest (c :: before)

def unindent (indent : Nat) : Scan Unit := do
  let cursor ← get
  let count := ((cursor.rest.take (indent - cursor.column)).takeWhile (· = ' ')).length
  if count ≠ 0 then forward count

/-- The breaks of the empty lines at the cursor in a block of known indentation, after
those in `before`, the last of which comes first. -/
def breaks (indent : Nat) : (fuel : Nat) → (before : List Char) → Scan (List Char)
  | 0, before => return before.reverse
  | fuel + 1, before => do
    unindent indent
    match ← lineBreak with
    | none => return before.reverse
    | some c => breaks indent fuel (c :: before)

structure Lines where
  /-- The characters, the last first. -/
  before : List Char
  /-- The break that ended the last line. -/
  last : Option Char
  /-- The breaks of the empty lines after it. -/
  trailing : List Char

/-- The lines of a block scalar from the cursor on. `before` holds the characters that came
before, the last first, and `empty` the breaks of the empty lines before the cursor. -/
def lines (folding : Bool) (indent : Nat) :
    (fuel : Nat) → (before empty : List Char) → Scan Lines
  | 0, before, empty => return ⟨before, none, empty⟩
  | fuel + 1, before, empty => do
    if (← get).column ≠ indent then return ⟨before, none, empty⟩
    let first ← peek 0
    if first.isNone then return ⟨before, none, empty⟩
    let isText (c : Option Char) : Bool := c ≠ some ' ' && c ≠ some '\t'
    let line ← pass (!isBreak ·)
    let before := line.reverseAux (empty.reverseAux before)
    let last ← lineBreak
    let empty ← breaks indent fuel []
    if (← get).column ≠ indent then return ⟨before, last, empty⟩
    let next ← peek 0
    if next.isNone then return ⟨before, last, empty⟩
    let joint :=
      if folding && last = some '\n' && isText first && isText next then
        if empty.isEmpty then [' '] else []
      else last.toList
    lines folding indent fuel (joint ++ before) empty

/-- The text of a block scalar, whose mark stands before the cursor. -/
def text (origin : Place) (folding : Bool) (parent : Int) (fuel : Nat) : Scan (List Char) := do
  let (chomping, increment) ← header origin
  nextLine origin
  let least := max (parent + 1) 1
  let (empty, indent) ←
    match increment with
    | none => do
      let (empty, widest) ← leading fuel 0 []
      pure (empty, (max least widest).toNat)
    | some increment => do
      let indent := (least + increment - 1).toNat
      pure (← breaks indent fuel [], indent)
  let lines ← lines folding indent fuel [] empty
  let ending :=
    match chomping with
    | .strip => []
    | .clip => lines.last.toList
    | .keep => lines.last.toList ++ lines.trailing
  return lines.before.reverse ++ ending

end Block
end Intcode.Document
