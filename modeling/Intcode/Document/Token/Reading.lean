import Intcode.Document.Token.Scalar
import Intcode.Text.Utf8

/-! Reading the tokens of a document. A key is recognised only when the colon
after it comes, so every place where a key may begin is remembered until then, and
the token found there is not to be had before. -/

namespace Intcode.Document
open Scan (peek ahead forward runOf runFrom pass lineBreak atMarker shown)

/-- A place where a key may have begun. -/
structure KeyStart where
  /-- The number of tokens before it. -/
  position : Nat
  /-- It stands at the indentation of a block, so nothing but a key can be meant. -/
  required : Bool
  index : Nat
  place : Place

structure Reader where
  cursor : Cursor
  lexemes : Array Lexeme := #[]
  /-- The column of the innermost open block, -1 outside of all. -/
  indent : Int := -1
  /-- The columns of the blocks around it. -/
  indents : List Int := []
  /-- A key may begin here. -/
  keyAllowed : Bool := true
  /-- The place where a key may have begun, outside of all brackets. -/
  keyStart : Option KeyStart := none
  /-- The same for the surroundings of every open bracket, the innermost first. -/
  outerKeyStarts : List (Option KeyStart) := []

/-- The tokens of a text. If reading them failed, only those are there that were to
be had before. -/
structure Lexemes where
  found : List Lexeme
  failure : Option Error

abbrev Reading := StateT Reader (Except Error)

namespace Reading

/-- A key may not be further away from its colon than this. -/
def maxKeyLength : Nat := 1024

def inFlow : Reading Bool := return !(← get).outerKeyStarts.isEmpty

def place : Reading Place := return (← get).cursor.place

def column : Reading Nat := return (← get).cursor.column

def scan {α : Type} (part : Scan α) : Reading α := fun reader => do
  let (found, cursor) ← part reader.cursor
  return (found, { reader with cursor })

def fail {α : Type} (problem : String) : Reading α := scan (Scan.fail none none problem)

/-- Add a token that began at a place and ends here. -/
def pushFrom (start : Place) (token : Token) : Reading Unit :=
  modify fun reader =>
    { reader with lexemes := reader.lexemes.push ⟨token, start, reader.cursor.place⟩ }

def push (token : Token) : Reading Unit := do pushFrom (← place) token

def take (token : Token) (count : Nat) : Reading Unit := do
  let start ← place
  scan (forward count)
  pushFrom start token

def allowKey (keyAllowed : Bool) : Reading Unit := modify ({ · with keyAllowed })

def closeBlocks (column : Int) : (indents : List Int) → Reader → Reader
  | [], reader => reader
  | outer :: others, reader =>
    if column < reader.indent then
      let place := reader.cursor.place
      closeBlocks column others
        { reader with
          lexemes := reader.lexemes.push ⟨.blockEnd, place, place⟩
          indent := outer, indents := others }
    else reader

/-- Close the blocks that are indented further than a column. Brackets suspend
indentation. -/
def unwind (column : Int) : Reading Unit := do
  if !(← inFlow) then modify fun reader => closeBlocks column reader.indents reader

/-- Begin a block at a column if it is indented further than the current one.
The answer tells whether it was. -/
def openBlock (column : Nat) : Reading Bool := do
  let reader ← get
  if reader.indent < column then
    set { reader with indent := column, indents := reader.indent :: reader.indents }
    return true
  return false

def failKey {α : Type} (start : KeyStart) : Reading α :=
  scan (Scan.fail (some "while scanning a simple key") (some start.place)
    "could not find expected \x27:\x27")

/-- The key start is out of reach: a key lies on one line and is not too long. -/
def isStale (start : KeyStart) (cursor : Cursor) : Bool :=
  start.place.line ≠ cursor.line || maxKeyLength < cursor.index - start.index

def dropStale (start : Option KeyStart) : Reading (Option KeyStart) := do
  match start with
  | none => return none
  | some found =>
    if isStale found (← get).cursor then
      if found.required then failKey found else return none
    else return start

def forgetStale : Reading Unit := do
  let keyStart ← dropStale (← get).keyStart
  let outerKeyStarts ← (← get).outerKeyStarts.mapM dropStale
  modify ({ · with keyStart, outerKeyStarts })

def forgetKey : Reading Unit := do
  if let some start := (← get).keyStart then
    if start.required then failKey start
    modify ({ · with keyStart := none })

def markKey : Reading Unit := do
  if (← get).keyAllowed then
    forgetKey
    let inFlow ← inFlow
    modify fun reader =>
      let cursor := reader.cursor
      { reader with
        keyStart := some {
          position := reader.lexemes.size
          required := !inFlow && reader.indent = cursor.column
          index := cursor.index, place := cursor.place } }

/-- Move past spaces, comments and line breaks. A new line outside of brackets is
a place where a key may begin. -/
def skipBlank : (fuel : Nat) → Reading Unit
  | 0 => return ()
  | fuel + 1 => do
    discard (scan (pass (· = ' ')))
    if (← scan (peek 0)) = some '#' then discard (scan (pass (!isBreak ·)))
    if (← scan lineBreak).isSome then
      if !(← inFlow) then allowKey true
      skipBlank fuel

def finish : Reading Unit := do
  unwind (-1)
  forgetKey
  push .finish

def marker (token : Token) : Reading Unit := do
  unwind (-1)
  forgetKey
  allowKey false
  take token 3

def failIn {α : Type} (what : String) (origin : Place) (problem : String) : Scan α :=
  Scan.fail (some ("while scanning " ++ what)) (some origin) problem

def failAt {α : Type} (what : String) (origin : Place) (wanted : String) : Scan α := do
  failIn what origin ("expected " ++ wanted ++ ", but found " ++ (← shown 0))

def atEnd : Scan Bool := do
  let next ← peek 0
  return isGap next && next ≠ some '\t'

def nameWanted : String := "alphabetic or numeric character"

def directiveName (origin : Place) : Scan String := do
  let name ← runOf isNameChar
  if name.isEmpty then failAt "a directive" origin nameWanted
  forward name.length
  if !(← atEnd) then failAt "a directive" origin nameWanted
  return String.ofList name

def versionNumber (origin : Place) : Scan Nat := do
  let digits ← runOf Char.isDigit
  if digits.isEmpty then failAt "a directive" origin "a digit"
  match Text.Numeral.readIn 10 (digits.map Char.toNat) with
  | .error error => throw (.scalar (.numeral error))
  | .ok number =>
    forward digits.length
    return number.toNat

def version (origin : Place) : Scan Token := do
  discard (pass (· = ' '))
  let major ← versionNumber origin
  if (← peek 0) ≠ some '.' then failAt "a directive" origin "a digit or \x27.\x27"
  forward 1
  let minor ← versionNumber origin
  if !(← atEnd) then failAt "a directive" origin "a digit or \x27 \x27"
  return .version major minor

def handle (what : String) (origin : Place) : Scan String := do
  let wanted := "\x27!\x27"
  if (← peek 0) ≠ some '!' then failAt what origin wanted
  if (← peek 1) = some ' ' then
    forward 1
    return "!"
  let letters ← runFrom 1 isNameChar
  let length := letters.length + 1
  if (← peek length) ≠ some '!' then
    forward length
    failAt what origin wanted
  forward (length + 1)
  return String.ofList ('!' :: letters ++ ['!'])

/-- The character may stand in the name of a tag as it is. -/
def isTagChar (c : Char) : Bool :=
  c.isAlphanum || "-;/?:@&=+$,_.!~*\x27()[]".toList.contains c

/-- The bytes that escapes at the cursor name, after those in `before`, the last of which
comes first. -/
def tagBytes (what : String) (origin : Place) :
    (fuel : Nat) → (before : List UInt8) → Scan (List UInt8)
  | 0, before => return before.reverse
  | fuel + 1, before => do
    if (← peek 0) ≠ some '%' then return before.reverse
    forward 1
    match ← Quoted.hexDigits 2 with
    | .error offset =>
      failIn what origin
        ("expected URI escape sequence of 2 hexadecimal numbers, but found " ++ (← shown offset))
    | .ok digits =>
      forward 2
      tagBytes what origin fuel ((Text.Numeral.valueIn 16 digits).toUInt8 :: before)

def tagEscapes (what : String) (origin : Place) (fuel : Nat) : Scan (List Char) := do
  let start := (← get).place
  match Text.Utf8.decode (← tagBytes what origin fuel []) with
  | .ok codes => return codes.map Char.ofNat
  | .error error =>
    throw (.complaint {
      stage := .scanning, context := some ("while scanning " ++ what), origin := some origin
      problem := error.message, place := start })

/-- The name of a tag from the cursor on, after the characters in `before`, the last of which
comes first. -/
def tagName (what : String) (origin : Place) :
    (fuel : Nat) → (before : List Char) → Scan (List Char)
  | 0, before => return before.reverse
  | fuel + 1, before => do
    let letters ← runOf isTagChar
    if letters ≠ [] then forward letters.length
    let before := letters.reverseAux before
    if (← peek 0) = some '%' then
      let escaped ← tagEscapes what origin fuel
      tagName what origin fuel (escaped.reverseAux before)
    else return before.reverse

def someTagName (what : String) (origin : Place) (fuel : Nat) : Scan String := do
  let next ← peek 0
  if next ≠ some '%' && !next.any isTagChar then
    Scan.fail (some ("while parsing " ++ what)) (some origin)
      ("expected URI, but found " ++ (← shown 0))
  return String.ofList (← tagName what origin fuel [])

def tagHandle (origin : Place) (fuel : Nat) : Scan Token := do
  let space := "\x27 \x27"
  discard (pass (· = ' '))
  let handle ← handle "a directive" origin
  if (← peek 0) ≠ some ' ' then failAt "a directive" origin space
  discard (pass (· = ' '))
  let meaning ← someTagName "a directive" origin fuel
  if !(← atEnd) then failAt "a directive" origin space
  return .tagHandle handle meaning

/-- A directive: a version, a handle for tags, or a line without effect. -/
def directiveToken (origin : Place) (fuel : Nat) : Scan Token := do
  forward 1
  let name ← directiveName origin
  if name = "YAML" then version origin
  else if name = "TAG" then tagHandle origin fuel
  else
    discard (pass (!isBreak ·))
    return .directive

def directiveEnd (origin : Place) : Scan Unit := do
  discard (pass (· = ' '))
  if (← peek 0) = some '#' then discard (pass (!isBreak ·))
  if !endsLine (← peek 0) then failAt "a directive" origin "a comment or a line break"
  discard lineBreak

def directive (fuel : Nat) : Reading Unit := do
  unwind (-1)
  forgetKey
  allowKey false
  let origin ← place
  let token ← scan (directiveToken origin fuel)
  pushFrom origin token
  scan (directiveEnd origin)

def openFlow (token : Token) : Reading Unit := do
  markKey
  modify fun reader =>
    { reader with keyStart := none, outerKeyStarts := reader.keyStart :: reader.outerKeyStarts }
  allowKey true
  take token 1

def closeFlow (token : Token) : Reading Unit := do
  forgetKey
  modify fun reader =>
    { reader with
      keyStart := reader.outerKeyStarts.head?.join, outerKeyStarts := reader.outerKeyStarts.tail }
  allowKey false
  take token 1

def comma : Reading Unit := do
  allowKey true
  forgetKey
  take .flowEntry 1

def beginBlock (token : Token) (problem : String) : Reading Unit := do
  if !(← inFlow) then
    if !(← get).keyAllowed then fail problem
    if ← openBlock (← column) then push token

def dash : Reading Unit := do
  beginBlock .blockSequenceStart "sequence entries are not allowed here"
  allowKey true
  forgetKey
  take .blockEntry 1

def question : Reading Unit := do
  beginBlock .blockMappingStart "mapping keys are not allowed here"
  allowKey (!(← inFlow))
  forgetKey
  take .key 1

/-- Put in tokens where a key began. -/
def insert (start : KeyStart) (tokens : List Token) : Reading Unit :=
  modify fun reader =>
    { reader with
      lexemes := tokens.foldr (fun token lexemes =>
        lexemes.insertIdxIfInBounds start.position ⟨token, start.place, start.place⟩)
        reader.lexemes }

/-- The colon after a key. If a key may have begun before it, that was one, and
the tokens for it are put in there. -/
def colon : Reading Unit := do
  let inFlow ← inFlow
  match (← get).keyStart with
  | some start =>
    let opened ← if inFlow then pure false else openBlock start.place.column
    insert start (if opened then [.blockMappingStart, .key] else [.key])
    modify ({ · with keyStart := none, keyAllowed := false })
  | none =>
    beginBlock .blockMappingStart "mapping values are not allowed here"
    allowKey !inFlow
  take .value 1

def nameAfter (what : String) (origin : Place) : Scan String := do
  forward 1
  let name ← runOf isNameChar
  if name.isEmpty then failAt what origin nameWanted
  forward name.length
  let next ← peek 0
  if !(isGap next || next.any ("?:,]\x7d%@`".toList.contains ·)) then
    failAt what origin nameWanted
  return String.ofList name

def named (what : String) (token : String → Token) : Reading Unit := do
  markKey
  allowKey false
  let origin ← place
  pushFrom origin (token (← scan (nameAfter what origin)))

/-- The word after an exclamation mark has a second one. -/
def hasHandle : Scan Bool := do
  let word ← runFrom 1 fun c => c ≠ ' ' && !isBreak c && c ≠ '!'
  return (← peek (word.length + 1)) = some '!'

def tagParts (origin : Place) (fuel : Nat) : Scan (Option String × String) := do
  let next ← peek 1
  if next = some '<' then
    forward 2
    let name ← someTagName "a tag" origin fuel
    if (← peek 0) ≠ some '>' then
      Scan.fail (some "while parsing a tag") (some origin)
        ("expected \x27>\x27, but found " ++ (← shown 0))
    forward 1
    return (none, name)
  else if isGap next then
    forward 1
    return (none, "!")
  else if ← hasHandle then
    let handle ← handle "a tag" origin
    return (some handle, ← someTagName "a tag" origin fuel)
  else
    forward 1
    return (some "!", ← someTagName "a tag" origin fuel)

def tagToken (origin : Place) (fuel : Nat) : Scan Token := do
  let (handle, name) ← tagParts origin fuel
  if !(← atEnd) then failAt "a tag" origin "\x27 \x27"
  return .tag handle name

def tag (fuel : Nat) : Reading Unit := do
  markKey
  allowKey false
  let origin ← place
  pushFrom origin (← scan (tagToken origin fuel))

def block (folding : Bool) (fuel : Nat) : Reading Unit := do
  allowKey true
  forgetKey
  let origin ← place
  let indent := (← get).indent
  scan (forward 1)
  let text ← scan (Block.text origin folding indent fuel)
  pushFrom origin (.scalar (text.map Char.toNat) false)

def quoted (double : Bool) (fuel : Nat) : Reading Unit := do
  markKey
  allowKey false
  let origin ← place
  scan (forward 1)
  pushFrom origin (.scalar (← scan (Quoted.contents origin double fuel [])) false)

def plain (fuel : Nat) : Reading Unit := do
  markKey
  let origin ← place
  let inFlow ← inFlow
  let indent := (← get).indent + 1
  let (text, crossed) ← scan (Plain.pieces inFlow indent fuel [] [] false)
  allowKey crossed
  pushFrom origin (.scalar (text.map Char.toNat) true)

/-- A plain scalar can begin with the character `c`, whatever follows. -/
def beginsPlain (c : Char) : Bool :=
  !isGap (some c) && !("-?:,[]\x7b\x7d#&*!|>\x27\"%@`".toList.contains c)

/-- A plain scalar can begin with the character `c` if something joins it. -/
def beginsJoined (inFlow : Bool) (c : Char) : Bool :=
  c = '-' || (!inFlow && (c = '?' || c = ':'))

def plainToken (fuel : Nat) (c : Char) : Reading Unit := do
  if beginsPlain c then plain fuel
  else
    let joined := !isGap (← scan (peek 1))
    if joined && beginsJoined (← inFlow) c then plain fuel
    else
      scan (do
        Scan.fail (some "while scanning for the next token") none
          ("found character " ++ (← shown 0) ++ " that cannot start any token"))

/-- A document marker begins here, at the beginning of a line. -/
def isMarker (mark : Char) : Reading Bool := do
  if (← column) = 0 then scan (atMarker mark) else return false

def dashToken (fuel : Nat) : Reading Unit := do
  if ← isMarker '-' then marker .documentStart
  else if isGap (← scan (peek 1)) then dash
  else plainToken fuel '-'

/-- Read the tokens that begin at the cursor with a mark that means something only before
a gap, or between brackets. -/
def markToken (fuel : Nat) (c : Char) (meant : Reading Unit) : Reading Unit := do
  if ← inFlow then meant
  else if isGap (← scan (peek 1)) then meant
  else plainToken fuel c

def token (fuel : Nat) (c : Char) : Reading Unit := do
  let inFlow ← inFlow
  if c = '%' && (← column) = 0 then directive fuel
  else if c = '.' then
    if ← isMarker '.' then marker .documentEnd else plainToken fuel c
  else if c = '[' then openFlow .flowSequenceStart
  else if c = '\x7b' then openFlow .flowMappingStart
  else if c = ']' then closeFlow .flowSequenceEnd
  else if c = '\x7d' then closeFlow .flowMappingEnd
  else if c = ',' then comma
  else if c = '-' then dashToken fuel
  else if c = '?' then markToken fuel c question
  else if c = ':' then markToken fuel c colon
  else if c = '*' then named "an alias" .reference
  else if c = '&' then named "an anchor" .anchor
  else if c = '!' then tag fuel
  else if c = '|' && !inFlow then block false fuel
  else if c = '>' && !inFlow then block true fuel
  else if c = '\'' then quoted false fuel
  else if c = '"' then quoted true fuel
  else plainToken fuel c

def ready (reader : Reader) : Nat :=
  (reader.keyStart :: reader.outerKeyStarts).foldl
    (fun count start => match start with
      | some start => min count start.position
      | none => count) reader.lexemes.size

def advance (fuel : Nat) : Reading Bool := do
  skipBlank fuel
  forgetStale
  unwind (← column)
  match ← scan (peek 0) with
  | none =>
    finish
    return true
  | some c =>
    token fuel c
    return false

/-- Read tokens to the end of the text, when `count` of them were to be had so far. -/
def readAll : (fuel : Nat) → (count : Nat) → Reader → Lexemes
  | 0, _, reader => ⟨reader.lexemes.toList, none⟩
  | fuel + 1, count, reader =>
    match forgetStale reader with
    | .error error => ⟨(reader.lexemes.extract 0 count).toList, some error⟩
    | .ok (_, reader) =>
      let ready := ready reader
      match advance (fuel + 1) reader with
      | .error error => ⟨(reader.lexemes.extract 0 ready).toList, some error⟩
      | .ok (true, after) => ⟨after.lexemes.toList, none⟩
      | .ok (false, after) => readAll fuel ready after

end Reading

/-- A text is looked at in chunks of this length. The first one has twice the length. -/
def chunkLength : Nat := 4096

def soundLength (chunk position : Nat) : Nat :=
  if position < 2 * chunk then 0 else position - position % chunk

/-- A cursor at the beginning of a text that is looked at in chunks. A character that may
not stand in a document shows when something in its chunk is looked at. -/
def Cursor.ofText (chunk : Nat) (text : List Char) : Cursor :=
  let position := (text.takeWhile isAllowed).length
  match text[position]? with
  | none => { rest := text }
  | some c =>
    { rest := text.take (soundLength chunk position)
      flaw := some (.unacceptable c.toNat position) }

/-- The tokens of a text that is looked at in chunks. A byte order mark at its beginning is
skipped. -/
def lexemesIn (chunk : Nat) (text : List Char) : Lexemes :=
  let start := Cursor.ofText chunk text
  let skipMark : Scan Unit := do
    if (← Scan.peek 0) = some '\uFEFF' then Scan.forward 1
  match skipMark start with
  | .error error => ⟨[], some error⟩
  | .ok (_, cursor) => Reading.readAll (text.length + 2) 0 { cursor }

def lexemes (text : List Char) : Lexemes := lexemesIn chunkLength text

end Intcode.Document
