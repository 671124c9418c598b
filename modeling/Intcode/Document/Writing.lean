import Intcode.Document
import Intcode.Value.Literal

/-! Writing a value as a document: collections as indented blocks, scalars plain
where they read back as themselves and quoted elsewhere. A value that holds a number
with too many digits is not written. -/

namespace Intcode.Document

/-- The style of fractions: like the plain one, with the words of documents. -/
def fractions : Double.DecimalStyle := { Double.plain with nan := ".nan", infinity := ".inf" }

/-- A fraction always shows its point; otherwise it would read as a text. -/
def fractionText (number : Double) : String :=
  let text := (number.text fractions).toList
  String.ofList <|
    if text.contains '.' then text
    else text.takeWhile (· ≠ 'e') ++ ['.', '0'] ++ text.dropWhile (· ≠ 'e')

def escaped (code : Nat) : List Char :=
  if code = '"'.toNat || code = '\\'.toNat then ['\\', Char.ofNat code]
  else if code = '\n'.toNat then ['\\', 'n']
  else if Text.isPrintable code then [Char.ofNat code]
  else Text.escapedCode code

/-- The text needs no quotes: its characters mean nothing to the layout, and it
is not the form of another scalar. -/
def isSafe (codes : Text.Codes) : Bool :=
  match Text.stringOf? codes with
  | none => false
  | some text =>
    text.toList.head?.any Char.isAlpha && text.toList.all (fun c => c.isAlphanum || c = '_') &&
      Tag.ofPlain codes = .text

def isBreakCode (code : Nat) : Bool := code.isValidChar && isBreak (Char.ofNat code)

/-- The code point may stand in a scalar without double quotes. -/
def isOrdinary (code : Nat) : Bool :=
  code = '\n'.toNat || (0x20 ≤ code && code ≤ 0x7E) || code = 0x85 ||
    (0xA0 ≤ code && code ≤ 0xD7FF) || (0xE000 ≤ code && code ≤ 0xFFFD && code ≠ 0xFEFF) ||
    (0x10000 ≤ code && code < 0x10FFFF)

def hasSpaceAtBreak : Text.Codes → Bool
  | a :: b :: rest =>
    (a = ' '.toNat && isBreakCode b) || (isBreakCode a && b = ' '.toNat) ||
      hasSpaceAtBreak (b :: rest)
  | _ => false

/-- The text is written over several lines, in single quotes. -/
def isSpread (codes : Text.Codes) : Bool :=
  codes.any isBreakCode && codes.all isOrdinary && !hasSpaceAtBreak codes

/-- A text over several lines, from its code points on. Line feeds count only from
the second one on, so one more is written in front of them. -/
def spread (indent : String) (inBreaks : Bool) : Text.Codes → List Char
  | [] => if inBreaks then indent.toList else []
  | code :: rest =>
    let c := Char.ofNat code
    if isBreak c then
      (if !inBreaks && c = '\n' then ['\n', '\n'] else [c]) ++ spread indent true rest
    else
      (if inBreaks then indent.toList else []) ++ (if c = '\'' then ['\'', '\''] else [c]) ++
        spread indent false rest

def scalarText (indent : String) (codes : Text.Codes) : String :=
  String.ofList <|
    if isSafe codes then codes.map Char.ofNat
    else if isSpread codes then '\'' :: spread (indent ++ "  ") false codes ++ ['\'']
    else '"' :: codes.flatMap escaped ++ ['"']

def inline? (indent : String) : Value → Option String
  | .null => some "null"
  | .bool value => some (if value then "true" else "false")
  | .int value => Value.digits? value
  | .float value => some (fractionText value)
  | .text value => some (scalarText indent (Text.codesOf value))
  | .broken codes => some (scalarText indent codes)
  | .bytes value => some ("!!binary \"" ++ String.ofList (Text.Base64.encode value) ++ "\"")
  | .day value => some value.text
  | .moment value => some value.text
  | .set _ => some "!!set \x7b\x7d"
  | .mapping _ | .recurrence true => some "\x7b\x7d"
  | .list _ | .pair .. | .recurrence false => some "[]"

def shortKey : Nat := 128

def keyText (indent text : String) : String :=
  if text.length ≤ shortKey && !text.toList.any isBreak then indent ++ text ++ ":"
  else indent ++ "? " ++ text ++ "\n" ++ indent ++ ":"

/-- The number of collections that may stand in one another in a value that is written. -/
def deepestWritten : Nat := 329

mutual

def depth : Value → Nat
  | .list items | .set items => depthOfItems items + 1
  | .pair left right => max (depth left) (depth right) + 1
  | .mapping entries => depthOfEntries entries + 1
  | _ => 0

def depthOfItems : List Value → Nat
  | [] => 0
  | item :: rest => max (depth item) (depthOfItems rest)

def depthOfEntries : List (Value × Value) → Nat
  | [] => 0
  | (key, value) :: rest => max (max (depth key) (depth value)) (depthOfEntries rest)

end

mutual

def trailing? (indent : String) : Value → Option String
  | .list (item :: rest) => ("\n" ++ ·) <$> itemLines? indent (item :: rest)
  | .pair left right => do
    let first ← trailing? (indent ++ "  ") left
    let second ← trailing? (indent ++ "  ") right
    return "\n" ++ indent ++ "-" ++ first ++ indent ++ "-" ++ second
  | .mapping (entry :: rest) => ("\n" ++ ·) <$> entryLines? indent (entry :: rest)
  | .set (item :: rest) => (" !!set\n" ++ ·) <$> memberLines? indent (item :: rest)
  | value => (fun text => " " ++ text ++ "\n") <$> inline? indent value

def itemLines? (indent : String) : List Value → Option String
  | [] => some ""
  | item :: rest => do
    let first ← trailing? (indent ++ "  ") item
    let others ← itemLines? indent rest
    return indent ++ "-" ++ first ++ others

def entryLines? (indent : String) : List (Value × Value) → Option String
  | [] => some ""
  | (key, value) :: rest => do
    let name ← inline? indent key
    let first ← trailing? (indent ++ "  ") value
    let others ← entryLines? indent rest
    return keyText indent name ++ first ++ others

def memberLines? (indent : String) : List Value → Option String
  | [] => some ""
  | item :: rest => do
    let name ← inline? indent item
    let others ← memberLines? indent rest
    return keyText indent name ++ " null\n" ++ others

end

def write? : Value → Option String
  | .list (item :: rest) => itemLines? "" (item :: rest)
  | .mapping (entry :: rest) => entryLines? "" (entry :: rest)
  | .set (item :: rest) => ("!!set\n" ++ ·) <$> memberLines? "" (item :: rest)
  | .pair left right => itemLines? "" [left, right]
  | value => (· ++ "\n") <$> inline? "" value

end Intcode.Document
