import Intcode.Document.Timestamp

/-! The types that nodes have. Most nodes do not name theirs: collections then have
the type of their kind, quoted scalars are texts, and plain scalars are told apart
by their form. -/

namespace Intcode.Document

inductive Tag where
  | null
  | bool
  | int
  | float
  | bytes
  | timestamp
  | text
  | sequence
  | orderedMap
  | pairs
  | mapping
  | set
  /-- The key of what is merged into a mapping. -/
  | merge
  /-- The key of what a mapping stands for where a scalar is wanted. -/
  | value
  | other (name : String)
deriving DecidableEq, Repr

namespace Tag

def standard : String := "tag:yaml.org,2002:"

def names : List (String × Tag) :=
  [("null", null), ("bool", bool), ("int", int), ("float", float), ("binary", bytes),
   ("timestamp", timestamp), ("str", text), ("seq", sequence), ("omap", orderedMap),
   ("pairs", pairs), ("map", mapping), ("set", set), ("merge", merge), ("value", value)]

def ofName (name : String) : Tag :=
  match names.find? fun (ending, _) => standard ++ ending = name with
  | some (_, tag) => tag
  | none => other name

def name : Tag → String
  | other name => name
  | tag => standard ++ ((names.find? fun (_, found) => found = tag).map Prod.fst).getD ""

/-- The words for truth values, in the three casings that are read. -/
def truths : List String :=
  ["yes", "Yes", "YES", "no", "No", "NO", "true", "True", "TRUE", "false", "False", "FALSE",
   "on", "On", "ON", "off", "Off", "OFF"]

def nulls : List String := ["", "~", "null", "Null", "NULL"]

def infinities : List String :=
  (["inf", "Inf", "INF"].flatMap fun word => ["." ++ word, "-." ++ word, "+." ++ word]) ++
    [".nan", ".NaN", ".NAN"]

/-- The signs that are a type of their own. No value belongs to it. -/
def signs : List String := ["!", "&", "*"]

/-- The name of the type of those signs. -/
def signType : Tag := .other (standard ++ "yaml")

def unsigned : List Char → List Char
  | c :: rest => if c = '-' || c = '+' then rest else c :: rest
  | [] => []

/-- Underscores may stand anywhere after the first digit. -/
def isDigits (test : Char → Bool) (text : List Char) : Bool :=
  text.all fun c => test c || c = '_'

def isNumber : List Char → Bool
  | c :: rest => c.isDigit && isDigits Char.isDigit rest
  | [] => false

/-- One or two digits of a number below sixty. -/
def isSixtieth : List Char → Bool
  | [c] => c.isDigit
  | [c, d] => '0' ≤ c && c ≤ '5' && d.isDigit
  | _ => false

def isSixties (text : List Char) : Bool :=
  match Text.pieces ':' text with
  | first :: next :: others => isNumber first && (next :: others).all isSixtieth
  | _ => false

def isWhole (text : List Char) : Bool :=
  match unsigned text with
  | '0' :: 'b' :: rest => !rest.isEmpty && isDigits (fun c => c = '0' || c = '1') rest
  | '0' :: 'x' :: rest => !rest.isEmpty && isDigits (Text.Numeral.isDigitOf 16) rest
  | '0' :: rest => isDigits (Text.Numeral.isDigitOf 8) rest
  | rest => isNumber rest || isSixties rest

def isPower : List Char → Bool
  | [] => true
  | mark :: sign :: digits =>
    (mark = 'e' || mark = 'E') && (sign = '+' || sign = '-') && !digits.isEmpty &&
      digits.all Char.isDigit
  | _ => false

def isFractionPart (text : List Char) : Bool :=
  isPower (text.dropWhile fun c => c.isDigit || c = '_')

/-- The form of a fraction: a number and a point, or a point without a sign before
a digit, and sixtieths around a point. -/
def isFraction (text : List Char) : Bool :=
  let size := unsigned text
  let before := size.takeWhile (· ≠ '.')
  infinities.contains (String.ofList text) ||
    match size.dropWhile (· ≠ '.') with
    | [] => false
    | _ :: after =>
      (isNumber before && isFractionPart after) ||
        (text.head? = some '.' && after.head?.any Char.isDigit && isFractionPart after) ||
        (isSixties before && isDigits Char.isDigit after)

/-- The type of a plain scalar. A line feed at its end is no part of its form. -/
def ofPlain (codes : Text.Codes) : Tag :=
  match Text.stringOf? codes with
  | none => text
  | some whole =>
    let chars := whole.toList
    let chars := if chars.getLast? = some '\n' && 1 < chars.length then chars.dropLast else chars
    let word := String.ofList chars
    if nulls.contains word then null
    else if word = "<<" then merge
    else if word = "=" then value
    else if signs.contains word then signType
    else if truths.contains word then bool
    else if isFraction chars then float
    else if isWhole chars then int
    else if Timestamp.isTimestamp whole.toList then timestamp
    else text

end Tag
end Intcode.Document
