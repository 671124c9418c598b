import Intcode.Calendar
import Intcode.Document.Place
import Intcode.Text.Numeral

/-! Why a text holds no value. A complaint is about the form of the text and names
the places it is about; other errors come from single scalars. -/

namespace Intcode.Document

inductive Stage where
  | scanning
  | parsing
  | composing
  | constructing
deriving DecidableEq, Repr

/-- A complaint about the form of a text. -/
structure Complaint where
  stage : Stage
  /-- What the problem stands in. -/
  context : Option String := none
  /-- Where that begins. -/
  origin : Option Place := none
  problem : String
  place : Place
deriving DecidableEq, Repr

def Place.text (file : String) (place : Place) : String :=
  "  in \"" ++ file ++ "\", line " ++ toString (place.line + 1) ++ ", column " ++
    toString (place.column + 1)

/-- The text of a complaint about a file. The origin is left out where the problem
lies in the same place. -/
def Complaint.text (file : String) (complaint : Complaint) : String :=
  let origin := complaint.origin.filter (· ≠ complaint.place)
  "\n".intercalate
    (complaint.context.toList ++ (origin.map (Place.text file)).toList ++
      [complaint.problem, complaint.place.text file])

/-- Why a scalar has no value although the text has the form of a document. -/
inductive ScalarError where
  | numeral (error : Text.NumeralError)
  | fraction (shown : String)
  | empty
  /-- The text, shown in quotes, is no word for a truth value. -/
  | truth (shown : String)
  | calendar (error : CalendarError)
  | noMoment
  | mappingMoment
  /-- A place in a number counts more than any fraction can. -/
  | weight
  | code
  /-- An escape names a number that is much too large for a code point. -/
  | hugeCode
deriving DecidableEq, Repr

/-- What a caller can tell errors of scalars apart by. -/
inductive ScalarError.Kind where
  | value
  | empty
  | word
  | form
  | type
  | overflow
deriving DecidableEq, Repr

def ScalarError.kind : ScalarError → Kind
  | numeral _ | fraction _ | calendar _ | code => .value
  | empty => .empty
  | truth _ => .word
  | noMoment => .form
  | mappingMoment => .type
  | weight | hugeCode => .overflow

def ScalarError.message : ScalarError → String
  | numeral error => error.message
  | fraction shown => "could not convert string to float: " ++ shown
  | empty => "string index out of range"
  | truth shown => shown
  | calendar error => error.message
  | noMoment => "'NoneType' object has no attribute 'groupdict'"
  | mappingMoment => "expected string or bytes-like object, got 'list'"
  | weight => "int too large to convert to float"
  | code => "chr() arg not in range(0x110000)"
  | hugeCode => "Python int too large to convert to C int"

/-- Why a text holds no value. -/
inductive Error where
  | complaint (complaint : Complaint)
  | unacceptable (code position : Nat)
  | scalar (error : ScalarError)
  /-- Collections stand in one another without end, or too many of them do. -/
  | endless
deriving DecidableEq, Repr

/-- The number in as few hexadecimal digits as there are, but no less than four. -/
def shortHex (code : Nat) : String :=
  String.ofList (Text.hex (if code < 0x10000 then 4 else if code < 0x100000 then 5 else 6) code)

def endlessMessage : String := "maximum recursion depth exceeded"

def Error.message (file : String) : Error → String
  | complaint found => found.text file
  | unacceptable code position =>
    "unacceptable character #x" ++ shortHex code ++ ": special characters are not allowed\n" ++
      "  in \"" ++ file ++ "\", position " ++ toString position
  | scalar error => error.message
  | endless => endlessMessage

def complain {α : Type} (stage : Stage) (context : Option String) (origin : Option Place)
    (problem : String) (place : Place) : Except Error α :=
  .error (.complaint { stage, context, origin, problem, place })

end Intcode.Document
