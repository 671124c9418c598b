import Intcode.Directory
import Intcode.Document
import Intcode.Value.Literal

/-! Settings of a run, read from a mapping of loosely typed values. A key that is
absent or null has its default; unknown keys are refused. -/

namespace Intcode

structure Settings where
  trace : Bool := false
  /-- The number of instructions a run may perform. -/
  stepLimit : Option Int := none
  logfile : String := "intcode.log"
  /-- Keep a log at all. -/
  debug : Bool := false
deriving DecidableEq, Repr

namespace Settings

inductive Error where
  | notFound (path : String)
  | folder (path : String)
  | unreachable (obstacle : Obstacle)
  | unreadable (path : String) (error : Document.Error)
  | notMapping (path : String)
  | unsupported
  | badLimit (error : IntegerError)
  | badLogfile
  | emptyBudget
  | emptyLogfile
  | unknownKeys (names : List String)
  /-- The unknown keys cannot be listed: the first one is of this type. -/
  | unlistableKey (kind : String)
  /-- The unknown keys cannot be put in order. -/
  | unorderedKeys (error : OrderError)
deriving DecidableEq, Repr

namespace Error

inductive Kind where
  /-- The settings were read and refused. -/
  | refused
  /-- A value of a wrong type got in the way. -/
  | mistyped
  /-- A number without a whole part got in the way. -/
  | overflow
  | scalar (error : Document.ScalarError)
  /-- Collections in the file stand in one another without end, or too many of them do. -/
  | endless
  | unreachable
deriving DecidableEq, Repr

def kind : Error → Kind
  | badLimit .infinite => .overflow
  | unlistableKey _ | unorderedKeys _ => .mistyped
  | unreadable _ (.scalar error) => .scalar error
  | unreadable _ .endless => .endless
  | unreachable _ => .unreachable
  | _ => .refused

def message : Error → String
  | notFound path => "Config file not found: " ++ path
  | folder path =>
    "Failed to load config file " ++ path ++ ": " ++
      (Obstacle.folder (Directory.shown path)).message
  | unreachable obstacle => obstacle.message
  | unreadable _ (.scalar error) => error.message
  | unreadable _ .endless => Document.endlessMessage
  | unreadable path error =>
    "Failed to load config file " ++ path ++ ": " ++ error.message (Directory.shown path)
  | notMapping path => "Config file " ++ path ++ " does not contain a mapping"
  | unsupported => "Unsupported config input"
  | badLimit .infinite => IntegerError.infinite.message
  | badLimit error => "Bad types in config: " ++ error.message
  | badLogfile => "Bad types in config: " ++ Text.Numeral.tooLongMessage
  | emptyBudget => "step_limit must be positive or null"
  | emptyLogfile => "logfile must not be empty"
  | unknownKeys names => "Unknown config keys: " ++ ", ".intercalate names
  | unlistableKey kind => "sequence item 0: expected str instance, " ++ kind ++ " found"
  | unorderedKeys error => error.message

end Error

def keys : List String := ["trace", "step_limit", "logfile", "debug"]

/-- The words that a text must be one of to count as true. -/
def affirmations : List String := ["1", "true", "yes", "on"]

/-- The truth value that a value stands for. A text must be one of four words,
in any case and with blanks around it. -/
def flag : Value → Bool
  | .text text =>
    affirmations.any fun word => Text.codesOf word =
      Text.lower (Text.codesOf (String.ofList (Text.trim text.toList)))
  | .broken _ => false
  | value => value.isTruthy

def keyBefore (left right : Value) : Except Error Bool :=
  (left.isBefore right).mapError .unorderedKeys

def insertKey (key : Value) : List Value → Except Error (List Value)
  | [] => .ok [key]
  | other :: rest => do
    if ← keyBefore key other then return key :: other :: rest
    else return other :: (← insertKey key rest)

def sortKeys : List Value → Except Error (List Value)
  | [] => .ok []
  | key :: rest => do insertKey key (← sortKeys rest)

def names : List Value → Except Error (List String)
  | [] => .ok []
  | key :: rest =>
    match key.codes? with
    | some codes => (Text.approximate codes :: ·) <$> names rest
    | none => .error (.unlistableKey key.kind)

def isKnown : Value → Bool
  | .text name => keys.contains name
  | _ => false

def checkKeys (entries : List (Value × Value)) : Except Error Unit :=
  match (entries.map Prod.fst).filter (!isKnown ·) with
  | [] => .ok ()
  | unknown => do throw (.unknownKeys (← names (← sortKeys unknown)))

def limitOf : Option Value → Except Error (Option Int)
  | none | some .null => .ok none
  | some value => some <$> (value.integer.mapError .badLimit)

def logfileOf : Option Value → Except Error String
  | none | some .null => .ok ({} : Settings).logfile
  | some value =>
    match value.display? with
    | some text => .ok text
    | none => .error .badLogfile

/-- The settings in a mapping. Types are settled before values are checked, and
keys come last. -/
def ofEntries (entries : List (Value × Value)) : Except Error Settings := do
  let trace := (Value.lookup "trace" entries).any flag
  let debug := (Value.lookup "debug" entries).any flag
  let stepLimit ← limitOf (Value.lookup "step_limit" entries)
  let logfile ← logfileOf (Value.lookup "logfile" entries)
  if stepLimit.any (· ≤ 0) then throw .emptyBudget
  if logfile = "" then throw .emptyLogfile
  checkKeys entries
  return { trace, stepLimit, logfile, debug }

/-- The settings in a document. A document that is empty in any way counts as an
empty mapping. -/
def ofDocument (path : String) (value : Value) : Except Error Settings :=
  if value.isTruthy then
    match value with
    | .mapping entries => ofEntries entries
    | _ => .error (.notMapping path)
  else ofEntries []

def ofFile (directory : Directory) (path : String) : Except Error Settings :=
  match directory.findShown path with
  | .missing => .error (.notFound path)
  | .tooLong => .error (.unreachable (.tooLong (Directory.shown path)))
  | .entry _ .folder => .error (.folder path)
  | .entry _ (.file content) =>
    match Document.read (String.ofList (Document.unifyBreaks content.toList)) with
    | .error error => .error (.unreadable path error)
    | .ok value => ofDocument path value

/-- The settings that a value describes: nothing for the defaults, a mapping, or
the path of a file. -/
def load (directory : Directory) : Value → Except Error Settings
  | .null => ofEntries []
  | .mapping entries => ofEntries entries
  | .text path => ofFile directory path
  | .broken codes => .error (.notFound (Text.approximate codes))
  | _ => .error .unsupported

end Settings
end Intcode
