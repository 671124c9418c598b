import Intcode.Text.Numeral

/-! The arguments of the command. An option can be cut short as long as no other
begins the same way, and its value can follow it or be joined to it. -/

namespace Intcode.CommandLine

inductive Name where
  | help
  | input
  | noun
  | verb
  | config
  | debug
  | logfile
  | console
  | dump
deriving DecidableEq, Repr

namespace Name

def spellings : List (String × Name) :=
  [("-h", help), ("--help", help), ("--input", input), ("--noun", noun), ("--verb", verb),
   ("--config", config), ("--debug", debug), ("--logfile", logfile), ("--console", console),
   ("--dump", dump)]

def takesValue : Name → Bool
  | input | noun | verb | config | logfile => true
  | help | debug | console | dump => false

end Name

/-- What was given with an option that takes a value. -/
inductive Given where
  | absent
  | text (value : String)
  /-- Two dashes were joined to the option. They separate arguments and are no value. -/
  | separator
deriving DecidableEq, Repr

def Given.text? : Given → Option String
  | text value => some value
  | absent | separator => none

structure Options where
  program : Option String := none
  input : Given := .absent
  noun : Option Int := none
  verb : Option Int := none
  config : Given := .absent
  debug : Bool := false
  logfile : Option String := none
  console : Bool := false
  dump : Bool := false
  /-- An argument came that has no place. -/
  surplus : Bool := false
deriving DecidableEq, Repr

/-- Why the arguments make no settings. -/
inductive Refusal where
  | help
  | usage
deriving DecidableEq, Repr

inductive Argument where
  | plain (text : String)
  | option (name : Name) (joined : Option String)
  /-- Written as an option, but none that there is. -/
  | unknown
  /-- Two dashes alone: no option comes after them. -/
  | separator
deriving DecidableEq, Repr

namespace Argument

/-- The text is a negative number, which is no option. Digits of all scripts
count, and a line feed may follow them. -/
def isNegative : List Char → Bool
  | '-' :: rest =>
    let isDigit (c : Char) : Bool := (Text.digitValue? c).isSome
    let number := if rest.getLast? = some '\n' then rest.dropLast else rest
    match number.dropWhile isDigit with
    | [] => !number.isEmpty
    | '.' :: fraction => !fraction.isEmpty && fraction.all isDigit
    | _ => false
  | _ => false

def split (text : List Char) : String × Option String :=
  (String.ofList (text.takeWhile (· ≠ '=')),
    match text.dropWhile (· ≠ '=') with
    | [] => none
    | _ :: value => some (String.ofList value))

/-- An option with characters joined to it. Behind a single dash they are letters of
further options, and the only such option is the one for help. -/
def joinedTo (spelling : String) (name : Name) (joined : List Char) : Argument :=
  let areLetters := !spelling.startsWith "--" && !joined.isEmpty && joined.all (· = 'h')
  .option name (if areLetters then none else some (.ofList joined))

def candidates (text : String) : List Argument :=
  let (name, joined) := split text.toList
  match Name.spellings.lookup text, joined, joined.bind fun _ => Name.spellings.lookup name with
  | some found, _, _ => [.option found none]
  | none, some joined, some found => [joinedTo name found joined.toList]
  | none, _, _ =>
    if text.startsWith "--" then
      (Name.spellings.filter fun spelling => spelling.1.startsWith name).map fun spelling =>
        .option spelling.2 joined
    else
      let letter := String.ofList (text.toList.take 2)
      match Name.spellings.lookup letter with
      | some found => [joinedTo letter found (text.toList.drop 2)]
      | none => []

def read (text : String) : Except Refusal Argument :=
  if !text.startsWith "-" || text = "-" then .ok (.plain text)
  else
    match candidates text with
    | [found] => .ok found
    | _ :: _ :: _ => .error .usage
    | [] =>
      .ok (if isNegative text.toList || text.toList.contains ' ' then .plain text else .unknown)

def readAll : List String → Except Refusal (List Argument)
  | [] => .ok []
  | text :: rest =>
    if text = "--" then .ok (.separator :: rest.map .plain)
    else do
      let first ← read text
      return first :: (← readAll rest)

end Argument

namespace Options

/-- The words to store at addresses 1 and 2, if one of them was given. The other one is
zero then. -/
def patches (options : Options) : Option (Int × Int) :=
  match options.noun, options.verb with
  | none, none => none
  | noun, verb => some (noun.getD 0, verb.getD 0)

def usage : String :=
  "usage: program [--input WORDS] [--noun NOUN] [--verb VERB] [--config FILE] " ++
    "[--debug] [--logfile FILE] [--console] [--dump]"

/-- The number that was given. A separator counts as zero. -/
def number : Given → Except Refusal (Option Int)
  | .absent => .ok none
  | .separator => .ok (some 0)
  | .text value =>
    match Text.Numeral.read value with
    | .ok value => .ok (some value)
    | .error _ => .error .usage

def setValue (options : Options) (name : Name) (value : Given) : Except Refusal Options :=
  match name with
  | .input => .ok { options with input := value }
  | .noun => return { options with noun := ← number value }
  | .verb => return { options with verb := ← number value }
  | .config => .ok { options with config := value }
  | .logfile => .ok { options with logfile := value.text? }
  | _ => .error .usage

def joinedValue (text : String) : Given := if text = "--" then .separator else .text text

def setFlag (options : Options) (name : Name) : Except Refusal Options :=
  match name with
  | .debug => .ok { options with debug := true }
  | .console => .ok { options with console := true }
  | .dump => .ok { options with dump := true }
  | .help => .error .help
  | _ => .error .usage

/-- Take an argument that is no option: the first is the program. -/
def place (options : Options) (text : String) : Options :=
  if options.program.isNone then { options with program := some text }
  else { options with surplus := true }

/-- Apply arguments in order. `afterProgram` tells that the last one was the
program, which a separator may follow. An argument without a place does not keep
later ones from being read, since one of them may ask for help. -/
def apply : (options : Options) → (afterProgram : Bool) → List Argument → Except Refusal Options
  | options, _, [] => .ok options
  | options, afterProgram, .separator :: rest =>
    if options.program.isNone || afterProgram then apply options false rest else .error .usage
  | options, _, .plain text :: rest => apply (options.place text) options.program.isNone rest
  | options, _, .unknown :: rest => apply { options with surplus := true } false rest
  | options, _, .option name (some joined) :: rest =>
    if name.takesValue then do
      apply (← options.setValue name (joinedValue joined)) false rest
    else .error .usage
  | options, _, .option name none :: rest =>
    if name.takesValue then
      match rest with
      | .plain text :: rest => do
        apply (← options.setValue name (.text text)) false rest
      | _ => .error .usage
    else do apply (← options.setFlag name) false rest

/-- The settings that arguments make. There must be a program, and every argument
must have its place. -/
def parse (arguments : List String) : Except Refusal Options := do
  let options ← apply {} false (← Argument.readAll arguments)
  if options.program.isNone || options.surplus then throw .usage
  return options

end Options
end Intcode.CommandLine
