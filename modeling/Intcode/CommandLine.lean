import Intcode.CommandLine.Options
import Intcode.Machine.Dump
import Intcode.Exchange
import Intcode.Settings

/-! The command that runs a program file: what it prints, the files it leaves and
its exit code. -/

namespace Intcode.CommandLine

/-- Why the command ended without a word of its own. -/
inductive Escape where
  | settings (error : Settings.Error)
  | fault (fault : Fault)
  | file (obstacle : Obstacle)
  /-- A separator was given where the input words should be. -/
  | noWords
deriving DecidableEq, Repr

def noWordsMessage : String := "'list' object has no attribute 'split'"

/-- How the command ended. -/
structure Outcome where
  exit : Nat
  output : String := ""
  directory : Directory
  escape : Option Escape := none

def dumpFile : String := "memory_dump.txt"

def logged (line : String) : String := "DEBUG " ++ line ++ "\n"

/-- What an event adds to the output: an emitted word if outputs are shown, a log
line if the log is. -/
def shown (outputs console : Bool) (event : Event) : String :=
  match event, event.line? with
  | .emitted value, _ => if outputs then toString value ++ "\n" else ""
  | _, some line => if console then logged line else ""
  | _, none => ""

/-- The words in a list separated by commas. Empty places are passed over. -/
def inputWords (text : String) : Except Text.NumeralError (List Int) :=
  ((Text.pieces ',' text.toList).filter fun piece => !(Text.trim piece).isEmpty).mapM
    fun piece => Text.Numeral.read (String.ofList piece)

/-- Why there is nothing to run. -/
inductive Unreadable where
  | text (message : String)
  | noWords
deriving DecidableEq, Repr

def givenWords : Given → Except Unreadable (List Int)
  | .absent => .ok []
  | .text words => (inputWords words).mapError fun error => .text error.message
  | .separator => .error .noWords

/-- The program and the input words, or why the first of them cannot be read. -/
def readRun (source : String) (inputs : Given) : Except Unreadable (Program × List Int) := do
  let program ← (Program.parse source).mapError fun error => .text error.message
  let words ← givenWords inputs
  return (program, words)

structure Context where
  options : Options
  settings : Settings
  debug : Bool
  logfile : Location
  directory : Directory

namespace Context

def console (context : Context) : Bool := context.debug && context.options.console

def log (context : Context) (lines : List String) : Directory :=
  if context.debug then context.directory.append context.logfile (String.join (lines.map logged))
  else context.directory

/-- The end of a run that logged what its session did and then `extra`. -/
def finish (context : Context) (exchange : Exchange) (outputs : Bool) (extra : List String)
    (printed : String) (escape : Option Escape) : Outcome :=
  { exit := if escape.isSome then 1 else 0
    output :=
      String.join (exchange.session.journal.toList.map (shown outputs context.console)) ++
        (if context.console then String.join (extra.map logged) else "") ++ printed
    directory := context.log (exchange.session.lines ++ extra)
    escape }

def evaluate (context : Context) (program : Program) (noun verb : Int) (bound : Nat) :
    Option Outcome :=
  ((Exchange.evaluate noun verb).answer bound (program.exchange [] false none)).map
    fun (outcome, exchange) =>
      match outcome with
      | .ok value => context.finish exchange false [] (toString value ++ "\n") none
      | .error fault => context.finish exchange false [] "" (some (.fault fault))

/-- The end of a run that halted. A dump is written if one is wanted. -/
def complete (context : Context) (after : Exchange) : Outcome :=
  let machine := after.session.machine
  let completed := "CLI: program completed in " ++ toString machine.steps ++ " steps"
  if context.debug && context.options.dump then
    let place := Location.ofPath dumpFile
    if context.directory.at? place = some .folder then
      context.finish after true
        [completed, "Failed to write " ++ dumpFile ++ ": " ++ (Obstacle.folder dumpFile).message] "" none
    else
      -- A run from words reaches no number that cannot be written before some 10 ^ 4281 instructions.
      let outcome := context.finish after true [completed] "" none
      { outcome with directory := outcome.directory.write place machine.dump }
  else context.finish after true [completed] "" none

def drive (context : Context) (program : Program) (words : List Int) (bound : Nat) :
    Option Outcome :=
  let exchange := program.exchange words context.settings.trace context.settings.stepLimit
  (Exchange.drive.answer bound exchange).map fun (outcome, after) =>
    match outcome with
    | .error fault => context.finish after true [] "" (some (.fault fault))
    | .ok () => context.complete after

/-- Read the program and run it the way the options ask for. -/
def run (context : Context) (bound : Nat) : Option Outcome :=
  let path := context.options.program.getD ""
  let refused (text : String) : Outcome :=
    { exit := 2, output := text ++ "\n", directory := context.directory }
  let escaped (escape : Escape) : Outcome :=
    { exit := 1, directory := context.directory, escape := some escape }
  match context.directory.findShown path with
  | .missing => some (refused ("Program file not found: " ++ path))
  | .tooLong => some (escaped (.file (.tooLong (Directory.shown path))))
  | .entry _ .folder => some (escaped (.file (.folder (Directory.shown path))))
  | .entry _ (.file content) =>
    match readRun (String.ofList (Document.unifyBreaks content.toList)) context.options.input with
    | .error (.text text) => some (refused ("Bad program or input: " ++ text))
    | .error .noWords => some (escaped .noWords)
    | .ok (program, words) =>
      match context.options.patches with
      | none => context.drive program words bound
      | some (noun, verb) => context.evaluate program noun verb bound

end Context

/-- The settings that were given: a file with them, or the usual ones. A separator is
neither. -/
def settingsValue : Given → Value
  | .absent => .null
  | .text path => .text path
  | .separator => .list []

/-- The path of the log. The options go before the settings. -/
def logPath (options : Options) (settings : Settings) : String :=
  match options.logfile with
  | none | some "" => settings.logfile
  | some path => path

def prepare (directory : Directory) (options : Options) (settings : Settings) : Context :=
  let logfile := Location.ofPath (logPath options settings)
  { options, settings, debug := options.debug || settings.debug, logfile
    directory := directory.write logfile "" }

def run (directory : Directory) (arguments : List String) (bound : Nat) : Option Outcome :=
  match Options.parse arguments with
  | .error .help => some { exit := 0, directory }
  | .error .usage => some { exit := 2, directory }
  | .ok options =>
    match Settings.load directory (settingsValue options.config) with
    | .error error =>
      match error.kind with
      | .refused =>
        some { exit := 2, output := "Bad config: " ++ error.message ++ "\n", directory }
      | _ => some { exit := 1, directory, escape := some (.settings error) }
    | .ok settings =>
      let context := prepare directory options settings
      match directory.obstacle? context.logfile with
      | some obstacle => some { exit := 1, directory, escape := some (.file obstacle) }
      | none => context.run bound

end Intcode.CommandLine
