import Intcode.CommandLine
import Intcode.Document.Writing
import Intcode.Record

/-! The program: it looks up the files that the arguments name, lets the pure
commands decide, and writes what they decided. -/

namespace Intcode.Main

/-- More rounds than any run makes. -/
def bound : Nat := 1000000000000000000

def fillRecord : String := "--fill-record"

def look (directory : Directory) (location : Location) : IO Directory := do
  if location.names.isEmpty then return directory
  try
    if ← (← IO.FS.realPath location.text).isDir then return directory.addFolder location
    else return directory.write location (← IO.FS.readFile location.text)
  catch _ => return directory

/-- The places that walking along a path comes to, and those on the shortest way. -/
def places (path : String) : List Location :=
  let steps := Location.steps path
  ((List.range (steps.length + 1)).map fun count =>
      (steps.take count).foldl Location.enter (Location.start path)) ++
    (Location.ofPath path).way

def lookAll (directory : Directory) (paths : List String) : IO Directory :=
  (paths.flatMap places).foldlM look directory

def save (before after : Directory) : IO Unit := do
  for (path, entry) in after.entries.entries do
    if let .file content := entry then
      if before.entries.get? path ≠ some entry then
        IO.FS.writeFile path content

def complain (reason : String) : IO Unit := do
  (← IO.getStderr).putStrLn reason

def record (arguments : List String) : IO UInt32 := do
  let directory ← lookAll {} arguments
  match Record.command directory arguments bound with
  | none => complain "no end"; return 1
  | some outcome =>
    save directory outcome.directory
    IO.print outcome.output
    match outcome.escape with
    | some (.record error) => complain error.message
    | some (.file obstacle) => complain obstacle.message
    | some (.document path error) => complain (error.message path)
    | some .unwritable => complain Text.Numeral.tooLongMessage
    | some .endless => complain Document.endlessMessage
    | none => pure ()
    return outcome.exit.toUInt32

/-- Look up the files that a run may touch. The settings name one of them, so they
are read first. -/
def lookFor (options : CommandLine.Options) : IO Directory := do
  let named := options.program.toList ++ options.config.text?.toList ++ options.logfile.toList
  let directory ← lookAll {} (CommandLine.dumpFile :: named)
  match Settings.load directory (CommandLine.settingsValue options.config) with
  | .error _ => return directory
  | .ok settings => lookAll directory [settings.logfile]

def run (arguments : List String) : IO UInt32 := do
  let directory ←
    match CommandLine.Options.parse arguments with
    | .ok options => lookFor options
    | .error _ => do
      complain CommandLine.Options.usage
      pure {}
  match CommandLine.run directory arguments bound with
  | none => complain "no end"; return 1
  | some outcome =>
    save directory outcome.directory
    IO.print outcome.output
    match outcome.escape with
    | some (.settings error) => complain error.message
    | some (.fault cause) => complain cause.message
    | some (.file obstacle) => complain obstacle.message
    | some .noWords => complain CommandLine.noWordsMessage
    | none => pure ()
    return outcome.exit.toUInt32

end Intcode.Main

def main (arguments : List String) : IO UInt32 :=
  match arguments with
  | first :: rest =>
    if first = Intcode.Main.fillRecord then Intcode.Main.record rest else Intcode.Main.run arguments
  | [] => Intcode.Main.run []
