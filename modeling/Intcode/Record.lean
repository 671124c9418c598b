import Intcode.Document.Writing
import Intcode.Program.Source

/-! Records of runs: a mapping that holds a program, its inputs and its settings,
and in one block what was observed when it ran. Filling a record runs the program
and stores what came out. -/

namespace Intcode

namespace Record

inductive Error where
  /-- The record is not a mapping but a value of this type. -/
  | notMapping (kind : String)
  | noSource
  | badSource
  | run (failure : Failure)
  | notBlock (kind : String)
deriving DecidableEq, Repr

namespace Error

def message : Error → String
  | notMapping kind => "'" ++ kind ++ "' object has no attribute 'get'"
  | noSource => "No 'in_source' found in record"
  | badSource => Text.Numeral.tooLongMessage
  | run failure => failure.message
  | notBlock kind =>
    if kind = "list" then "list indices must be integers or slices, not str"
    else "'" ++ kind ++ "' object does not support item assignment"

/-- The record itself is to blame: a value in it cannot be used. Faults of the run
and values of wrong types are not of this kind. -/
def isBadValue : Error → Bool
  | noSource | badSource => true
  | run (.program _) => true
  | run (.settings error) =>
    match error.kind with
    | .refused => true
    | .scalar error => error.kind = .value
    | .mistyped | .overflow | .endless | .unreachable => false
  | run (.input (.numeral _)) | run (.input .notANumber) => true
  | run (.fault fault) => fault.isUnwritable
  | _ => false

end Error

/-- The key of the block that holds the results: `expect`, or else `out`, if the
record has one of them. -/
def blockKey (entries : List (Value × Value)) : String :=
  match Value.lookup "expect" entries, Value.lookup "out" entries with
  | none, some _ => "out"
  | _, _ => "expect"

def blockEntries (entries : List (Value × Value)) : Except Error (List (Value × Value)) :=
  match Value.lookup (blockKey entries) entries with
  | none => .ok []
  | some (.mapping block) => .ok block
  | some other => .error (.notBlock other.kind)

def observed (exchange : Exchange) (block : List (Value × Value)) : List (Value × Value) :=
  Value.assign (.text "steps") (.int exchange.session.machine.steps)
    (Value.assign (.text "state") (.text "complete")
      (Value.assign (.text "out_stdout") (.list (exchange.outputs.toList.map .int)) block))

def source (entries : List (Value × Value)) : Except Error String :=
  match Value.lookup "in_source" entries with
  | none => .error .noSource
  | some value =>
    if value.isTruthy then
      match value.display? with
      | some text => .ok text
      | none => .error .badSource
    else .error .noSource

def run (directory : Directory) (entries : List (Value × Value)) (bound : Nat) :
    Option (Except Error Exchange) :=
  match source entries with
  | .error error => some (.error error)
  | .ok text =>
    let inputs := Supply.ofValue ((Value.lookup "in_stdin" entries).getD .null)
    let config := (Value.lookup "config" entries).getD .null
    (Program.runSource directory text inputs config bound).map fun run =>
      run.outcome.mapError .run

/-- Run the program of a record and store what came out. Nothing is stored before
the run has finished. -/
def fill (directory : Directory) (record : Value) (bound : Nat) : Option (Except Error Value) :=
  match record with
  | .mapping entries =>
    (run directory entries bound).map fun outcome => do
      let exchange ← outcome
      let block ← blockEntries entries
      return .mapping
        (Value.assign (.text (blockKey entries)) (.mapping (observed exchange block)) entries)
  | other => some (.error (.notMapping other.kind))

inductive Escape where
  | record (error : Error)
  | file (obstacle : Obstacle)
  | document (path : String) (error : Document.Error)
  /-- The new record holds a number with too many digits. It is gone by then. -/
  | unwritable
  /-- Too many collections stand in one another in the new record. It is gone by then. -/
  | endless
deriving DecidableEq, Repr

structure Outcome where
  exit : Nat
  output : String := ""
  directory : Directory
  escape : Option Escape := none

def observedObjects (exchange : Exchange) (objects : Document.Objects) (id : Document.NodeId)
    (block : List (Document.Key × Document.NodeId)) : Document.Objects :=
  let (outputs, objects) := objects.addList (exchange.outputs.toList.map .int)
  let (state, objects) := objects.addScalar (.text "complete")
  let (steps, objects) := objects.addScalar (.int exchange.session.machine.steps)
  let set (name : String) (found : Document.NodeId) :=
    Document.Objects.assign ⟨.text name, none⟩ found
  objects.setIfInBounds id (some (.mapping
    (set "steps" steps (set "state" state (set "out_stdout" outputs block)))))

/-- Store what came out of a run in the block of the record that stands in a document. The
block changes wherever it stands. -/
def store (document : Document) (record : List (Value × Value)) (exchange : Exchange) :
    Except Error Document := do
  discard (blockEntries record)
  match document.root, document.root.bind document.objects.object? with
  | some root, some (.mapping entries) =>
    match Document.Objects.lookup (blockKey record) entries with
    | some id =>
      match document.objects.object? id with
      | some (.mapping block) =>
        return { document with objects := observedObjects exchange document.objects id block }
      | _ => return document
    | none =>
      let (id, objects) := document.objects.add (.mapping [])
      let entries := Document.Objects.assign ⟨.text (blockKey record), none⟩ id entries
      let objects := objects.setIfInBounds root (some (.mapping entries))
      return { document with objects := observedObjects exchange objects id [] }
  | _, _ => return document

/-- The end of a command that filled the record at a place. -/
def written (directory : Directory) (place : Location) (path : String) (record : Value) :
    Outcome :=
  if Document.deepestWritten < Document.depth record then
    { exit := 1, directory := directory.write place "", escape := some .endless }
  else match Document.write? record with
  | none => { exit := 1, directory := directory.write place "", escape := some .unwritable }
  | some text =>
    { exit := 0, output := "Updated " ++ path ++ " with out_stdout, state and steps.\n"
      directory := directory.write place text }

/-- Fill the record in a document. A document that is empty in any way counts as an empty
mapping. -/
def refill (directory : Directory) (document : Document) (bound : Nat) :
    Option (Except Error Value) :=
  let value := document.value
  match if value.isTruthy then value else .mapping [] with
  | .mapping entries =>
    (run directory entries bound).map fun outcome => do
      return (← store document entries (← outcome)).value
  | other => some (.error (.notMapping other.kind))

def update (directory : Directory) (path : String) (bound : Nat) : Option Outcome :=
  match directory.find path with
  | .missing | .tooLong =>
    some { exit := 2, output := "File not found: " ++ path ++ "\n", directory }
  | .entry _ .folder => some { exit := 1, directory, escape := some (.file (.folder path)) }
  | .entry place (.file content) =>
    match Document.parse (String.ofList (Document.unifyBreaks content.toList)) with
    | .error error => some { exit := 1, directory, escape := some (.document path error) }
    | .ok document =>
      (refill directory document bound).map fun
        | .ok record => written directory place path record
        | .error error =>
          if error.isBadValue then { exit := 2, output := error.message ++ "\n", directory }
          else { exit := 1, directory, escape := some (.record error) }

def usage : String := "Usage: generate_golden_fields.py path/to/golden.yaml\n"

def command (directory : Directory) (arguments : List String) (bound : Nat) : Option Outcome :=
  match arguments with
  | [path] => update directory path bound
  | _ => some { exit := 1, output := usage, directory }

end Record
end Intcode
