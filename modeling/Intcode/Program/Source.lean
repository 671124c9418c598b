import Intcode.Exchange
import Intcode.Settings

/-! Running a program straight from its text, under settings, with inputs that may
still be values of any type. -/

namespace Intcode

inductive Failure where
  | settings (error : Settings.Error)
  | program (error : InvalidWord)
  | fault (fault : Fault)
  /-- An input that the program asked for is no word. -/
  | input (error : IntegerError)
  /-- The inputs are a value of a type that holds no items. -/
  | noItems (kind : String)
deriving DecidableEq, Repr

def Failure.message : Failure → String
  | settings error => error.message
  | program error => error.message
  | fault cause => cause.message
  | input error => error.message
  | noItems kind => "'" ++ kind ++ "' object is not iterable"

/-- Input words up to the first value that is none. That value matters only if
the program asks for it. -/
structure Supply where
  words : List Int
  broken : Option IntegerError := none
deriving DecidableEq, Repr

namespace Supply

def ofItems : List Value → Supply
  | [] => ⟨[], none⟩
  | item :: rest =>
    match item.integer with
    | .error error => ⟨[], some error⟩
    | .ok word => let supply := ofItems rest; ⟨word :: supply.words, supply.broken⟩

/-- The inputs that a value holds: the items of a list or a set, the characters of a
text, the bytes of bytes or the keys of a mapping. Whatever counts as false holds
none. -/
def ofValue (value : Value) : Except Failure Supply :=
  if value.isTruthy then
    match value with
    | .list items | .set items => .ok (ofItems items)
    | .pair left right => .ok (ofItems [left, right])
    | .text text => .ok (ofItems (text.toList.map fun c => .text (String.singleton c)))
    | .broken codes => .ok (ofItems (codes.map fun code => .ofCodes [code]))
    | .bytes bytes => .ok (ofItems (bytes.map fun byte => .int byte.toNat))
    | .mapping entries => .ok (ofItems (entries.map Prod.fst))
    | other => .error (.noItems other.kind)
  else .ok ⟨[], none⟩

/-- What a fault of the run means to whoever gave the supply. -/
def blame (supply : Supply) (fault : Fault) : Failure :=
  match fault, supply.broken with
  | .inputDrained, some error => .input error
  | _, _ => .fault fault

end Supply

structure SourceRun where
  outcome : Except Failure Exchange
  log : List String

def Exchange.report (exchange : Exchange) : String :=
  "run_source: " ++ toString exchange.outputs.size ++ " outputs in " ++
    toString exchange.session.machine.steps ++ " steps"

namespace Program

/-- Run a text under the settings that a value describes. Settings are read
first, then the program, then the inputs. -/
def runSource (directory : Directory) (text : String) (inputs : Except Failure Supply)
    (config : Value) (bound : Nat) : Option SourceRun :=
  let ready : Except Failure (Supply × Exchange) := do
    let settings ← (Settings.load directory config).mapError .settings
    let program ← (parse text).mapError .program
    let supply ← inputs
    return (supply, program.exchange supply.words settings.trace settings.stepLimit)
  match ready with
  | .error failure => some ⟨.error failure, []⟩
  | .ok (supply, exchange) =>
    (Exchange.drive.answer bound exchange).map fun (outcome, after) =>
      match outcome with
      | .error fault => ⟨.error (supply.blame fault), after.session.lines⟩
      | .ok () => ⟨.ok after, after.session.lines ++ [after.report]⟩

end Program
end Intcode
