import Intcode.Program
import Intcode.Session.Stepping

/-! Running a program to its end against a host that only serves words and takes
words. -/

namespace Intcode

/-- A machine connected to a supply of input words, with what it has delivered
so far. A closed exchange refuses both directions. -/
structure Exchange where
  session : Session
  inputs : List Int := []
  outputs : Array Int := #[]
  closed : Bool := false

namespace Exchange

def act {α : Type} : Call Session α → Call Exchange α :=
  Call.onPart session fun session exchange => { exchange with session }

def take : Call Exchange Int := do
  let exchange ← get
  if exchange.closed then throw .inputRefused
  match exchange.inputs with
  | [] => throw .inputDrained
  | value :: rest =>
    set { exchange with inputs := rest }
    return value

def deliver (value : Int) : Call Exchange Unit := do
  let exchange ← get
  if exchange.closed then throw (.outputRefused value)
  set { exchange with outputs := exchange.outputs.push value }

/-- Serve one suspension and run on to the next. -/
def serve : Suspension → Call Exchange Suspension
  | .awaitingInput _ => do
    let value ← take
    act (Session.resume (some value))
  | .producedOutput value => do
    deliver value
    act (Session.resume none)
  | .complete => return .complete

def serveAll : (rounds : Nat) → Suspension → Call Exchange Unit
  | _, .complete => return ()
  | 0, _ => Call.unfinished
  | rounds + 1, suspension => do
    serveAll rounds (← serve suspension)

def drive : Call Exchange Unit := do
  let rounds ← read
  serveAll rounds (← act (Session.resume none))

def collect : Call Exchange (List Int) := do
  drive
  return (← get).outputs.toList

/-- Store two words at addresses 1 and 2, run without input or output and answer
with the word at address zero. -/
def evaluate (noun verb : Int) : Call Exchange Int := do
  modify ({ · with closed := true })
  act (Session.store 1 noun)
  act (Session.store 2 verb)
  drive
  Call.ofExcept ((← get).session.machine.memory.read 0)

end Exchange

def Program.exchange (program : Program) (inputs : List Int) (trace : Bool)
    (stepLimit : Option Int) : Exchange :=
  { session := program.start trace stepLimit, inputs }

end Intcode
