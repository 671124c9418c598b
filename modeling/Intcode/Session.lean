import Intcode.Call
import Intcode.Machine
import Intcode.Passage

/-! A session is a machine together with the journal of what it did. Its host
resumes it, and it runs on until it needs the host again. -/

namespace Intcode

/-- Something a watcher of a machine can see. -/
inductive Event where
  /-- A program was loaded into so many cells. -/
  | loaded (cells : Nat)
  /-- An instruction was decoded; reported only when tracing. -/
  | fetched (pc relativeBase : Int) (instruction : Instruction)
  | emitted (value : Int)
  | halted (steps : Nat)
  /-- A word was supplied that nobody had asked for. -/
  | dropped (value : Int)
deriving DecidableEq, Repr

namespace Event

/-- What is logged of an event. Emitted words go to the output, not to the log. -/
def passage? : Event → Option Passage
  | loaded cells => some ⟨"Runtime: loaded " ++ toString cells ++ " non-zero words", [cells]⟩
  | fetched pc relativeBase instruction =>
    some ⟨"pc=" ++ toString pc ++ " rb=" ++ toString relativeBase ++ " " ++ instruction.mnemonic,
      pc :: relativeBase :: instruction.numbers⟩
  | emitted _ => none
  | halted steps => some ⟨"HALT encountered after " ++ toString steps ++ " steps", [steps]⟩
  | dropped value => some ⟨"resume: no input pending, dropping " ++ toString value, [value]⟩

/-- The log line of an event. A line that cannot be written is lost, and nothing else is. -/
def line? (event : Event) : Option String := event.passage?.bind (·.write.toOption)

end Event

/-- A machine and its journal, the latest event last. -/
structure Session where
  machine : Machine
  journal : Array Event := #[]

namespace Session

def load (words : List Int) (trace : Bool) (stepLimit : Option Int) : Session :=
  let machine := Machine.load words trace stepLimit
  { machine, journal := #[.loaded machine.memory.size] }

def note (session : Session) (event : Event) : Session :=
  { session with journal := session.journal.push event }

def withMachine (session : Session) (machine : Machine) : Session :=
  { session with machine }

def lines (session : Session) : List String :=
  session.journal.toList.filterMap Event.line?

/-- Enter what an effect lets a watcher see. -/
def noteEffect (session : Session) : Effect → Session
  | .emit value => session.note (.emitted value)
  | .halt => session.note (.halted (session.machine.steps + 1))
  | _ => session

/-- Apply an effect without moving on. -/
def apply (session : Session) (effect : Effect) : Session :=
  (session.noteEffect effect).withMachine (session.machine.apply effect)

/-- Perform one instruction given by hand, without moving on. The answer is the
address it would jump to. -/
def execute (session : Session) (instruction : Instruction) :
    Except Fault (Option Int) × Session :=
  match instruction.effect session.machine with
  | .error fault => (.error fault, session)
  | .ok effect => (.ok effect.target?, session.apply effect)

/-- Fetch one instruction and perform it. -/
def tick (session : Session) : Except Fault Unit × Session :=
  match session.machine.fetch with
  | .error fault => (.error fault, session)
  | .ok instruction =>
    let traced :=
      if session.machine.trace then
        session.note (.fetched session.machine.pc session.machine.relativeBase instruction)
      else session
    match instruction.effect session.machine with
    | .error fault => (.error fault, traced)
    | .ok effect =>
      (.ok (), (traced.noteEffect effect).withMachine
        (session.machine.perform instruction.size effect))

/-- Perform instructions until one suspends the machine. -/
def run : (bound : Nat) → Session → Option (Except Fault Suspension × Session)
  | 0, _ => none
  | bound + 1, session =>
    match session.tick with
    | (.error fault, after) => some (.error fault, after)
    | (.ok (), after) =>
      match after.machine.suspension with
      | some suspension => some (.ok suspension, after)
      | none => run bound after

/-- Forget where the machine stopped and run on. -/
def proceed : Call Session Suspension := fun bound session =>
  run bound (session.withMachine { session.machine with suspension := none })

def store (address value : Int) : Call Session Unit := do
  let session ← get
  let memory ← Call.ofExcept (session.machine.memory.write address value)
  set (session.withMachine { session.machine with memory })

/-- Run on to the next suspension. A machine that awaits input gets `value`; one
that does not has no use for it, and it is dropped. -/
def resume (value : Option Int) : Call Session Suspension := do
  match (← get).machine.suspension, value with
  | some .complete, _ => throw .alreadyComplete
  | some (.awaitingInput _), none => throw .inputExpected
  | some (.awaitingInput address), some value => store address value
  | _, some value => modify (·.note (.dropped value))
  | _, none => pure ()
  proceed

end Session
end Intcode
