import Intcode.Program
import Intcode.Session.Stepping

/-! Amplifiers run one program each, are first told their phase and then turn one
signal into another. A chain passes a signal through once; a feedback loop feeds
the last amplifier back into the first until all have halted. -/

namespace Intcode

structure Amplifier where
  session : Session
  done : Bool := false

structure Settlement where
  phases : List Int
  rounds : Nat
  signal : Int
deriving DecidableEq, Repr

def bracketed (numbers : List Int) : String :=
  "[" ++ ", ".intercalate (numbers.map toString) ++ "]"

def Settlement.line (settlement : Settlement) : String :=
  "feedback loop " ++ bracketed settlement.phases ++ " settled after " ++
    toString settlement.rounds ++ " rounds -> " ++ toString settlement.signal

namespace Amplifier

variable {σ : Type}

def prime (program : Program) (phase : Int) : Call σ Session := do
  let ((), session) ← Call.onOwn (program.start false none) do
    match ← Session.resume none with
    | .awaitingInput _ => discard (Session.resume (some phase))
    | found => throw (.phaseNotRequested found)
  return session

def relay (signal : Int) : List Session → Call σ Int
  | [] => return signal
  | session :: rest => do
    match ← Call.onOwn session (Session.step signal) with
    | ((none, _), _) => throw .noSignal
    | ((some output, _), _) => relay output rest

/-- Prime one amplifier per phase, then pass `signal` through all of them. -/
def chain (program : Program) (phases : List Int) (signal : Int) : Call σ Int := do
  relay signal (← phases.mapM (prime program))

/-- Give every amplifier that has not halted one turn, in order. The answer is
the last signal and the amplifiers after it. -/
def round (signal : Int) : List Amplifier → Call σ (Int × List Amplifier)
  | [] => return (signal, [])
  | amplifier :: rest => do
    if amplifier.done then
      let (last, others) ← round signal rest
      return (last, amplifier :: others)
    else
      let ((output, done), session) ← Call.onOwn amplifier.session (Session.step signal)
      let (last, others) ← round (output.getD signal) rest
      return (last, ⟨session, done⟩ :: others)

/-- Repeat rounds until every amplifier has halted. The answer is the last
signal and the number of rounds. -/
def settle (rounds : Nat) (signal : Int) (amplifiers : List Amplifier) :
    (bound : Nat) → Call σ (Int × Nat)
  | 0 => if amplifiers.all (·.done) then return (signal, rounds) else Call.unfinished
  | bound + 1 => do
    if amplifiers.all (·.done) then return (signal, rounds)
    let (last, after) ← round signal amplifiers
    settle (rounds + 1) last after bound

def feedback (program : Program) (phases : List Int) (signal : Int) :
    Call (Array Settlement) Int := do
  let sessions ← phases.mapM (prime program)
  let (last, rounds) ← settle 0 signal (sessions.map (⟨·, false⟩)) (← read)
  modify (·.push ⟨phases, rounds, last⟩)
  return last

end Amplifier
end Intcode
