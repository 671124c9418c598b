import Intcode.Session

/-! Ways to step a machine that fix the pattern of inputs and outputs in advance
and fail when the program keeps another. -/

namespace Intcode.Session

/-- Supply one word, collect one output and run on to the next request. The
answer is the output, absent if the machine halted without one, and whether the
machine has halted. -/
def step (value : Int) : Call Session (Option Int × Bool) := do
  match ← resume (some value) with
  | .complete => return (none, true)
  | .awaitingInput _ => throw .inputBeforeOutput
  | .producedOutput output =>
    match ← resume none with
    | .producedOutput second => throw (.secondOutput output second)
    | .complete => return (some output, true)
    | .awaitingInput _ => return (some output, false)

/-- Collect `missing` further outputs after `collected`, as part of a request
for `wanted`. -/
def drain (wanted : Int) : (missing : Nat) → (collected : List Int) →
    Call Session (Option (List Int))
  | 0, collected => return some collected
  | missing + 1, collected => do
    match ← resume none with
    | .complete => return none
    | .awaitingInput _ => throw (.inputDuringOutputs collected.length wanted)
    | .producedOutput value => drain wanted missing (collected ++ [value])

/-- Collect exactly `count` outputs; no answer if the machine halts first. -/
def stepRead (count : Int) : Call Session (Option (List Int)) :=
  drain count count.toNat []

/-- Supply `values` one after the other, each to a machine that awaits it. The
answer is where the machine then stands. -/
def feed (total index : Nat) : List Int → Call Session (Option Suspension)
  | [] => return (← get).machine.suspension
  | value :: rest => do
    match (← get).machine.suspension with
    | some (.awaitingInput _) => discard (resume (some value))
    | _ => throw (.notAwaiting index total)
    feed total (index + 1) rest

/-- Supply all of `values`, then collect `count` outputs. -/
def stepN (values : List Int) (count : Int) : Call Session (Option (List Int)) := do
  match ← feed values.length 0 values with
  | some .complete => return none
  | some (.producedOutput first) =>
    if !values.isEmpty && 0 < count then
      return (first :: ·) <$> (← stepRead (count - 1))
    else
      stepRead count
  | _ => stepRead count

/-- Run to the next input request. The answer is whether there is one; otherwise
the machine has halted. -/
def waitForInput : Call Session Bool := do
  match (← get).machine.suspension with
  | some (.awaitingInput _) => return true
  | some .complete => return false
  | _ =>
    match ← resume none with
    | .producedOutput value => throw (.outputBeforeInput value)
    | .awaitingInput _ => return true
    | .complete => return false

end Intcode.Session
