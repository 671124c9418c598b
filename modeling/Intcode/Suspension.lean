/-! A machine runs until it needs its host. Where it stopped is all that the
host is told. -/

namespace Intcode

/-- The places where a machine hands control back. -/
inductive Suspension where
  /-- The next word supplied is stored at `address`. -/
  | awaitingInput (address : Int)
  /-- `value` has just been emitted. -/
  | producedOutput (value : Int)
  /-- The machine has halted and cannot go on. -/
  | complete
deriving DecidableEq, Repr

namespace Suspension

def describe : Suspension → String
  | awaitingInput address => "AwaitingInput(address=" ++ toString address ++ ")"
  | producedOutput value => "ProducedOutput(value=" ++ toString value ++ ")"
  | complete => "Complete()"

def number? : Suspension → Option Int
  | awaitingInput number | producedOutput number => some number
  | complete => none

end Suspension
end Intcode
