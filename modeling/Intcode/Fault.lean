import Intcode.Suspension
import Intcode.Text.Numeral

/-! Everything that can stop a machine or the host that steps it. A fault keeps
its cause; the wording is `Fault.message` alone. A number that is too long to be
written leaves a report without any other words. -/

namespace Intcode

/-- The cause of a failed call. -/
inductive Fault where
  /-- The word at `address` names no operation. -/
  | unknownOpcode (word address : Int)
  /-- A mode digit of the instruction word is none of the three modes. -/
  | unknownMode (digit : Nat) (word address : Int)
  | negativeAddress (address : Int)
  | immediateTarget (value : Int)
  | operandWithoutMode
  /-- The instruction was built with fewer operands than its operation uses. -/
  | missingOperand
  /-- The instruction budget is used up. -/
  | stepLimit (limit pc : Int)
  | alreadyComplete
  | inputExpected
  | inputBeforeOutput
  /-- A second output followed before the next input request. -/
  | secondOutput (first second : Int)
  /-- Input was requested after `got` of the `wanted` outputs. -/
  | inputDuringOutputs (got wanted : Int)
  /-- Value number `index` of `total` met a machine that does not await one. -/
  | notAwaiting (index total : Nat)
  | outputBeforeInput (value : Int)
  | inputDrained
  | inputRefused
  | outputRefused (value : Int)
  /-- The amplifier stopped elsewhere than at a request for its phase. -/
  | phaseNotRequested (found : Suspension)
  /-- The amplifier halted without passing a signal on. -/
  | noSignal
  | commandCutShort
  /-- The cabinet's program halted inside a draw command. -/
  | drawCutShort (x : Int)
  | unknownColour (value : Int)
  | unknownTurn (value : Int)
  | unknownTile (value : Int)
  | numberTooLong
deriving DecidableEq, Repr

namespace Fault

/-- What a caller can tell faults apart by. -/
inductive Kind where
  | decoding
  | addressing
  | protocol
  | budget
  | port
  | drained
  | choice
  | unaddressable
  | operandCount
  /-- A number has too many digits to be written, so that nothing else is reported. -/
  | unwritable
deriving DecidableEq, Repr

/-- The numbers without bounds that the report of a fault holds. -/
def numbers : Fault → List Int
  | unknownOpcode word address => [word, address]
  | unknownMode _ word address => [word, address]
  | negativeAddress number | immediateTarget number => [number]
  | stepLimit limit pc => [limit, pc]
  | secondOutput first second => [first, second]
  | inputDuringOutputs got wanted => [got, wanted]
  | outputBeforeInput number | outputRefused number | drawCutShort number => [number]
  | phaseNotRequested found => found.number?.toList
  | unknownColour number | unknownTurn number | unknownTile number => [number]
  | operandWithoutMode | missingOperand | alreadyComplete | inputExpected | inputBeforeOutput
  | notAwaiting .. | inputDrained | inputRefused | noSignal | commandCutShort
  | numberTooLong => []

/-- The report of a fault cannot be written: a number in it has too many digits. -/
def isUnwritable (fault : Fault) : Bool := fault.numbers.any Text.Numeral.isTooLong

/-- The kind of a fault by its cause. -/
def causeKind : Fault → Kind
  | unknownOpcode .. | unknownMode .. => .decoding
  | negativeAddress _ | immediateTarget _ => .addressing
  | operandWithoutMode => .unaddressable
  | missingOperand => .operandCount
  | stepLimit .. => .budget
  | alreadyComplete | inputExpected | inputBeforeOutput | secondOutput .. | inputDuringOutputs ..
  | notAwaiting .. | outputBeforeInput _ | phaseNotRequested _ | noSignal | commandCutShort
  | drawCutShort _ => .protocol
  | inputDrained => .drained
  | inputRefused | outputRefused _ => .port
  | unknownColour _ | unknownTurn _ | unknownTile _ => .choice
  | numberTooLong => .unwritable

/-- The kind of a fault as it is reported. -/
def kind (fault : Fault) : Kind := if fault.isUnwritable then .unwritable else fault.causeKind

def wording : Fault → String
  | unknownOpcode word address =>
    "unknown opcode " ++ toString word ++ " at address " ++ toString address
  | unknownMode digit word address =>
    "unknown parameter mode " ++ toString digit ++ " in instruction " ++ toString word ++
      " at address " ++ toString address
  | negativeAddress address => "negative address " ++ toString address
  | immediateTarget value => "immediate parameter " ++ toString value ++ " used as write target"
  | operandWithoutMode => ""
  | missingOperand => "list index out of range"
  | stepLimit limit pc => "step limit " ++ toString limit ++ " exceeded at pc=" ++ toString pc
  | alreadyComplete => "already complete"
  | inputExpected => "expected to resume with input"
  | inputBeforeOutput => "expected output, machine requested more input"
  | secondOutput first second =>
    "expected a single output, got " ++ toString first ++ " then " ++ toString second
  | inputDuringOutputs got wanted =>
    "machine requested input after " ++ toString got ++ " of " ++ toString wanted ++ " outputs"
  | notAwaiting index total =>
    "machine not awaiting input for value " ++ toString index ++ " of " ++ toString total
  | outputBeforeInput value => "expected input request, machine produced " ++ toString value
  | inputDrained => "no more input"
  | inputRefused => "input not implemented"
  | outputRefused value => "output not implemented (got " ++ toString value ++ ")"
  | phaseNotRequested found =>
    "amplifier did not ask for its phase setting (got " ++ found.describe ++ ")"
  | noSignal => "amplifier halted without output"
  | commandCutShort => "robot program halted mid-command"
  | drawCutShort x => "draw command cut short after x=" ++ toString x
  | unknownColour value => toString value ++ " is not a valid Color"
  | unknownTurn value => toString value ++ " is not a valid Turn"
  | unknownTile value => toString value ++ " is not a valid Tile"
  | numberTooLong => Text.Numeral.tooLongMessage

/-- The text reported for a fault. -/
def message (fault : Fault) : String :=
  if fault.isUnwritable then Text.Numeral.tooLongMessage else fault.wording

end Fault
end Intcode
