import Intcode.Instruction.Decoding

/-! A machine at rest and what one instruction does to it. An instruction first
works out its whole effect, which may fail, and then applies it, which cannot:
so a failed instruction leaves no trace. -/

namespace Intcode

/-- A machine between two instructions. -/
structure Machine where
  memory : Memory
  pc : Int := 0
  relativeBase : Int := 0
  /-- Where the machine stopped, if it was ever run and the last run did not fail. -/
  suspension : Option Suspension := none
  steps : Nat := 0
  /-- The number of steps after which no further instruction is fetched. -/
  stepLimit : Option Int := none
  /-- Report each instruction before it is performed. -/
  trace : Bool := false

/-- What an instruction does once its operands are looked up. -/
inductive Effect where
  | write (cell : Nat) (value : Int)
  | await (address : Int)
  | emit (value : Int)
  | shiftBase (amount : Int)
  | jump (target : Int)
  | pass
  | halt
deriving DecidableEq, Repr

/-- The address to go on at, if it is not the next instruction. -/
def Effect.target? : Effect → Option Int
  | .jump target => some target
  | _ => none

namespace Machine

def load (words : List Int) (trace : Bool) (stepLimit : Option Int) : Machine :=
  { memory := .ofWords words, trace, stepLimit }

def isComplete (machine : Machine) : Bool := machine.suspension = some .complete

/-- The address an operand writes to. -/
def address (machine : Machine) : Operand → Except Fault Int
  | .position address => .ok address
  | .immediate value => .error (.immediateTarget value)
  | .relative offset => .ok (machine.relativeBase + offset)
  | .bare _ => .error .operandWithoutMode

def value (machine : Machine) : Operand → Except Fault Int
  | .immediate value => .ok value
  | operand => do machine.memory.read (← machine.address operand)

/-- Apply an effect to memory, relative base and suspension. -/
def apply (machine : Machine) : Effect → Machine
  | .write cell value => { machine with memory := machine.memory.put cell value }
  | .await address => { machine with suspension := some (.awaitingInput address) }
  | .emit value => { machine with suspension := some (.producedOutput value) }
  | .shiftBase amount => { machine with relativeBase := machine.relativeBase + amount }
  | .halt => { machine with suspension := some .complete }
  | .jump _ | .pass => machine

/-- Apply the effect of an instruction of the given size and move on. A halted
machine stays on its last instruction. -/
def perform (machine : Machine) (size : Nat) (effect : Effect) : Machine :=
  let pc := match effect with
    | .halt => machine.pc
    | .jump target => target
    | _ => machine.pc + size
  { machine.apply effect with pc, steps := machine.steps + 1 }

/-- The next instruction, unless the budget is used up. -/
def fetch (machine : Machine) : Except Fault Instruction :=
  match machine.stepLimit with
  | some limit =>
    if limit ≤ machine.steps then .error (.stepLimit limit machine.pc)
    else Instruction.decode machine.memory machine.pc
  | none => Instruction.decode machine.memory machine.pc

end Machine

namespace Instruction

def operand (instruction : Instruction) (index : Nat) : Except Fault Operand :=
  match instruction.operands[index]? with
  | some operand => .ok operand
  | none => .error .missingOperand

def valueOf (instruction : Instruction) (machine : Machine) (index : Nat) : Except Fault Int := do
  machine.value (← instruction.operand index)

def addressOf (instruction : Instruction) (machine : Machine) (index : Nat) : Except Fault Int := do
  machine.address (← instruction.operand index)

/-- The effect of storing what `combine` makes of the first two operands at the
third. The target's mode is checked before any operand is read, and whether it
is a cell only after both were. -/
def storing (instruction : Instruction) (machine : Machine) (combine : Int → Int → Int) :
    Except Fault Effect := do
  let target ← instruction.addressOf machine 2
  let left ← instruction.valueOf machine 0
  let right ← instruction.valueOf machine 1
  return .write (← Memory.cell target) (combine left right)

/-- The effect of jumping to the second operand if the first passes `test`. The
target is looked up only when the jump is taken. -/
def jumping (instruction : Instruction) (machine : Machine) (test : Int → Bool) :
    Except Fault Effect := do
  if test (← instruction.valueOf machine 0) then
    return .jump (← instruction.valueOf machine 1)
  else
    return .pass

/-- The effect of an instruction. An input's address is not checked before the
word to store there has arrived. -/
def effect (instruction : Instruction) (machine : Machine) : Except Fault Effect :=
  match instruction.operation with
  | .add => instruction.storing machine (· + ·)
  | .multiply => instruction.storing machine (· * ·)
  | .input => .await <$> instruction.addressOf machine 0
  | .output => .emit <$> instruction.valueOf machine 0
  | .jumpIfTrue => instruction.jumping machine (· ≠ 0)
  | .jumpIfFalse => instruction.jumping machine (· = 0)
  | .lessThan => instruction.storing machine fun left right => if left < right then 1 else 0
  | .equals => instruction.storing machine fun left right => if left = right then 1 else 0
  | .adjustBase => .shiftBase <$> instruction.valueOf machine 0
  | .halt => .ok .halt

end Instruction
end Intcode
