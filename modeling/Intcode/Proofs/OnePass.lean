import Intcode.Instruction
import Intcode.Proofs.Loops

/-! A plain interpreter, to compare machines with. It runs in one pass and is never
suspended: input is taken and stored, and output added to the list, by the very
instruction that asks for it. Its memory is a total function to machine words, and every
step reads its instruction anew. -/

namespace Intcode.OnePass

/-- The words in memory are signed 64-bit words; addresses are plain integers. -/
structure State where
  memory : Nat → Int64
  pc : Int := 0
  relativeBase : Int := 0
  steps : Nat := 0
  /-- The inputs that are still to be taken. -/
  inputs : List Int
  outputs : List Int64 := []

namespace State

def load (words inputs : List Int) : State :=
  { memory := fun cell => .ofInt (words.getD cell 0), inputs }

def read (state : State) (address : Int) : Except Fault Int64 :=
  if 0 ≤ address then .ok (state.memory address.toNat) else .error (.negativeAddress address)

def put (state : State) (cell : Nat) (value : Int64) : State :=
  { state with memory := fun other => if other = cell then value else state.memory other }

def write (state : State) (address : Int) (value : Int64) : Except Fault State :=
  if 0 ≤ address then .ok (state.put address.toNat value) else .error (.negativeAddress address)

def word (state : State) : Int64 := state.memory state.pc.toNat

/-- The decimal digit of the instruction word that selects an operand's mode. -/
def digit (state : State) (index : Nat) : Nat := state.word.toInt.toNat / Nat.pow 10 (index + 2) % 10

def named (state : State) : Option Operation :=
  if 0 ≤ state.word.toInt then Operation.ofCode? (state.word.toInt.toNat % 100) else none

/-- The operation at the program counter, unless its word or a mode digit is unknown. -/
def fetch (state : State) : Except Fault Operation :=
  if state.pc < 0 then .error (.negativeAddress state.pc)
  else match state.named with
    | none => .error (.unknownOpcode state.word.toInt state.pc)
    | some operation =>
      match (List.range operation.arity).find? fun index => decide (2 < state.digit index) with
      | some index => .error (.unknownMode (state.digit index) state.word.toInt state.pc)
      | none => .ok operation

def operand (state : State) (index : Nat) : Int64 := state.memory (state.pc.toNat + 1 + index)

def place (state : State) (index : Nat) : Except Fault Int :=
  match state.digit index with
  | 0 => .ok (state.operand index).toInt
  | 1 => .error (.immediateTarget (state.operand index).toInt)
  | _ => .ok (state.relativeBase + (state.operand index).toInt)

def value (state : State) (index : Nat) : Except Fault Int64 :=
  match state.digit index with
  | 0 => state.read (state.operand index).toInt
  | 1 => .ok (state.operand index)
  | _ => state.read (state.relativeBase + (state.operand index).toInt)

def goto (state : State) (address : Int) : State :=
  { state with pc := address, steps := state.steps + 1 }

def next (state : State) (arity : Nat) : State := state.goto (state.pc + (arity + 1 : Nat))

/-- Store at the third operand what the first two make. -/
def combine (state : State) (operator : Int64 → Int64 → Int64) : Except Fault State := do
  let target ← state.place 2
  let left ← state.value 0
  let right ← state.value 1
  return (← state.write target (operator left right)).next 3

/-- Go on at the second operand if the first passes the test. -/
def jump (state : State) (test : Int64 → Bool) : Except Fault State := do
  if test (← state.value 0) then
    return state.goto (← state.value 1).toInt
  else
    return state.next 2

/-- Take an input and store it at once. The supply is asked before the address is used. -/
def take (state : State) : Except Fault State := do
  let target ← state.place 0
  match state.inputs with
  | [] => throw .inputDrained
  | input :: inputs => return { ← state.write target (.ofInt input) with inputs }.next 1

def emit (state : State) : Except Fault State := do
  return { state with outputs := state.outputs ++ [← state.value 0] }.next 1

def shift (state : State) : Except Fault State := do
  return { state with relativeBase := state.relativeBase + (← state.value 0).toInt }.next 1

def perform (state : State) : Operation → Except Fault State
  | .add => state.combine (· + ·)
  | .multiply => state.combine (· * ·)
  | .input => state.take
  | .output => state.emit
  | .jumpIfTrue => state.jump (· ≠ 0)
  | .jumpIfFalse => state.jump (· = 0)
  | .lessThan => state.combine fun left right => if left < right then 1 else 0
  | .equals => state.combine fun left right => if left = right then 1 else 0
  | .adjustBase => state.shift
  | .halt => .ok (state.goto state.pc)

/-- The state after one more instruction, with an answer if that was a halt. -/
def step (state : State) : Except Fault (Option Unit × State) := do
  let operation ← state.fetch
  let after ← state.perform operation
  return (if operation = .halt then some () else none, after)

/-- Perform one instruction. A fault leaves the state as it was before it. -/
def round : Round State Unit := fun state =>
  match state.step with
  | .error fault => (.error fault, state)
  | .ok (answer, after) => (.ok answer, after)

/-- Perform instructions until one halts or fails. -/
def run : Call State Unit := Round.repeated round

example : (run 3 (.load [3, 9, 4, 9, 99] [-7])).map (fun (_, after) =>
    (after.outputs, after.steps, after.pc)) = some ([-7], 3, 4) := rfl

end State
end Intcode.OnePass
