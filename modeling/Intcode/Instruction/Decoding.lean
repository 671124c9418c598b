import Intcode.Instruction
import Intcode.Memory

/-! An instruction word holds the operation in its two low decimal digits and,
above them, one mode digit per operand, the first operand's lowest. Digits above
those are ignored. -/

namespace Intcode.Instruction

/-- The operation that an instruction word names; a negative word names none. -/
def operationOf? (word : Int) : Option Operation :=
  if 0 ≤ word then Operation.ofCode? (word.toNat % 100) else none

/-- The modes that the low digits of `digits` select, for `arity` operands. The
error is the first digit that selects none. -/
def modes : (arity digits : Nat) → Except Nat (List Mode)
  | 0, _ => .ok []
  | arity + 1, digits =>
    match Mode.ofDigit? (digits % 10) with
    | none => .error (digits % 10)
    | some mode => (mode :: ·) <$> modes arity (digits / 10)

def operandsAt (memory : Memory) (start : Nat) : List Mode → List Operand
  | [] => []
  | mode :: rest => Operand.ofMode mode (memory.word start) :: operandsAt memory (start + 1) rest

def decode (memory : Memory) (address : Int) : Except Fault Instruction := do
  let start ← Memory.cell address
  let word := memory.word start
  match operationOf? word with
  | none => .error (.unknownOpcode word address)
  | some operation =>
    match modes operation.arity (word.toNat / 100) with
    | .error digit => .error (.unknownMode digit word address)
    | .ok selected => .ok ⟨operation, operandsAt memory (start + 1) selected⟩

end Intcode.Instruction
