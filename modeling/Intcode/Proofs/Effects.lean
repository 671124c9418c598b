import Intcode.Machine
import Intcode.Proofs.Answers
import Intcode.Proofs.Decoding

/-! What an instruction that was decoded can do. It has an operand, with a mode,
wherever its operation looks for one, so that only addresses can make it fail. -/

namespace Intcode

open Outcome

private theorem Memory.read_fails {memory : Memory} {address : Int} {fault : Fault}
    (failed : memory.read address = .error fault) : fault = .negativeAddress address := by
  have outside := map_eq_error_iff.mp failed
  unfold Memory.cell at outside
  split at outside <;> cases outside
  rfl

namespace Machine

variable {machine : Machine} {mode : Mode} {word : Int} {fault : Fault}

private theorem address_fails (failed : machine.address (.ofMode mode word) = .error fault) :
    fault.causeKind = .addressing := by
  cases mode <;> cases failed
  rfl

private theorem value_fails (failed : machine.value (.ofMode mode word) = .error fault) :
    fault.causeKind = .addressing := by
  cases mode with
  | immediate => cases failed
  | position | relative => rw [Memory.read_fails failed]; rfl

end Machine

namespace Instruction

variable {memory : Memory} {address : Int} {instruction : Instruction} {machine : Machine}
  {index : Nat} {fault : Fault}

theorem Stands.operand_eq (stands : Stands memory address instruction)
    (below : index < instruction.operation.arity) :
    ∃ mode, instruction.operand index =
      .ok (.ofMode mode (memory.word (address.toNat + 1 + index))) := by
  obtain ⟨mode, _, found⟩ := stands.operand index below
  exact ⟨mode, by rw [Instruction.operand, found]⟩

theorem Stands.valueOf_fails (stands : Stands memory address instruction)
    (below : index < instruction.operation.arity)
    (failed : instruction.valueOf machine index = .error fault) : fault.causeKind = .addressing := by
  obtain ⟨mode, found⟩ := stands.operand_eq below
  rw [valueOf, found] at failed
  exact Machine.value_fails failed

private theorem Stands.addressOf_fails (stands : Stands memory address instruction)
    (below : index < instruction.operation.arity)
    (failed : instruction.addressOf machine index = .error fault) : fault.causeKind = .addressing := by
  obtain ⟨mode, found⟩ := stands.operand_eq below
  rw [addressOf, found] at failed
  exact Machine.address_fails failed

private theorem Stands.storing_fails (stands : Stands memory address instruction)
    (three : instruction.operation.arity = 3) {combine : Int → Int → Int}
    (failed : instruction.storing machine combine = .error fault) : fault.causeKind = .addressing := by
  unfold storing at failed
  rcases bind_eq_error_iff.mp failed with target | ⟨target, _, failed⟩
  · exact stands.addressOf_fails (by omega) target
  rcases bind_eq_error_iff.mp failed with left | ⟨left, _, failed⟩
  · exact stands.valueOf_fails (by omega) left
  rcases bind_eq_error_iff.mp failed with right | ⟨right, _, failed⟩
  · exact stands.valueOf_fails (by omega) right
  rcases bind_eq_error_iff.mp failed with outside | ⟨cell, _, impossible⟩
  · unfold Memory.cell at outside
    split at outside <;> cases outside
    rfl
  · cases impossible

private theorem Stands.jumping_fails (stands : Stands memory address instruction)
    (two : instruction.operation.arity = 2) {test : Int → Bool}
    (failed : instruction.jumping machine test = .error fault) : fault.causeKind = .addressing := by
  unfold jumping at failed
  rcases bind_eq_error_iff.mp failed with tested | ⟨value, _, failed⟩
  · exact stands.valueOf_fails (by omega) tested
  split at failed
  · rcases bind_eq_error_iff.mp failed with target | ⟨target, _, impossible⟩
    · exact stands.valueOf_fails (by omega) target
    · cases impossible
  · cases failed

/-- A decoded instruction fails only for an address that it may not use. -/
theorem Stands.effect_fails (stands : Stands memory address instruction)
    (failed : instruction.effect machine = .error fault) : fault.causeKind = .addressing := by
  unfold Instruction.effect at failed
  cases known : instruction.operation <;> simp only [known] at failed
  case add | multiply | lessThan | equals => exact stands.storing_fails (by rw [known]; rfl) failed
  case jumpIfTrue | jumpIfFalse => exact stands.jumping_fails (by rw [known]; rfl) failed
  case input =>
    exact stands.addressOf_fails (by rw [known]; exact Nat.one_pos) (map_eq_error_iff.mp failed)
  case output | adjustBase =>
    exact stands.valueOf_fails (by rw [known]; exact Nat.one_pos) (map_eq_error_iff.mp failed)
  case halt => cases failed

theorem decode_fails (failed : decode memory address = .error fault) :
    fault.causeKind = .decoding ∨ fault.causeKind = .addressing := by
  by_cases inside : 0 ≤ address
  · rw [decode_of_nonneg inside] at failed
    split at failed
    · cases failed
      exact Or.inl rfl
    · split at failed <;> cases failed
      exact Or.inl rfl
  · rw [decode_of_negative (Int.not_le.mp inside)] at failed
    cases failed
    exact Or.inr rfl

/-- Where an instruction's effect comes from: its operation, and the operand it looks up for
the host, for the base or for a jump. -/
inductive Yields (instruction : Instruction) (machine : Machine) : Effect → Prop where
  | write (stores : instruction.operation.arity = 3) : Yields instruction machine (.write cell value)
  | await (known : instruction.operation = .input)
    (found : instruction.addressOf machine 0 = .ok target) : Yields instruction machine (.await target)
  | emit (known : instruction.operation = .output)
    (found : instruction.valueOf machine 0 = .ok value) : Yields instruction machine (.emit value)
  | shiftBase (known : instruction.operation = .adjustBase)
    (found : instruction.valueOf machine 0 = .ok amount) : Yields instruction machine (.shiftBase amount)
  | jump (tests : instruction.operation.arity = 2)
    (found : instruction.valueOf machine 1 = .ok target) : Yields instruction machine (.jump target)
  | pass (tests : instruction.operation.arity = 2) : Yields instruction machine .pass
  | halt (known : instruction.operation = .halt) : Yields instruction machine .halt

private theorem storing_yields {combine : Int → Int → Int} {effect : Effect}
    (three : instruction.operation.arity = 3)
    (found : instruction.storing machine combine = .ok effect) : instruction.Yields machine effect := by
  unfold storing at found
  obtain ⟨target, _, found⟩ := bind_eq_ok_iff.mp found
  obtain ⟨left, _, found⟩ := bind_eq_ok_iff.mp found
  obtain ⟨right, _, found⟩ := bind_eq_ok_iff.mp found
  obtain ⟨cell, _, found⟩ := bind_eq_ok_iff.mp found
  cases found
  exact .write three

private theorem jumping_yields {test : Int → Bool} {effect : Effect} (two : instruction.operation.arity = 2)
    (found : instruction.jumping machine test = .ok effect) : instruction.Yields machine effect := by
  unfold jumping at found
  obtain ⟨value, _, found⟩ := bind_eq_ok_iff.mp found
  split at found
  · obtain ⟨target, read, found⟩ := bind_eq_ok_iff.mp found
    cases found
    exact .jump two read
  · cases found
    exact .pass two

theorem effect_yields {effect : Effect} (found : instruction.effect machine = .ok effect) :
    instruction.Yields machine effect := by
  unfold Instruction.effect at found
  cases known : instruction.operation <;> simp only [known] at found
  case add | multiply | lessThan | equals => exact storing_yields (by rw [known]; rfl) found
  case jumpIfTrue | jumpIfFalse => exact jumping_yields (by rw [known]; rfl) found
  case input =>
    obtain ⟨address, read, rfl⟩ := map_eq_ok_iff.mp found
    exact .await known read
  case output =>
    obtain ⟨value, read, rfl⟩ := map_eq_ok_iff.mp found
    exact .emit known read
  case adjustBase =>
    obtain ⟨amount, read, rfl⟩ := map_eq_ok_iff.mp found
    exact .shiftBase known read
  case halt =>
    cases found
    exact .halt known

end Instruction
end Intcode
