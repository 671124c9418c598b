import Intcode.Proofs.Cells
import Intcode.Proofs.Effects
import Intcode.Proofs.OnePass

/-! One instruction of a machine and of the plain interpreter. They fetch the same
operation and find the same operands, and an operation that needs no host has the same
effect on both or fails for the same reason. -/

namespace Intcode

theorem Word.toInt_ofInt (value : Int) : (Int64.ofInt value).toInt = Word.wrap value :=
  Int64.toInt_ofInt

namespace OnePass

/-- The machine and the interpreter are about to perform the same instruction. -/
structure Mirrors (machine : Machine) (state : State) : Prop where
  word : ∀ cell, machine.memory.word cell = (state.memory cell).toInt
  pc : machine.pc = state.pc
  relativeBase : machine.relativeBase = state.relativeBase
  steps : machine.steps = state.steps

namespace Mirrors

variable {machine : Machine} {state : State}

theorem read (mirrors : Mirrors machine state) (address : Int) :
    machine.memory.read address = Int64.toInt <$> state.read address := by
  rw [Memory.read_eq, State.read]
  split
  · rw [mirrors.word]
    rfl
  · rfl

theorem word_eq (mirrors : Mirrors machine state) :
    machine.memory.word machine.pc.toNat = state.word.toInt := by
  rw [mirrors.word, mirrors.pc]
  rfl

theorem digit_eq (mirrors : Mirrors machine state) (index : Nat) :
    Instruction.modeDigit ((machine.memory.word machine.pc.toNat).toNat / 100) index =
      state.digit index := by
  have higher : 100 * Nat.pow 10 index = Nat.pow 10 (index + 2) := (Nat.pow_add' 10 index 2).symm
  rw [mirrors.word_eq]
  unfold Instruction.modeDigit State.digit
  rw [Nat.div_div_eq_div_mul, higher]

private theorem modes_of_none (mirrors : Mirrors machine state) {arity : Nat}
    (known : (List.range arity).find? (fun index => decide (2 < state.digit index)) = none) :
    ∃ selected, Instruction.modes arity ((machine.memory.word machine.pc.toNat).toNat / 100) =
      .ok selected := by
  rw [List.find?_range_eq_none] at known
  cases read : Instruction.modes arity ((machine.memory.word machine.pc.toNat).toNat / 100) with
  | ok selected => exact ⟨selected, rfl⟩
  | error digit =>
    obtain ⟨index, below, rfl, bad, _⟩ := Instruction.modes_eq_error_iff.mp read
    rw [mirrors.digit_eq, Mode.ofDigit?_eq_none_iff] at bad
    simpa [bad] using known index below

theorem modes_of_some (mirrors : Mirrors machine state) {arity index : Nat}
    (found : (List.range arity).find? (fun index => decide (2 < state.digit index)) = some index) :
    Instruction.modes arity ((machine.memory.word machine.pc.toNat).toNat / 100) =
      .error (state.digit index) := by
  obtain ⟨bad, below, before⟩ := List.find?_range_eq_some.mp found
  refine Instruction.modes_eq_error_iff.mpr
    ⟨index, List.mem_range.mp below, (mirrors.digit_eq index).symm, ?_, fun earlier smaller => ?_⟩
  · exact Mode.ofDigit?_eq_none_iff.mpr (of_decide_eq_true bad)
  · rw [mirrors.digit_eq, Ne, Mode.ofDigit?_eq_none_iff]
    simpa using before earlier smaller

theorem fetch (mirrors : Mirrors machine state) :
    state.fetch = (·.operation) <$> Instruction.decode machine.memory machine.pc := by
  unfold State.fetch
  by_cases negative : state.pc < 0
  · rw [if_pos negative, mirrors.pc, Instruction.decode_of_negative negative]
    rfl
  · have inside : 0 ≤ machine.pc := by
      rw [mirrors.pc]
      exact Int.not_lt.mp negative
    have named : Instruction.operationOf? (machine.memory.word machine.pc.toNat) = state.named := by
      rw [mirrors.word_eq]
      rfl
    rw [if_neg negative, Instruction.decode_of_nonneg inside, named]
    cases state.named with
    | none =>
      rw [mirrors.word_eq, mirrors.pc]
      rfl
    | some operation =>
      cases found : (List.range operation.arity).find? fun index => decide (2 < state.digit index) with
      | some index =>
        simp only [found, mirrors.modes_of_some found, Outcome.map_error]
        rw [mirrors.word_eq, mirrors.pc]
      | none =>
        obtain ⟨selected, read⟩ := mirrors.modes_of_none found
        simp only [found, read, Outcome.map_ok]

section Operands

variable {instruction : Instruction} {index : Nat} (mirrors : Mirrors machine state)
  (stands : Instruction.Stands machine.memory machine.pc instruction)
  (below : index < instruction.operation.arity)
include mirrors stands below

theorem operand :
    ∃ mode, Mode.ofDigit? (state.digit index) = some mode ∧
      instruction.operand index = .ok (.ofMode mode (state.operand index).toInt) := by
  obtain ⟨mode, selects, found⟩ := stands.operand index below
  refine ⟨mode, by rw [← mirrors.digit_eq, selects], ?_⟩
  rw [Instruction.operand, found, mirrors.word, mirrors.pc]
  rfl

theorem addressOf : instruction.addressOf machine index = state.place index := by
  obtain ⟨mode, selects, found⟩ := mirrors.operand stands below
  rw [Instruction.addressOf, found, Outcome.ok_bind, State.place]
  unfold Mode.ofDigit? at selects
  split at selects
  next zero => cases selects; rw [zero]; rfl
  next one => cases selects; rw [one]; rfl
  next two =>
    cases selects
    rw [two, ← mirrors.relativeBase]
    rfl
  next => cases selects

theorem valueOf : instruction.valueOf machine index = Int64.toInt <$> state.value index := by
  obtain ⟨mode, selects, found⟩ := mirrors.operand stands below
  rw [Instruction.valueOf, found, Outcome.ok_bind, State.value]
  unfold Mode.ofDigit? at selects
  split at selects
  next zero =>
    cases selects
    rw [zero]
    exact mirrors.read _
  next one => cases selects; rw [one]; rfl
  next two =>
    cases selects
    rw [two, ← mirrors.relativeBase]
    exact mirrors.read _
  next => cases selects

end Operands

theorem goto (mirrors : Mirrors machine state) (address : Int) :
    Mirrors { machine with pc := address, steps := machine.steps + 1 } (state.goto address) :=
  ⟨mirrors.word, rfl, mirrors.relativeBase, congrArg (· + 1) mirrors.steps⟩

theorem next (mirrors : Mirrors machine state) {arity size : Nat} (same : size = arity + 1) :
    Mirrors { machine with pc := machine.pc + size, steps := machine.steps + 1 } (state.next arity) := by
  rw [same, mirrors.pc]
  exact mirrors.goto _

theorem put (mirrors : Mirrors machine state) (cell : Nat) {value : Int} {word : Int64}
    (wraps : Word.wrap value = word.toInt) :
    Mirrors { machine with memory := machine.memory.put cell value } (state.put cell word) := by
  refine ⟨fun other => ?_, mirrors.pc, mirrors.relativeBase, mirrors.steps⟩
  change (machine.memory.put cell value).word other = (ite (other = cell) word _).toInt
  rw [Memory.word_put]
  split
  · exact wraps
  · exact mirrors.word other

end Mirrors

/-- The instruction's effect keeps the machine and the interpreter together, without input
or output, or both fail for the same reason. -/
inductive Alike (machine : Machine) (size : Nat) (state : State) :
    Except Fault Effect → Except Fault State → Prop where
  | fails : Alike machine size state (.error fault) (.error fault)
  | goes (mirrors : Mirrors (machine.perform size effect) next)
    (awake : (machine.perform size effect).suspension = machine.suspension)
    (inputs : next.inputs = state.inputs) (outputs : next.outputs = state.outputs) :
    Alike machine size state (.ok effect) (.ok next)

namespace Mirrors

variable {machine : Machine} {state : State} {instruction : Instruction}
  (mirrors : Mirrors machine state) (stands : Instruction.Stands machine.memory machine.pc instruction)
include mirrors stands

theorem storing (three : instruction.operation.arity = 3) {combine : Int → Int → Int}
    {operator : Int64 → Int64 → Int64}
    (wraps : ∀ left right, Word.wrap (combine left.toInt right.toInt) = (operator left right).toInt) :
    Alike machine instruction.size state (instruction.storing machine combine)
      (state.combine operator) := by
  have size : instruction.size = 3 + 1 := by rw [stands.size_eq, three]
  unfold Instruction.storing State.combine
  rw [mirrors.addressOf stands (by omega), mirrors.valueOf stands (by omega),
    mirrors.valueOf stands (by omega)]
  cases state.place 2 with
  | error fault => exact .fails
  | ok target =>
    cases state.value 0 with
    | error fault => exact .fails
    | ok left =>
      cases state.value 1 with
      | error fault => exact .fails
      | ok right =>
        simp only [Outcome.ok_bind, Outcome.map_ok, Memory.cell, State.write]
        split
        · exact .goes ((mirrors.put _ (wraps left right)).next size) rfl rfl rfl
        · exact .fails

theorem jumping (two : instruction.operation.arity = 2) {test : Int → Bool} {passes : Int64 → Bool}
    (same : ∀ value, test value.toInt = passes value) :
    Alike machine instruction.size state (instruction.jumping machine test) (state.jump passes) := by
  have size : instruction.size = 2 + 1 := by rw [stands.size_eq, two]
  unfold Instruction.jumping State.jump
  rw [mirrors.valueOf stands (by omega), mirrors.valueOf stands (by omega)]
  cases state.value 0 with
  | error fault => exact .fails
  | ok value =>
    simp only [Outcome.ok_bind, Outcome.map_ok, same]
    cases passes value with
    | false => exact .goes (mirrors.next size) rfl rfl rfl
    | true =>
      cases state.value 1 with
      | error fault => exact .fails
      | ok target => exact .goes (mirrors.goto target.toInt) rfl rfl rfl

private theorem shifting (one : instruction.operation.arity = 1) :
    Alike machine instruction.size state (.shiftBase <$> instruction.valueOf machine 0) state.shift := by
  have size : instruction.size = 1 + 1 := by rw [stands.size_eq, one]
  unfold State.shift
  rw [mirrors.valueOf stands (by omega)]
  cases state.value 0 with
  | error fault => exact .fails
  | ok amount =>
    have shifted : Mirrors { machine with relativeBase := machine.relativeBase + amount.toInt }
        { state with relativeBase := state.relativeBase + amount.toInt } :=
      ⟨mirrors.word, mirrors.pc, congrArg (· + amount.toInt) mirrors.relativeBase, mirrors.steps⟩
    exact .goes (shifted.next size) rfl rfl rfl

/-- Every operation but input, output and halt keeps the machine running. -/
theorem effect (running : instruction.operation ≠ .input ∧ instruction.operation ≠ .output ∧
      instruction.operation ≠ .halt) :
    Alike machine instruction.size state (instruction.effect machine)
      (state.perform instruction.operation) := by
  unfold Instruction.effect State.perform
  cases known : instruction.operation
  case add => exact mirrors.storing stands (by rw [known]; rfl) fun _ _ => (Int64.toInt_add _ _).symm
  case multiply =>
    exact mirrors.storing stands (by rw [known]; rfl) fun _ _ => (Int64.toInt_mul _ _).symm
  case lessThan =>
    refine mirrors.storing stands (by rw [known]; rfl) fun left right => ?_
    simp only [← Int64.lt_iff_toInt_lt]
    split <;> rfl
  case equals =>
    refine mirrors.storing stands (by rw [known]; rfl) fun left right => ?_
    simp only [Int64.toInt_inj]
    split <;> rfl
  case jumpIfTrue =>
    refine mirrors.jumping stands (by rw [known]; rfl) fun value => ?_
    simp [← Int64.toInt_inj]
  case jumpIfFalse =>
    refine mirrors.jumping stands (by rw [known]; rfl) fun value => ?_
    simp [← Int64.toInt_inj]
  case adjustBase => exact mirrors.shifting stands (by rw [known]; rfl)
  case input => exact (running.1 known).elim
  case output => exact (running.2.1 known).elim
  case halt => exact (running.2.2 known).elim

end Mirrors
end OnePass
end Intcode
