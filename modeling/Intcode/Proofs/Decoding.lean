import Intcode.Instruction.Decoding

/-! What decoding accepts and what it finds. The mode digits are read one after the
other, lowest first, so the first bad one is the one that is reported. -/

namespace Intcode

theorem Mode.ofDigit?_eq_none_iff {digit : Nat} : ofDigit? digit = none ↔ 2 < digit := by
  match digit with
  | 0 | 1 | 2 => decide
  | digit + 3 => simp [ofDigit?]

namespace Instruction

/-- The mode digit of the operand at an index, from the digits above the operation. -/
def modeDigit (digits index : Nat) : Nat := digits / Nat.pow 10 index % 10

theorem modeDigit_succ (digits index : Nat) :
    modeDigit digits (index + 1) = modeDigit (digits / 10) index := by
  unfold modeDigit
  rw [Nat.div_div_eq_div_mul, Nat.mul_comm]
  rfl

theorem modes_eq_ok_iff {arity digits : Nat} {selected : List Mode} :
    modes arity digits = .ok selected ↔ selected.length = arity ∧
      ∀ index < arity, Mode.ofDigit? (modeDigit digits index) = selected[index]? := by
  induction arity generalizing digits selected with
  | zero =>
    simp only [modes, Except.ok.injEq, List.length_eq_zero_iff, Nat.not_lt_zero, false_implies,
      implies_true, and_true]
    exact eq_comm
  | succ arity ih =>
    have lowest : modeDigit digits 0 = digits % 10 := by simp [modeDigit]
    unfold modes
    cases first : Mode.ofDigit? (digits % 10) with
    | none =>
      simp only [reduceCtorEq, false_iff]
      rintro ⟨length, each⟩
      have missing := each 0 (Nat.succ_pos arity)
      rw [lowest, first, eq_comm, List.getElem?_eq_none_iff] at missing
      omega
    | some mode =>
      simp only
      constructor
      · intro read
        cases rest : modes arity (digits / 10) with
        | error digit => rw [rest] at read; cases read
        | ok others =>
          rw [rest] at read
          cases read
          obtain ⟨length, each⟩ := ih.mp rest
          refine ⟨by simp [length], fun index inside => ?_⟩
          cases index with
          | zero => rw [lowest, first]; rfl
          | succ index =>
            rw [modeDigit_succ, each index (by omega)]
            rfl
      · rintro ⟨length, each⟩
        cases selected with
        | nil => cases length
        | cons head others =>
          have same := each 0 (Nat.succ_pos arity)
          rw [lowest, first] at same
          cases same
          have rest : modes arity (digits / 10) = .ok others := by
            refine ih.mpr ⟨by simpa using length, fun index inside => ?_⟩
            rw [← modeDigit_succ]
            exact each (index + 1) (by omega)
          rw [rest]
          rfl

theorem modes_eq_error_iff {arity digits digit : Nat} :
    modes arity digits = .error digit ↔ ∃ index < arity, digit = modeDigit digits index ∧
      Mode.ofDigit? digit = none ∧
      ∀ earlier < index, Mode.ofDigit? (modeDigit digits earlier) ≠ none := by
  induction arity generalizing digits with
  | zero => simp [modes]
  | succ arity ih =>
    have lowest : modeDigit digits 0 = digits % 10 := by simp [modeDigit]
    unfold modes
    cases first : Mode.ofDigit? (digits % 10) with
    | none =>
      simp only [Except.error.injEq]
      constructor
      · rintro rfl
        exact ⟨0, Nat.succ_pos arity, lowest.symm, first, fun _ impossible => by omega⟩
      · rintro ⟨index, _, rfl, _, before⟩
        cases index with
        | zero => exact lowest.symm
        | succ index => exact (before 0 (Nat.succ_pos index) (by rw [lowest, first])).elim
    | some mode =>
      have shift : (mode :: ·) <$> modes arity (digits / 10) = .error digit ↔
          modes arity (digits / 10) = .error digit := by
        cases modes arity (digits / 10) <;> simp [Functor.map, Except.map]
      rw [shift, ih]
      constructor
      · rintro ⟨index, inside, rfl, bad, before⟩
        refine ⟨index + 1, by omega, (modeDigit_succ digits index).symm, bad, fun earlier smaller => ?_⟩
        cases earlier with
        | zero => simp [lowest, first]
        | succ earlier =>
          rw [modeDigit_succ]
          exact before earlier (by omega)
      · rintro ⟨index, inside, rfl, bad, before⟩
        cases index with
        | zero => rw [lowest, first] at bad; cases bad
        | succ index =>
          refine ⟨index, by omega, modeDigit_succ digits index, bad, fun earlier smaller => ?_⟩
          rw [← modeDigit_succ]
          exact before (earlier + 1) (by omega)

private theorem length_operandsAt (memory : Memory) (start : Nat) (selected : List Mode) :
    (operandsAt memory start selected).length = selected.length := by
  induction selected generalizing start with
  | nil => rfl
  | cons mode rest ih => simp [operandsAt, ih]

private theorem getElem?_operandsAt (memory : Memory) (start : Nat) (selected : List Mode) (index : Nat) :
    (operandsAt memory start selected)[index]? =
      selected[index]?.map fun mode => Operand.ofMode mode (memory.word (start + index)) := by
  induction selected generalizing start index with
  | nil => rfl
  | cons mode rest ih =>
    cases index with
    | zero => rfl
    | succ index =>
      rw [operandsAt, List.getElem?_cons_succ, List.getElem?_cons_succ, ih]
      rw [Nat.add_right_comm, Nat.add_assoc]

/-- The instruction that stands at an address: its word names the operation, and each
operand is made of a mode digit and the word in its place. -/
structure Stands (memory : Memory) (address : Int) (instruction : Instruction) : Prop where
  inside : 0 ≤ address
  operation : operationOf? (memory.word address.toNat) = some instruction.operation
  length : instruction.operands.length = instruction.operation.arity
  operand : ∀ index < instruction.operation.arity, ∃ mode,
    Mode.ofDigit? (modeDigit ((memory.word address.toNat).toNat / 100) index) = some mode ∧
    instruction.operands[index]? =
      some (.ofMode mode (memory.word (address.toNat + 1 + index)))

theorem Stands.size_eq {memory : Memory} {address : Int} {instruction : Instruction}
    (stands : Stands memory address instruction) : instruction.size = instruction.operation.arity + 1 := by
  rw [size, stands.length]

theorem decode_of_negative {memory : Memory} {address : Int} (negative : address < 0) :
    decode memory address = .error (.negativeAddress address) := by
  unfold decode Memory.cell
  rw [if_neg (by omega)]
  rfl

theorem decode_of_nonneg {memory : Memory} {address : Int} (inside : 0 ≤ address) :
    decode memory address = match operationOf? (memory.word address.toNat) with
      | none => .error (.unknownOpcode (memory.word address.toNat) address)
      | some operation =>
        match modes operation.arity ((memory.word address.toNat).toNat / 100) with
        | .error digit => .error (.unknownMode digit (memory.word address.toNat) address)
        | .ok selected => .ok ⟨operation, operandsAt memory (address.toNat + 1) selected⟩ := by
  unfold decode Memory.cell
  rw [if_pos inside]
  rfl

/-- Decoding finds exactly the instruction that stands at the address. -/
theorem decode_eq_ok_iff {memory : Memory} {address : Int} {instruction : Instruction} :
    decode memory address = .ok instruction ↔ Stands memory address instruction := by
  constructor
  · intro decoded
    have inside : 0 ≤ address := by
      apply Int.not_lt.mp
      intro negative
      rw [decode_of_negative negative] at decoded
      cases decoded
    rw [decode_of_nonneg inside] at decoded
    cases known : operationOf? (memory.word address.toNat) with
    | none => simp only [known] at decoded; cases decoded
    | some operation =>
      cases read : modes operation.arity ((memory.word address.toNat).toNat / 100) with
      | error digit => simp only [known, read] at decoded; cases decoded
      | ok selected =>
        simp only [known, read] at decoded
        cases decoded
        obtain ⟨length, each⟩ := modes_eq_ok_iff.mp read
        refine ⟨inside, known, by rw [length_operandsAt, length], fun index below => ?_⟩
        change index < operation.arity at below
        have within : index < selected.length := by omega
        have found := List.getElem?_eq_getElem within
        refine ⟨selected[index], by rw [each index below, found], ?_⟩
        rw [getElem?_operandsAt, found]
        rfl
  · intro stands
    rw [decode_of_nonneg stands.inside, stands.operation]
    let digits := (memory.word address.toNat).toNat / 100
    let selected := (List.range instruction.operation.arity).map fun index =>
      (Mode.ofDigit? (modeDigit digits index)).getD .position
    have width : selected.length = instruction.operation.arity := by simp [selected]
    have valid : ∀ index < instruction.operation.arity,
        Mode.ofDigit? (modeDigit digits index) = selected[index]? := by
      intro index below
      obtain ⟨mode, read, _⟩ := stands.operand index below
      simp [selected, digits, below, read]
    have read : modes instruction.operation.arity digits = .ok selected :=
      modes_eq_ok_iff.mpr ⟨width, valid⟩
    simp only [digits] at read
    simp only [read]
    have same : operandsAt memory (address.toNat + 1) selected = instruction.operands := by
      apply List.ext_getElem?
      intro index
      rw [getElem?_operandsAt]
      by_cases below : index < instruction.operation.arity
      · obtain ⟨mode, read, found⟩ := stands.operand index below
        rw [← valid index below, read, found]
        rfl
      · have outside := stands.length
        rw [List.getElem?_eq_none (by omega : selected.length ≤ index),
          List.getElem?_eq_none (by omega)]
        rfl
    rw [same]

end Instruction
end Intcode
