import Mathlib.Logic.Function.Basic
import Intcode.Proofs.Atomicity
import Intcode.Proofs.SuspensionPoints
import Intcode.Proofs.Wrapping

/-! Chains of additions and multiplications. Beside the words in memory every cell is thought
to hold an integer without bounds, and each instruction does with these integers what it does
with the words. A word then always is its integer wrapped, however often it was wrapped on the
way: one instruction keeps this, and so does a chain of them. -/

namespace Intcode

/-- The operation makes a word of two others by addition or multiplication. -/
def Operation.Reckons (operation : Operation) : Prop := operation = .add ∨ operation = .multiply

namespace Operand

/-- What an operand stands for if the cells hold integers without bounds. -/
def exactly (base : Int) (cells : Nat → Int) : Operand → Int
  | immediate value | bare value => value
  | position address => cells address.toNat
  | relative offset => cells (base + offset).toNat

/-- The cell that an operand leads to, if it leads to an address. -/
def goal (base : Int) : Operand → Nat
  | immediate _ | bare _ => 0
  | position address => address.toNat
  | relative offset => (base + offset).toNat

end Operand

namespace Instruction

/-- The integers in the cells after an addition or a multiplication, which bounds nothing. -/
def reckon (base : Int) (cells : Nat → Int) : Instruction → Nat → Int
  | ⟨.add, [left, right, target]⟩ =>
    Function.update cells (target.goal base) (left.exactly base cells + right.exactly base cells)
  | ⟨.multiply, [left, right, target]⟩ =>
    Function.update cells (target.goal base) (left.exactly base cells * right.exactly base cells)
  | _ => cells

/-- The integers in the cells after a chain of instructions. -/
def reckonAll (base : Int) (cells : Nat → Int) (chain : List Instruction) : Nat → Int :=
  chain.foldl (reckon base) cells

end Instruction

namespace Machine

/-- Every word in memory is the integer thought of in its cell, wrapped. -/
def Wraps (machine : Machine) (cells : Nat → Int) : Prop :=
  ∀ cell, machine.memory.word cell = Word.wrap (cells cell)

variable {machine after : Machine} {cells : Nat → Int} {instruction : Instruction}

theorem Wraps.content (wraps : machine.Wraps cells) (operand : Operand) :
    Word.wrap (machine.content operand) = Word.wrap (operand.exactly machine.relativeBase cells) := by
  cases operand with
  | immediate value | bare value => rfl
  | position address | relative offset =>
    simp only [Machine.content, Operand.exactly, wraps _, Word.wrap_wrap]

private theorem goal_eq {operand : Operand} {cell : Nat} (placed : machine.place? operand = some (cell : Int)) :
    operand.goal machine.relativeBase = cell := by
  cases operand with
  | immediate value | bare value => cases placed
  | position address | relative offset => exact congrArg Int.toNat (Option.some.inj placed)

theorem StoredAt.base {cell : Nat} {word : Int} (stored : machine.StoredAt cell word after) :
    after.relativeBase = machine.relativeBase := by
  rw [stored.rest]

theorem Wraps.stored {cell : Nat} {word value : Int} (wraps : machine.Wraps cells)
    (stored : machine.StoredAt cell word after) (same : word = Word.wrap value) :
    after.Wraps (Function.update cells cell value) := by
  intro other
  unfold Memory.word
  rw [stored.cells, Function.update_apply, same]
  split
  · rfl
  · exact wraps other

/-- Sums and products of words wrap to what the sums and products of their integers wrap to. -/
theorem Wraps.does {goes : Option Int} (wraps : machine.Wraps cells) (does : machine.Does instruction goes after)
    (reckons : instruction.operation.Reckons) :
    after.Wraps (instruction.reckon machine.relativeBase cells) ∧ after.relativeBase = machine.relativeBase := by
  unfold Operation.Reckons at reckons
  cases does with
  | @add target cell left right _ placed stored =>
    have same : Word.wrap (machine.content left + machine.content right) =
        Word.wrap (left.exactly machine.relativeBase cells + right.exactly machine.relativeBase cells) := by
      rw [← Word.wrap_add, wraps.content, wraps.content, Word.wrap_add]
    refine ⟨?_, stored.base⟩
    rw [Instruction.reckon, goal_eq placed]
    exact wraps.stored stored same
  | @multiply target cell left right _ placed stored =>
    have same : Word.wrap (machine.content left * machine.content right) =
        Word.wrap (left.exactly machine.relativeBase cells * right.exactly machine.relativeBase cells) := by
      rw [← Word.wrap_mul, wraps.content, wraps.content, Word.wrap_mul]
    refine ⟨?_, stored.base⟩
    rw [Instruction.reckon, goal_eq placed]
    exact wraps.stored stored same
  | lessThan | equals | input | output | jumpIfTrue | jumpIfFalse | adjustBase | halt =>
    rcases reckons with known | known <;> cases known

private theorem formed_of_fetch (fetched : machine.fetch = .ok instruction) : instruction.Formed := by
  have stands := Instruction.decode_eq_ok_iff.mp (decode_of_fetch fetched)
  refine ⟨stands.length, fun operand member value bare => ?_⟩
  obtain ⟨index, below, rfl⟩ := List.getElem_of_mem member
  obtain ⟨mode, -, found⟩ := stands.operand index (stands.length ▸ below)
  rw [List.getElem?_eq_getElem below, bare] at found
  cases mode <;> cases found

/-- A machine that performs additions and multiplications by itself, one after the other. -/
theorem Wraps.performs {chain : List Instruction} (wraps : machine.Wraps cells)
    (performs : Performs machine chain after) (reckons : ∀ instruction ∈ chain, instruction.operation.Reckons) :
    after.Wraps (Instruction.reckonAll machine.relativeBase cells chain) := by
  induction performs generalizing cells with
  | rest => exact wraps
  | @next rest last before instruction effect fetched found performs ih =>
    obtain ⟨first, later⟩ := List.forall_mem_cons.mp reckons
    obtain ⟨settled, same, does⟩ := (formed_of_fetch fetched).settles before
    rw [found] at same
    cases complaint : instruction.complaint? before with
    | some fault =>
      rw [complaint] at same
      cases same
    | none =>
      rw [complaint] at same
      cases same
      obtain ⟨kept, base⟩ := wraps.does (does complaint) first
      -- Moving on changes neither memory nor the base.
      have moved : (before.perform instruction.size effect).Wraps (instruction.reckon before.relativeBase cells) := kept
      have went := ih moved later
      have still : (before.perform instruction.size effect).relativeBase = before.relativeBase := base
      rw [still] at went
      exact went

end Machine

namespace Session

def executeAll : List Instruction → Session → Except Fault Session
  | [], session => .ok session
  | instruction :: rest, session =>
    match session.execute instruction with
    | (.error fault, _) => .error fault
    | (.ok _, after) => executeAll rest after

theorem complaint?_of_base {left right : Machine} {instruction : Instruction}
    (same : left.relativeBase = right.relativeBase) (formed : instruction.Formed)
    (reckons : instruction.operation.Reckons) : instruction.complaint? left = instruction.complaint? right := by
  have astray (operand : Operand) : left.astray? operand = right.astray? operand := by
    cases operand <;> simp only [Machine.astray?, Machine.place?, same]
  obtain ⟨operation, operands⟩ := instruction
  rcases reckons with known | known
  all_goals
    cases known
    obtain ⟨first, second, target, rfl⟩ := List.length_eq_three.mp formed.length
    rw [Instruction.complaint?_storing rfl, Instruction.complaint?_storing rfl]
    simp only [astray]

theorem executeAll_wraps {chain : List Instruction} {session : Session} {cells : Nat → Int}
    (wraps : session.machine.Wraps cells)
    (sound : ∀ instruction ∈ chain, instruction.Formed ∧ instruction.operation.Reckons ∧
      instruction.complaint? session.machine = none) :
    ∃ after, executeAll chain session = .ok after ∧
      after.machine.Wraps (Instruction.reckonAll session.machine.relativeBase cells chain) := by
  induction chain generalizing session cells with
  | nil => exact ⟨session, rfl, wraps⟩
  | cons instruction rest ih =>
    obtain ⟨⟨formed, reckons, clear⟩, later⟩ := List.forall_mem_cons.mp sound
    rcases execute_cases formed session with ⟨fault, complaint, _⟩ | ⟨_, goes, middle, executed, does⟩
    · rw [clear] at complaint
      cases complaint
    · obtain ⟨kept, base⟩ := wraps.does does reckons
      obtain ⟨after, went, last⟩ := ih kept fun other member => by
        obtain ⟨formed, reckons, clear⟩ := later other member
        exact ⟨formed, reckons, (complaint?_of_base base formed reckons).trans clear⟩
      refine ⟨after, ?_, ?_⟩
      · rw [executeAll, executed]
        exact went
      · rw [base] at last
        exact last

end Session

/-- Wrapping is the quotient of the integers by 2^64, with the signed 64-bit words for its
classes: it is the only word congruent to an integer, leaves words and nothing else alone, and
respects sums and products. So a chain of additions and multiplications, performed by a machine
that runs or given by hand, leaves in every cell the exact integer modulo 2^64. -/
theorem wrapping_reckons_modulo :
    (∀ value word, word = Word.wrap value ↔ Word.InRange word ∧ word % 2 ^ 64 = value % 2 ^ 64) ∧
    (∀ value, Word.wrap value = Word.masked value) ∧
    (∀ value, Word.wrap (Word.wrap value) = Word.wrap value) ∧
    (∀ value, Word.wrap value = value ↔ -2 ^ 63 ≤ value ∧ value ≤ 2 ^ 63 - 1) ∧
    (∀ left right, Word.wrap left = Word.wrap right ↔ left % 2 ^ 64 = right % 2 ^ 64) ∧
    (∀ left right, Word.wrap (Word.wrap left + Word.wrap right) = Word.wrap (left + right)) ∧
    (∀ left right, Word.wrap (Word.wrap left * Word.wrap right) = Word.wrap (left * right)) ∧
    (∀ machine chain after cells, machine.Wraps cells → Machine.Performs machine chain after →
      (∀ instruction ∈ chain, instruction.operation.Reckons) →
      after.Wraps (Instruction.reckonAll machine.relativeBase cells chain)) ∧
    ∀ (session : Session) chain cells, session.machine.Wraps cells →
      (∀ instruction ∈ chain, instruction.Formed ∧ instruction.operation.Reckons ∧
        instruction.complaint? session.machine = none) →
      ∃ after, Session.executeAll chain session = .ok after ∧
        after.machine.Wraps (Instruction.reckonAll session.machine.relativeBase cells chain) := by
  refine ⟨fun value word => Word.eq_wrap_iff, Word.wrap_eq_masked, Word.wrap_wrap, fun value => Word.wrap_eq_self_iff,
    fun left right => Word.wrap_eq_iff, Word.wrap_add, Word.wrap_mul, ?_, ?_⟩
  · exact fun machine chain after cells wraps performs reckons => wraps.performs performs reckons
  · exact fun session chain cells wraps sound => Session.executeAll_wraps wraps sound

/-- A square that no word holds is squared again, and 1 is added to the result in the cell of the
first square. The machine fetches the three instructions from memory that it does not overwrite. -/
theorem wrapping_reckons_modulo_of_power :
    let root : Int := 2 ^ 40 + 1
    let words : List Int := [1102, root, root, 20, 2, 20, 20, 21, 101, 1, 21, 20, 99]
    let chain : List Instruction := [⟨.multiply, [.immediate root, .immediate root, .position 20]⟩,
      ⟨.multiply, [.position 20, .position 20, .position 21]⟩, ⟨.add, [.immediate 1, .position 21, .position 20]⟩]
    ∃ after, Machine.Performs (Machine.load words false none) chain after ∧
      after.memory.word 20 = Word.wrap (root ^ 4 + 1) ∧
      ∃ session, Session.executeAll chain (Session.load words false none) = .ok session ∧
        session.machine.memory.word 20 = Word.wrap (root ^ 4 + 1) := by
  intro root words chain
  obtain ⟨-, -, -, -, -, -, -, performed, executed⟩ := wrapping_reckons_modulo
  have wraps : (Machine.load words false none).Wraps fun cell => words.getD cell 0 := Memory.word_ofWords words
  have reckons : ∀ instruction ∈ chain, instruction.operation.Reckons := by
    simp [chain, Operation.Reckons]
  have performs : ∃ after, Machine.Performs (Machine.load words false none) chain after := by
    refine ⟨_, .next (?_ : _ = _) (?_ : _ = Except.ok (.write 20 (root ^ 2))) (.next (?_ : _ = _)
      (?_ : _ = Except.ok (.write 21 (Word.wrap (root ^ 2) ^ 2))) (.next (?_ : _ = _)
      (?_ : _ = Except.ok (.write 20 (1 + Word.wrap (Word.wrap (root ^ 2) ^ 2)))) .rest))⟩
    all_goals decide +kernel
  have sound : ∀ instruction ∈ chain, instruction.Formed ∧ instruction.operation.Reckons ∧
      instruction.complaint? (Session.load words false none).machine = none := by
    intro instruction member
    refine ⟨?_, reckons instruction member, ?_⟩
    all_goals simp only [chain, List.mem_cons, List.not_mem_nil, or_false] at member
    all_goals rcases member with rfl | rfl | rfl
    all_goals first
      | exact ⟨rfl, by simp [Operand.Settled]⟩
      | rfl
  obtain ⟨after, performs⟩ := performs
  obtain ⟨session, done, last⟩ := executed (Session.load words false none) chain _ wraps sound
  refine ⟨after, performs, (performed _ _ _ _ wraps performs reckons 20).trans ?_, session, done, (last 20).trans ?_⟩
  all_goals decide +kernel

end Intcode
