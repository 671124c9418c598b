import Mathlib.Data.List.Basic
import Intcode.Proofs.LongNumbers
import Intcode.Session

/-! One instruction, performed by itself. It fails for the first thing that is wrong with its
operands, which is always an address, and then nothing at all was changed. Otherwise it changes
one thing: a cell, the relative base or where the machine is suspended. -/

namespace Intcode

/-- Answer with the value unless there is a complaint. -/
def Outcome.barring {ε α : Type} : Option ε → α → Except ε α
  | none, value => .ok value
  | some error, _ => .error error

theorem Outcome.barring_bind {ε α β : Type} {complaint later : Option ε} {value : α} {result : β}
    {next : α → Except ε β} (rest : next value = barring later result) :
    (barring complaint value >>= next) = barring (complaint.or later) result := by
  cases complaint with
  | none => exact rest
  | some error => rfl

theorem Outcome.map_barring {ε α β : Type} (change : α → β) (complaint : Option ε) (value : α) :
    change <$> barring complaint value = barring complaint (change value) := by
  cases complaint <;> rfl

private theorem Memory.cell_eq_barring (address : Int) : cell address =
    Outcome.barring (if address < 0 then some (.negativeAddress address) else none) address.toNat := by
  unfold cell
  by_cases inside : 0 ≤ address
  · rw [if_pos inside, if_neg (Int.not_lt.mpr inside)]
    rfl
  · rw [if_neg inside, if_pos (Int.not_le.mp inside)]
    rfl

/-- The refusal of an operand that can be written to in no machine. -/
def Operand.refusal? : Operand → Option Fault
  | immediate value => some (.immediateTarget value)
  | _ => none

def Operand.Settled (operand : Operand) : Prop := ∀ value, operand ≠ .bare value

namespace Machine

/-- The address that an operand leads to, if it leads to one. -/
def place? (machine : Machine) : Operand → Option Int
  | .position address => some address
  | .relative offset => some (machine.relativeBase + offset)
  | .immediate _ | .bare _ => none

/-- The complaint about an operand that leads to an address below zero. -/
def astray? (machine : Machine) (operand : Operand) : Option Fault :=
  (machine.place? operand).bind fun address =>
    if address < 0 then some (.negativeAddress address) else none

/-- What an operand stands for: its own value, or the word in its place. -/
def content (machine : Machine) : Operand → Int
  | .immediate value | .bare value => value
  | .position address => machine.memory.word address.toNat
  | .relative offset => machine.memory.word (machine.relativeBase + offset).toNat

/-- One cell was written, whether it was before or not, and nothing else is different. -/
structure StoredAt (before : Machine) (cell : Nat) (word : Int) (after : Machine) : Prop where
  cells : ∀ other, after.memory.cells[other]? =
    if other = cell then some word else before.memory.cells[other]?
  rest : after = { before with memory := after.memory }

/-- What an instruction that does not fail does: the address it would jump to, and the machine
after it. All its operands are looked up in the machine before it. -/
inductive Does (machine : Machine) : Instruction → Option Int → Machine → Prop where
  | add (placed : machine.place? target = some (cell : Nat))
    (stored : StoredAt machine cell (Word.wrap (machine.content left + machine.content right)) after) :
    Does machine ⟨.add, [left, right, target]⟩ none after
  | multiply (placed : machine.place? target = some (cell : Nat))
    (stored : StoredAt machine cell (Word.wrap (machine.content left * machine.content right)) after) :
    Does machine ⟨.multiply, [left, right, target]⟩ none after
  | lessThan (placed : machine.place? target = some (cell : Nat))
    (stored : StoredAt machine cell (if machine.content left < machine.content right then 1 else 0) after) :
    Does machine ⟨.lessThan, [left, right, target]⟩ none after
  | equals (placed : machine.place? target = some (cell : Nat))
    (stored : StoredAt machine cell (if machine.content left = machine.content right then 1 else 0) after) :
    Does machine ⟨.equals, [left, right, target]⟩ none after
  | input (placed : machine.place? target = some place) :
    Does machine ⟨.input, [target]⟩ none { machine with suspension := some (.awaitingInput place) }
  | output : Does machine ⟨.output, [operand]⟩ none
      { machine with suspension := some (.producedOutput (machine.content operand)) }
  | jumpIfTrue : Does machine ⟨.jumpIfTrue, [tested, target]⟩
      (if machine.content tested ≠ 0 then some (machine.content target) else none) machine
  | jumpIfFalse : Does machine ⟨.jumpIfFalse, [tested, target]⟩
      (if machine.content tested = 0 then some (machine.content target) else none) machine
  | adjustBase : Does machine ⟨.adjustBase, [operand]⟩ none
      { machine with relativeBase := machine.relativeBase + machine.content operand }
  | halt : Does machine ⟨.halt, []⟩ none { machine with suspension := some .complete }

variable {machine : Machine} {operand : Operand}

theorem value_eq (settled : operand.Settled) :
    machine.value operand = Outcome.barring (machine.astray? operand) (machine.content operand) := by
  have looked (address : Int) : machine.memory.read address =
      Outcome.barring (if address < 0 then some (.negativeAddress address) else none)
        (machine.memory.word address.toNat) := by
    rw [Memory.read, Memory.cell_eq_barring, Outcome.map_barring]
  cases operand with
  | position address => exact looked address
  | immediate value => rfl
  | relative offset => exact looked (machine.relativeBase + offset)
  | bare value => exact (settled value rfl).elim

private theorem address_eq (settled : operand.Settled) :
    machine.address operand = Outcome.barring operand.refusal? ((machine.place? operand).getD 0) := by
  cases operand with
  | position address | immediate value | relative offset => rfl
  | bare value => exact (settled value rfl).elim

private theorem cell_place?_eq (operand : Operand) : Memory.cell ((machine.place? operand).getD 0) =
    Outcome.barring (machine.astray? operand) ((machine.place? operand).getD 0).toNat := by
  unfold astray?
  cases machine.place? operand with
  | none => rfl
  | some address => exact Memory.cell_eq_barring address

theorem exists_place (settled : operand.Settled) (writable : operand.refusal? = none) :
    ∃ address, machine.place? operand = some address := by
  cases operand with
  | position address => exact ⟨address, rfl⟩
  | relative offset => exact ⟨machine.relativeBase + offset, rfl⟩
  | immediate value => cases writable
  | bare value => exact (settled value rfl).elim

private theorem exists_cell (settled : operand.Settled) (writable : operand.refusal? = none)
    (inside : machine.astray? operand = none) : ∃ cell : Nat, machine.place? operand = some (cell : Int) := by
  obtain ⟨address, placed⟩ := exists_place settled writable
  refine ⟨address.toNat, ?_⟩
  rw [astray?, placed, Option.bind_some] at inside
  split at inside
  · cases inside
  · rw [placed, Int.toNat_of_nonneg (by omega)]

private theorem storedAt_put (machine : Machine) (cell : Nat) (value : Int) :
    StoredAt machine cell (Word.wrap value) { machine with memory := machine.memory.put cell value } where
  cells other := by
    change (machine.memory.cells.insert cell (Word.wrap value))[other]? = _
    rw [Std.ExtTreeMap.getElem?_insert]
    by_cases same : other = cell
    · simp [same]
    · have apart : ¬ cell = other := fun same' => same same'.symm
      simp [same, apart]
  rest := rfl

theorem astray?_eq_some_iff {fault : Fault} : machine.astray? operand = some fault ↔
    ∃ address < 0, machine.place? operand = some address ∧ fault = .negativeAddress address := by
  unfold astray?
  cases machine.place? operand with
  | none => simp
  | some address => by_cases outside : address < 0 <;> simp [outside, eq_comm]

def Astray (machine : Machine) (operand : Operand) : Prop :=
  ∃ address < 0, machine.place? operand = some address

private theorem isSome_astray? : (machine.astray? operand).isSome ↔ machine.Astray operand := by
  simp only [Option.isSome_iff_exists, astray?_eq_some_iff, Astray]
  constructor
  · rintro ⟨_, address, outside, placed, -⟩
    exact ⟨address, outside, placed⟩
  · rintro ⟨address, outside, placed⟩
    exact ⟨_, address, outside, placed, rfl⟩

end Machine

namespace Instruction

/-- The instruction has the operands that its operation takes, and each has a mode. -/
structure Formed (instruction : Instruction) : Prop where
  length : instruction.operands.length = instruction.operation.arity
  settled : ∀ operand ∈ instruction.operands, operand.Settled

/-- The operand that the instruction writes to, or has a word written to later. -/
def target? : Instruction → Option Operand
  | ⟨.add, [_, _, target]⟩ | ⟨.multiply, [_, _, target]⟩ | ⟨.lessThan, [_, _, target]⟩
  | ⟨.equals, [_, _, target]⟩ | ⟨.input, [target]⟩ => some target
  | _ => none

/-- The operands that the instruction reads, in order. The target of a jump is only read when the
jump is taken. -/
def reads (machine : Machine) : Instruction → List Operand
  | ⟨.add, [left, right, _]⟩ | ⟨.multiply, [left, right, _]⟩ | ⟨.lessThan, [left, right, _]⟩
  | ⟨.equals, [left, right, _]⟩ => [left, right]
  | ⟨.output, [operand]⟩ | ⟨.adjustBase, [operand]⟩ => [operand]
  | ⟨.jumpIfTrue, [tested, target]⟩ => if machine.content tested ≠ 0 then [tested, target] else [tested]
  | ⟨.jumpIfFalse, [tested, target]⟩ => if machine.content tested = 0 then [tested, target] else [tested]
  | _ => []

/-- The operation stores a word itself. An input leaves that to whoever supplies the word. -/
def Stores (instruction : Instruction) : Prop := instruction.operation.arity = 3

instance (instruction : Instruction) : Decidable instruction.Stores := inferInstanceAs (Decidable (_ = _))

/-- The first thing that is wrong: the mode of the target, then each operand that is read, then
the address to store at. -/
def complaint? (machine : Machine) (instruction : Instruction) : Option Fault :=
  (instruction.target?.bind Operand.refusal?).or
    (((instruction.reads machine).findSome? machine.astray?).or
      (if instruction.Stores then instruction.target?.bind machine.astray? else none))

variable {machine : Machine} {left right target tested operand : Operand}

private theorem storing_eq {operation : Operation} (combine : Int → Int → Int)
    (settled : ∀ operand ∈ [left, right, target], operand.Settled) :
    Instruction.storing ⟨operation, [left, right, target]⟩ machine combine =
      Outcome.barring (target.refusal?.or ((machine.astray? left).or
          ((machine.astray? right).or (machine.astray? target))))
        (.write ((machine.place? target).getD 0).toNat
          (combine (machine.content left) (machine.content right))) := by
  -- The target comes first, by its mode, and again at the end, by its address.
  change (do
    let place ← machine.address target
    let first ← machine.value left
    let second ← machine.value right
    return Effect.write (← Memory.cell place) (combine first second)) = _
  rw [Machine.address_eq (settled target (by simp)), Machine.value_eq (settled left (by simp)),
    Machine.value_eq (settled right (by simp))]
  refine Outcome.barring_bind (Outcome.barring_bind (Outcome.barring_bind ?_))
  rw [Machine.cell_place?_eq]
  cases machine.astray? target <;> rfl

theorem complaint?_storing {operation : Operation} (stores : operation.arity = 3) :
    complaint? machine ⟨operation, [left, right, target]⟩ =
      target.refusal?.or ((machine.astray? left).or
        ((machine.astray? right).or (machine.astray? target))) := by
  have aim : target? ⟨operation, [left, right, target]⟩ = some target := by
    cases operation <;> first | rfl | cases stores
  have read : reads machine ⟨operation, [left, right, target]⟩ = [left, right] := by
    cases operation <;> first | rfl | cases stores
  have storing : Stores ⟨operation, [left, right, target]⟩ := stores
  rw [complaint?, aim, read, if_pos storing]
  cases first : machine.astray? left <;> cases second : machine.astray? right <;>
    simp [List.findSome?, first, second]

private theorem findSome?_reads (machine : Machine) (tested target : Operand) (taken : Bool) :
    (if taken then [tested, target] else [tested]).findSome? machine.astray? =
      (machine.astray? tested).or (if taken then machine.astray? target else none) := by
  cases taken <;> cases first : machine.astray? tested <;> cases second : machine.astray? target <;>
    simp [List.findSome?, first, second]

private theorem complaint?_jumpIfTrue : complaint? machine ⟨.jumpIfTrue, [tested, target]⟩ =
    (machine.astray? tested).or
      (if machine.content tested ≠ 0 then machine.astray? target else none) := by
  have counted := findSome?_reads machine tested target (machine.content tested ≠ 0)
  simpa [complaint?, target?, reads, Stores, Operation.arity] using counted

private theorem complaint?_jumpIfFalse : complaint? machine ⟨.jumpIfFalse, [tested, target]⟩ =
    (machine.astray? tested).or
      (if machine.content tested = 0 then machine.astray? target else none) := by
  have counted := findSome?_reads machine tested target (machine.content tested = 0)
  simpa [complaint?, target?, reads, Stores, Operation.arity] using counted

theorem complaint?_input : complaint? machine ⟨.input, [target]⟩ = target.refusal? := by
  simp [complaint?, target?, reads, Stores, Operation.arity]

theorem complaint?_reading {operation : Operation} (reading : operation = .output ∨ operation = .adjustBase) :
    complaint? machine ⟨operation, [operand]⟩ = machine.astray? operand := by
  rcases reading with rfl | rfl <;> cases wrong : machine.astray? operand <;>
    simp [complaint?, target?, reads, Stores, Operation.arity, wrong]

private theorem jumping_eq {operation : Operation} (test : Int → Bool)
    (settled : ∀ operand ∈ [tested, target], operand.Settled) :
    Instruction.jumping ⟨operation, [tested, target]⟩ machine test =
      Outcome.barring ((machine.astray? tested).or
          (if test (machine.content tested) then machine.astray? target else none))
        (if test (machine.content tested) then .jump (machine.content target) else .pass) := by
  change (do
    if test (← machine.value tested) then return Effect.jump (← machine.value target)
    else return Effect.pass) = _
  rw [Machine.value_eq (settled tested (by simp)), Machine.value_eq (settled target (by simp))]
  refine Outcome.barring_bind ?_
  cases test (machine.content tested) with
  | true => cases machine.astray? target <;> rfl
  | false => rfl

/-- What an instruction does is either its complaint or what the operation stands for. -/
def Settles (machine : Machine) (instruction : Instruction) : Prop :=
  ∃ effect, instruction.effect machine = Outcome.barring (instruction.complaint? machine) effect ∧
    (instruction.complaint? machine = none →
      machine.Does instruction effect.target? (machine.apply effect))

/-- The four operations that store a word differ in what they make of the two operands. -/
theorem settles_storing {operation : Operation} (stores : operation.arity = 3)
    {combine : Int → Int → Int} (settled : ∀ operand ∈ [left, right, target], operand.Settled)
    (known : Instruction.effect ⟨operation, [left, right, target]⟩ machine =
      Instruction.storing ⟨operation, [left, right, target]⟩ machine combine)
    (does : ∀ {cell : Nat} {after : Machine}, machine.place? target = some (cell : Int) →
      machine.StoredAt cell (Word.wrap (combine (machine.content left) (machine.content right))) after →
      machine.Does ⟨operation, [left, right, target]⟩ none after) :
    Settles machine ⟨operation, [left, right, target]⟩ := by
  refine ⟨.write ((machine.place? target).getD 0).toNat
    (combine (machine.content left) (machine.content right)), ?_, fun clear => ?_⟩
  · rw [known, complaint?_storing stores, storing_eq combine settled]
  · rw [complaint?_storing stores] at clear
    simp only [Option.or_eq_none_iff] at clear
    obtain ⟨writable, _, _, inside⟩ := clear
    obtain ⟨cell, placed⟩ := Machine.exists_cell (settled target (by simp)) writable inside
    refine does placed ?_
    rw [placed]
    exact Machine.storedAt_put machine cell _

private theorem settles_jumping {operation : Operation} {test : Int → Bool}
    (settled : ∀ operand ∈ [tested, target], operand.Settled)
    (known : Instruction.effect ⟨operation, [tested, target]⟩ machine =
      Instruction.jumping ⟨operation, [tested, target]⟩ machine test)
    (complaint : complaint? machine ⟨operation, [tested, target]⟩ =
      (machine.astray? tested).or
        (if test (machine.content tested) then machine.astray? target else none))
    (does : machine.Does ⟨operation, [tested, target]⟩
      (if test (machine.content tested) then some (machine.content target) else none) machine) :
    Settles machine ⟨operation, [tested, target]⟩ := by
  refine ⟨if test (machine.content tested) then .jump (machine.content target) else .pass,
    ?_, fun _ => ?_⟩
  · rw [known, complaint, jumping_eq test settled]
  · cases taken : test (machine.content tested) with
    | true | false =>
      rw [taken] at does
      exact does

theorem Formed.settles {instruction : Instruction} (formed : instruction.Formed) (machine : Machine) :
    Settles machine instruction := by
  obtain ⟨operation, operands⟩ := instruction
  obtain ⟨length, settled⟩ := formed
  have bit {truth : Prop} [Decidable truth] :
      Word.wrap (if truth then 1 else 0) = if truth then 1 else 0 := by
    split <;> rfl
  cases operation with
  | add =>
    obtain ⟨left, right, target, rfl⟩ := List.length_eq_three.mp length
    exact settles_storing rfl settled rfl .add
  | multiply =>
    obtain ⟨left, right, target, rfl⟩ := List.length_eq_three.mp length
    exact settles_storing rfl settled rfl .multiply
  | lessThan =>
    obtain ⟨left, right, target, rfl⟩ := List.length_eq_three.mp length
    refine settles_storing rfl settled rfl fun placed stored => .lessThan placed ?_
    rwa [bit] at stored
  | equals =>
    obtain ⟨left, right, target, rfl⟩ := List.length_eq_three.mp length
    refine settles_storing rfl settled rfl fun placed stored => .equals placed ?_
    rwa [bit] at stored
  | jumpIfTrue =>
    obtain ⟨tested, target, rfl⟩ := List.length_eq_two.mp length
    refine settles_jumping settled rfl ?_ ?_
    · simpa using complaint?_jumpIfTrue
    · simpa using Machine.Does.jumpIfTrue
  | jumpIfFalse =>
    obtain ⟨tested, target, rfl⟩ := List.length_eq_two.mp length
    refine settles_jumping settled rfl ?_ ?_
    · simpa using complaint?_jumpIfFalse
    · simpa using Machine.Does.jumpIfFalse
  | input =>
    obtain ⟨target, rfl⟩ := List.length_eq_one_iff.mp length
    have settled := settled target (by simp)
    refine ⟨.await ((machine.place? target).getD 0), ?_, fun clear => ?_⟩
    · change Effect.await <$> machine.address target = _
      rw [Machine.address_eq settled, Outcome.map_barring, complaint?_input]
    · rw [complaint?_input] at clear
      obtain ⟨place, placed⟩ := Machine.exists_place settled clear
      rw [placed]
      exact .input placed
  | output =>
    obtain ⟨operand, rfl⟩ := List.length_eq_one_iff.mp length
    refine ⟨.emit (machine.content operand), ?_, fun _ => .output⟩
    change Effect.emit <$> machine.value operand = _
    rw [Machine.value_eq (settled operand (by simp)), Outcome.map_barring, complaint?_reading (.inl rfl)]
  | adjustBase =>
    obtain ⟨operand, rfl⟩ := List.length_eq_one_iff.mp length
    refine ⟨.shiftBase (machine.content operand), ?_, fun _ => .adjustBase⟩
    change Effect.shiftBase <$> machine.value operand = _
    rw [Machine.value_eq (settled operand (by simp)), Outcome.map_barring, complaint?_reading (.inr rfl)]
  | halt =>
    obtain rfl := List.length_eq_zero_iff.mp length
    exact ⟨.halt, rfl, fun _ => .halt⟩

variable {instruction : Instruction}

private theorem exists_complaint?_iff : (∃ fault, instruction.complaint? machine = some fault) ↔
    (∃ value, instruction.target? = some (.immediate value)) ∨
    (∃ operand ∈ instruction.reads machine, machine.Astray operand) ∨
    (instruction.Stores ∧ ∃ target, instruction.target? = some target ∧ machine.Astray target) := by
  have refused : (instruction.target?.bind Operand.refusal?).isSome ↔
      ∃ value, instruction.target? = some (.immediate value) := by
    cases instruction.target? with
    | none => simp
    | some target => cases target <;> simp [Operand.refusal?]
  have read : ((instruction.reads machine).findSome? machine.astray?).isSome ↔
      ∃ operand ∈ instruction.reads machine, machine.Astray operand := by
    simp only [List.findSome?_isSome_iff, Machine.isSome_astray?]
  have stored : (if instruction.Stores then instruction.target?.bind machine.astray? else none).isSome ↔
      instruction.Stores ∧ ∃ target, instruction.target? = some target ∧ machine.Astray target := by
    by_cases stores : instruction.Stores
    · cases instruction.target? <;> simp [stores, Machine.isSome_astray?]
    · simp [stores]
  rw [← Option.isSome_iff_exists, complaint?, Option.isSome_or, Option.isSome_or, Bool.or_eq_true,
    Bool.or_eq_true, refused, read, stored]

/-- A complaint is about the number of one operand, or about the address that it leads to. -/
theorem complaint?_addressing {fault : Fault} (complaint : instruction.complaint? machine = some fault) :
    ∃ number, fault = .negativeAddress number ∨ fault = .immediateTarget number := by
  have lost {operand : Operand} (astray : machine.astray? operand = some fault) :
      ∃ number, fault = .negativeAddress number ∨ fault = .immediateTarget number := by
    obtain ⟨address, _, _, rfl⟩ := Machine.astray?_eq_some_iff.mp astray
    exact ⟨address, .inl rfl⟩
  simp only [complaint?, Option.or_eq_some_iff] at complaint
  rcases complaint with refused | ⟨-, read | ⟨-, stored⟩⟩
  · obtain ⟨target, -, refused⟩ := Option.bind_eq_some_iff.mp refused
    cases target with
    | immediate value =>
      cases refused
      exact ⟨value, .inr rfl⟩
    | _ => cases refused
  · obtain ⟨operand, -, astray⟩ := List.exists_of_findSome?_eq_some read
    exact lost astray
  · split at stored
    · obtain ⟨target, -, astray⟩ := Option.bind_eq_some_iff.mp stored
      exact lost astray
    · cases stored

end Instruction

namespace Session

variable {instruction : Instruction}

theorem execute_cases (formed : instruction.Formed) (session : Session) :
    (∃ fault, instruction.complaint? session.machine = some fault ∧
      session.execute instruction = (.error fault, session)) ∨
    (instruction.complaint? session.machine = none ∧ ∃ goes after,
      session.execute instruction = (.ok goes, after) ∧ session.machine.Does instruction goes after.machine) := by
  obtain ⟨effect, settled, does⟩ := formed.settles session.machine
  unfold execute
  rw [settled]
  cases complaint : instruction.complaint? session.machine with
  | some fault => exact .inl ⟨fault, rfl, rfl⟩
  | none => exact .inr ⟨rfl, _, _, rfl, does complaint⟩

/-- An instruction given by hand fails for the first thing that is wrong with its operands, which the
report names unless its number cannot be written, and then leaves everything as it was. Otherwise
it does what its operation stands for. -/
theorem execute_atomic (formed : instruction.Formed) (session : Session) :
    (∀ fault, (session.execute instruction).1 = .error fault ↔
      instruction.complaint? session.machine = some fault) ∧
    ((∃ fault, (session.execute instruction).1 = .error fault) ↔
      (∃ value, instruction.target? = some (.immediate value)) ∨
      (∃ operand ∈ instruction.reads session.machine, session.machine.Astray operand) ∨
      (instruction.Stores ∧ ∃ target, instruction.target? = some target ∧ session.machine.Astray target)) ∧
    (∀ fault after, session.execute instruction = (.error fault, after) →
      after = session ∧ ∃ number, (fault = .negativeAddress number ∨ fault = .immediateTarget number) ∧
        fault.kind = if Text.Numeral.isTooLong number then .unwritable else .addressing) ∧
    (∀ goes after, session.execute instruction = (.ok goes, after) →
      session.machine.Does instruction goes after.machine) := by
  have fails (fault : Fault) : (session.execute instruction).1 = .error fault ↔
      instruction.complaint? session.machine = some fault := by
    rcases execute_cases formed session with ⟨found, complaint, executed⟩ | ⟨clear, _, _, executed, -⟩
    · simp [complaint, executed]
    · simp [clear, executed]
  refine ⟨fails, ?_, fun fault after executed => ?_, fun goes after executed => ?_⟩
  · simp only [fails]
    exact Instruction.exists_complaint?_iff
  · have complaint := (fails fault).mp (by rw [executed])
    rcases execute_cases formed session with ⟨_, _, failed⟩ | ⟨clear, -⟩
    · rw [executed] at failed
      cases failed
      obtain ⟨number, addressing⟩ := Instruction.complaint?_addressing complaint
      exact ⟨rfl, number, addressing, Fault.kind_of_address addressing⟩
    · rw [clear] at complaint
      cases complaint
  · rcases execute_cases formed session with ⟨_, _, failed⟩ | ⟨_, _, _, done, does⟩
    · rw [executed] at failed
      cases failed
    · rw [executed] at done
      cases done
      exact does

/-- A cell is doubled in place, while an immediate target is reported before an operand below zero. -/
theorem execute_atomic_in_place :
    let session := load [7] false none
    let doubling : Instruction := ⟨.add, [.position 0, .position 0, .relative 0]⟩
    let misguided : Instruction := ⟨.add, [.position (-1), .relative (-2), .immediate 0]⟩
    session.machine.Does doubling none (session.execute doubling).2.machine ∧
      (session.execute misguided).1 = .error (.immediateTarget 0) := by
  intro session doubling misguided
  have doubles : doubling.Formed := ⟨rfl, by simp [doubling, Operand.Settled]⟩
  have fails : misguided.Formed := ⟨rfl, by simp [misguided, Operand.Settled]⟩
  obtain ⟨-, -, -, does⟩ := execute_atomic doubles session
  exact ⟨does none _ rfl, ((execute_atomic fails session).1 _).mpr rfl⟩

/-- An operand leads to an address below zero that is one digit too long for a report, which is then
no longer about the address. -/
theorem execute_beyond_report :
    let session : Session := { load [99] false none with
      machine := { (load [99] false none).machine with relativeBase := 1 - 10 ^ Text.Numeral.maxDigits } }
    ∃ fault, session.execute ⟨.output, [.relative (-1)]⟩ = (.error fault, session) ∧ fault.kind = .unwritable := by
  intro session
  have formed : Instruction.Formed ⟨.output, [.relative (-1)]⟩ := ⟨rfl, by simp [Operand.Settled]⟩
  have below (number : Int) : 1 - number + -1 = -number := by omega
  have complaint : Instruction.complaint? session.machine ⟨.output, [.relative (-1)]⟩ =
      some (.negativeAddress (-10 ^ Text.Numeral.maxDigits)) := by
    rw [Instruction.complaint?_reading (.inl rfl), Machine.astray?_eq_some_iff]
    exact ⟨_, Text.Numeral.neg_power_neg _, congrArg some (below _), rfl⟩
  rcases execute_cases formed session with ⟨fault, found, failed⟩ | ⟨clear, -⟩
  · rw [complaint] at found
    cases found
    exact ⟨_, failed, Fault.kind_of_neg_power⟩
  · rw [complaint] at clear
    cases clear

end Session
end Intcode
