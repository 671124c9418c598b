import Intcode.Proofs.Hosting

/-! Machines that read alike. Nothing that a machine does depends on which cells were written
or on which integer a word was stored as, and nothing on the journal. So two machines that
read the same word in every cell cannot be told apart by a host, except by listing memory. -/

namespace Intcode

/-- Outcomes that are one fault, or answers that are related. -/
inductive Outcome.Agree {ε α β : Type} (related : α → β → Prop) : Except ε α → Except ε β → Prop where
  | error (fault : ε) : Agree related (.error fault) (.error fault)
  | ok (same : related left right) : Agree related (.ok left) (.ok right)

namespace Word

def Congruent (left right : Int) : Prop := left % count = right % count

theorem wrap_eq_iff {left right : Int} : wrap left = wrap right ↔ Congruent left right := by
  constructor
  · intro same
    have remainders := congrArg (· % (count : Int)) same
    simp only [wrap, Int.bmod_emod] at remainders
    exact remainders
  · intro same
    have wrapped := congrArg (Int.bmod · count) same
    simp only [Int.emod_bmod] at wrapped
    exact wrapped

end Word

namespace Instruction

private theorem operandsAt_congr {left right : Memory} (same : ∀ cell, right.word cell = left.word cell)
    (start : Nat) (selected : List Mode) :
    operandsAt right start selected = operandsAt left start selected := by
  induction selected generalizing start with
  | nil => rfl
  | cons mode rest ih => rw [operandsAt, operandsAt, same, ih]

private theorem decode_congr {left right : Memory} (same : ∀ cell, right.word cell = left.word cell)
    (address : Int) : decode right address = decode left address := by
  by_cases inside : 0 ≤ address
  · rw [decode_of_nonneg inside, decode_of_nonneg inside, same]
    simp only [operandsAt_congr same]
  · rw [decode_of_negative (Int.not_le.mp inside), decode_of_negative (Int.not_le.mp inside)]

end Instruction

namespace Machine

/-- The machines read the same word in every cell, and agree in all that is not memory.
Tracing makes no difference to a machine. -/
structure Resembles (left right : Machine) : Prop where
  word : ∀ cell, right.memory.word cell = left.memory.word cell
  pc : right.pc = left.pc
  relativeBase : right.relativeBase = left.relativeBase
  suspension : right.suspension = left.suspension
  steps : right.steps = left.steps
  stepLimit : right.stepLimit = left.stepLimit

namespace Resembles

variable {left right : Machine} (resembles : Resembles left right)
include resembles

theorem symm : Resembles right left where
  word cell := (resembles.word cell).symm
  pc := resembles.pc.symm
  relativeBase := resembles.relativeBase.symm
  suspension := resembles.suspension.symm
  steps := resembles.steps.symm
  stepLimit := resembles.stepLimit.symm

theorem read (address : Int) : right.memory.read address = left.memory.read address := by
  rw [Memory.read_eq, Memory.read_eq, resembles.word]

theorem fetch : right.fetch = left.fetch := by
  unfold Machine.fetch
  rw [resembles.stepLimit, resembles.steps, resembles.pc, Instruction.decode_congr resembles.word]

theorem address : right.address = left.address := by
  funext operand
  cases operand <;> simp only [Machine.address, resembles.relativeBase]

theorem value : right.value = left.value := by
  funext operand
  cases operand with
  | immediate value => rfl
  | _ => simp only [Machine.value, resembles.address, funext resembles.read]

theorem effect (instruction : Instruction) : instruction.effect right = instruction.effect left := by
  have addresses : instruction.addressOf right = instruction.addressOf left := by
    funext index
    simp only [Instruction.addressOf, resembles.address]
  have values : instruction.valueOf right = instruction.valueOf left := by
    funext index
    simp only [Instruction.valueOf, resembles.value]
  have storing (combine : Int → Int → Int) :
      instruction.storing right combine = instruction.storing left combine := by
    simp only [Instruction.storing, addresses, values]
  have jumping (test : Int → Bool) : instruction.jumping right test = instruction.jumping left test := by
    simp only [Instruction.jumping, values]
  unfold Instruction.effect
  simp only [storing, jumping, addresses, values]

theorem put (cell : Nat) {value value' : Int} (same : Word.Congruent value value') (other : Nat) :
    (right.memory.put cell value').word other = (left.memory.put cell value).word other := by
  rw [Memory.word_put, Memory.word_put, resembles.word, Word.wrap_eq_iff.mpr same]

/-- Storing at an address fails in both, or leaves memories that read alike. -/
theorem write (address : Int) {value value' : Int} (same : Word.Congruent value value') :
    Outcome.Agree (fun memory memory' => ∀ cell, memory'.word cell = memory.word cell)
      (left.memory.write address value) (right.memory.write address value') := by
  rw [Memory.write_eq, Memory.write_eq]
  by_cases inside : 0 ≤ address
  · rw [if_pos inside, if_pos inside]
    exact .ok (resembles.put address.toNat same)
  · rw [if_neg inside, if_neg inside]
    exact .error _

theorem apply (effect : Effect) : Resembles (left.apply effect) (right.apply effect) := by
  cases effect with
  | write cell value => exact { resembles with word := resembles.put cell rfl }
  | await address => exact { resembles with suspension := rfl }
  | emit value => exact { resembles with suspension := rfl }
  | halt => exact { resembles with suspension := rfl }
  | shiftBase amount =>
    exact { resembles with relativeBase := congrArg (· + amount) resembles.relativeBase }
  | jump target => exact resembles
  | pass => exact resembles

theorem perform (size : Nat) (effect : Effect) :
    Resembles (left.perform size effect) (right.perform size effect) := by
  have applied := resembles.apply effect
  refine ⟨applied.word, ?_, applied.relativeBase, applied.suspension,
    congrArg (· + 1) resembles.steps, applied.stepLimit⟩
  cases effect <;> simp only [Machine.perform, resembles.pc]

/-- The machines fail for the same reason, or perform the same instruction. -/
theorem advance : Outcome.Agree Resembles left.advance right.advance := by
  unfold Machine.advance
  rw [resembles.fetch]
  cases left.fetch with
  | error fault => exact .error fault
  | ok instruction =>
    simp only [resembles.effect]
    cases instruction.effect left with
    | error fault => exact .error fault
    | ok effect => exact .ok (resembles.perform instruction.size effect)

theorem together : Round.Together round round Resembles (fun outcome left right =>
      Resembles left right ∧ ∀ answer, outcome = .ok answer → left.suspension = some answer)
    left right := by
  have both := resembles.advance
  generalize advanced : left.advance = outcome, advanced' : right.advance = outcome' at both
  cases both with
  | error fault =>
    exact .inr ⟨.error fault, left, right, round_fails_iff.mpr ⟨advanced, rfl⟩,
      round_fails_iff.mpr ⟨advanced', rfl⟩, resembles, nofun⟩
  | @ok left' right' resembles =>
    cases stopped : left'.suspension with
    | none =>
      exact .inl ⟨left', right', round_goes_iff.mpr ⟨advanced, stopped⟩,
        round_goes_iff.mpr ⟨advanced', resembles.suspension.trans stopped⟩, resembles⟩
    | some suspension =>
      refine .inr ⟨.ok suspension, left', right', round_stops_iff.mpr ⟨advanced, stopped⟩,
        round_stops_iff.mpr ⟨advanced', resembles.suspension.trans stopped⟩, resembles, ?_⟩
      rintro _ ⟨rfl⟩
      exact stopped

theorem awake {supplied supplied' : Option Int} (same : Option.Rel Word.Congruent supplied supplied') :
    Outcome.Agree Resembles (left.awake supplied) (right.awake supplied') := by
  have idle : Resembles { left with suspension := none } { right with suspension := none } :=
    { resembles with suspension := rfl }
  unfold Machine.awake
  rw [resembles.suspension]
  rcases left.suspension with _ | ⟨address | output | _⟩
  · cases same <;> exact .ok idle
  · cases same with
    | none => exact .error _
    | @some word word' same =>
      have both := resembles.write address same
      change Outcome.Agree _ (_ <$> left.memory.write address word) (_ <$> right.memory.write address word')
      generalize left.memory.write address word = reply, right.memory.write address word' = reply'
        at both ⊢
      cases both with
      | error fault => exact .error fault
      | ok stored => exact .ok { idle with word := stored }
  · cases same <;> exact .ok idle
  · cases same <;> exact .error _

/-- Listing a memory leaves out the cells that hold zero, written or not. -/
theorem passages : right.passages = left.passages := by
  -- The two listings may be of different lengths, and agree only once the zeros are taken out.
  unfold Machine.passages heading registersLine suspensionLine cellLines
  rw [Memory.filterMap_toList, Memory.filterMap_toList, Memory.nonzero_eq resembles.word, resembles.pc,
    resembles.relativeBase, resembles.steps, resembles.suspension]
  all_goals
    intro entry zero
    simp [zero]

end Resembles

theorem load_resembles {words words' : List Int} (trace trace' : Bool) (limit : Option Int)
    (same : ∀ index, Word.Congruent (words.getD index 0) (words'.getD index 0)) :
    Resembles (load words trace limit) (load words' trace' limit) where
  word cell := by
    simp only [load, Memory.word_ofWords]
    exact (Word.wrap_eq_iff.mpr (same cell)).symm
  pc := rfl
  relativeBase := rfl
  suspension := rfl
  steps := rfl
  stepLimit := rfl

end Machine

namespace Session

open Call (Paired)

/-- Sessions whose machines resemble each other; their journals may differ. -/
def Alike (left right : Session) : Prop := left.machine.Resembles right.machine

variable {left right : Session}

theorem resume_alike {supplied supplied' : Option Int}
    (same : Option.Rel Word.Congruent supplied supplied') (alike : Alike left right) :
    Paired Alike (Stops fun _ => True) (resume supplied) (resume supplied') left right := by
  have lockstep : Round.Lockstep round round Alike _ :=
    lockstep_of_machines fun _ _ resembles => resembles.together
  intro bound
  rw [resume_apply, resume_apply]
  have woken := Machine.Resembles.awake alike same
  generalize left.machine.awake supplied = start, right.machine.awake supplied' = start' at woken ⊢
  cases woken with
  | error fault => exact .fails alike
  | @ok start start' resembles =>
    have started : Alike ((left.received supplied).withMachine start)
      ((right.received supplied').withMachine start') := resembles
    refine (lockstep.paired started).weaken ?_ bound
    exact fun _ _ stopped => ⟨stopped, fun _ _ => trivial⟩

private theorem store_alike {value value' : Int} (address : Int) (same : Word.Congruent value value')
    (alike : Alike left right) :
    Paired Alike (fun _ _ => True) (store address value) (store address value') left right := by
  have both := Machine.Resembles.write alike address same
  intro bound
  rw [store_apply, store_apply]
  generalize left.machine.memory.write address value = reply,
    right.machine.memory.write address value' = reply' at both ⊢
  cases both with
  | error fault => exact .fails alike
  | ok stored => exact .answers { alike with word := stored } trivial

private theorem access_alike {what what' : Access} (same : what.Matches Word.Congruent what')
    (alike : Alike left right) :
    Paired Alike (fun answer _ => answer.words = []) what.perform what'.perform left right := by
  cases same with
  | store address same => exact (store_alike address same alike).map fun _ _ _ => rfl
  | same what =>
    cases what with
    | read address =>
      refine .get_bind ?_
      rw [alike.read]
      cases left.machine.memory.read address with
      | error fault => exact .bind_of_failed (fun _ => rfl) (fun _ => rfl) alike
      | ok value => exact .bind_of_found (fun _ => rfl) (fun _ => rfl) (.pure alike rfl)
    | store address value => exact (store_alike address rfl alike).map fun _ _ _ => rfl
    | dump =>
      refine .get_bind ?_
      simp only [Machine.dumped, Machine.dump, alike.passages]
      exact .pure alike rfl
    | execute instruction =>
      intro bound
      simp only [Access.perform, execute, alike.effect]
      cases instruction.effect left.machine with
      | error fault => exact .fails alike
      | ok effect => exact .answers (alike.apply effect) rfl
    | setPc pc => exact .modify_bind (.pure { alike with pc := rfl } rfl)
    | setBase base => exact .modify_bind (.pure { alike with relativeBase := rfl } rfl)
    | setLimit limit => exact .modify_bind (.pure { alike with stepLimit := rfl } rfl)

theorem indistinct_alike : Indistinct Alike Word.Congruent fun _ => True where
  suspension := fun alike => alike.suspension
  unfed := fun alike => resume_alike .none alike
  fed := fun same alike => resume_alike (.some same) alike
  observe := fun alike outcome => by
    simp only [observe, alike.pc, alike.relativeBase, alike.steps, alike.suspension]
  access := access_alike

theorem Alike.ends_drive (alike : Alike left right) {inputs : List Int} {outcome : Except Fault Unit}
    {after : Exchange} (ends : Exchange.drive.Ends { session := left, inputs } outcome after) :
    ∃ after', Exchange.drive.Ends { session := right, inputs } outcome after' ∧
      after'.inputs = after.inputs ∧ after'.outputs = after.outputs ∧
      Alike after.session after'.session := by
  have companions : Companions Alike Eq fun _ => True :=
    ⟨indistinct_alike.suspension, indistinct_alike.unfed, fun same alike => same ▸ indistinct_alike.fed rfl alike⟩
  have beside : Exchange.Beside Alike Eq (fun _ => True) { session := left, inputs }
      { session := right, inputs } :=
    ⟨alike, List.forall₂_same.mpr fun _ _ => rfl, rfl, rfl, fun _ _ => trivial⟩
  obtain ⟨after', ended, kept, _⟩ := (beside.drive companions).ends ends
  have inputs := kept.inputs
  rw [List.forall₂_eq_eq_eq] at inputs
  exact ⟨after', ended, inputs.symm, kept.outputs, kept.session⟩

/-- Sessions whose machines resemble each other are observed alike, whatever is done with them. -/
theorem Alike.history_iff (alike : Alike left right) (actions : List Action)
    (observations : List Observation) :
    (∃ after, History left actions observations after) ↔
      ∃ after, History right actions observations after := by
  have same : List.Forall₂ (Action.Matches Word.Congruent) actions actions :=
    List.forall₂_same.mpr fun action _ => action.matches_refl fun value => (rfl : Word.Congruent value value)
  have onward {left right : Session} (alike : Alike left right) :
      (∃ after, History left actions observations after) →
        ∃ after, History right actions observations after := by
    rintro ⟨_, history⟩
    obtain ⟨⟨after, others, _⟩, _⟩ := indistinct_alike.history same alike history
    exact ⟨after, others⟩
  exact ⟨onward alike, onward alike.symm⟩

/-- Neither zeros written out in a program, nor the integers that its words, its inputs or
the words stored by the host are given as, make a difference to anything that the host
observes, the listing of memory included. -/
theorem history_iff_of_congruent {words words' : List Int} {actions actions' : List Action}
    (loaded : ∀ index, Word.Congruent (words.getD index 0) (words'.getD index 0))
    (acted : List.Forall₂ (Action.Matches Word.Congruent) actions actions')
    (trace trace' : Bool) (limit : Option Int) (observations : List Observation) :
    (∃ session, History (load words trace limit) actions observations session) ↔
      ∃ session, History (load words' trace' limit) actions' observations session := by
  have alike : Alike (load words trace limit) (load words' trace' limit) :=
    Machine.load_resembles trace trace' limit loaded
  have acted' : List.Forall₂ (Action.Matches Word.Congruent) actions' actions :=
    (acted.imp fun _ _ same => same.symm Eq.symm).flip
  constructor
  · rintro ⟨session, history⟩
    obtain ⟨⟨after, same, _⟩, _⟩ := indistinct_alike.history acted alike history
    exact ⟨after, same⟩
  · rintro ⟨session, history⟩
    obtain ⟨⟨after, same, _⟩, _⟩ := indistinct_alike.history acted' alike.symm history
    exact ⟨after, same⟩

/-- The second program spells its words differently and ends in two cells that hold zero.
Its host stores and supplies other integers, and is told the same. -/
theorem history_iff_of_congruent_echo : ∃ observations,
    (∃ session, History (load [3, 18446744073709551625, 4, 9, 99] false none)
      [.resume none, .access (.store 12 (-1)), .step 18446744073709551621, .access (.read 9),
        .access .dump] observations session) ∧
    (∃ session, History (load [-18446744073709551613, 9, 4, 9, 99, 0, 18446744073709551616] true none)
      [.resume none, .access (.store 12 18446744073709551615), .step 5, .access (.read 9),
        .access .dump] observations session) ∧
    observations.map (·.words) = [[], [], [5], [], []] := by
  have history : History (load [3, 18446744073709551625, 4, 9, 99] false none)
      [.resume none, .access (.store 12 (-1)), .step 18446744073709551621, .access (.read 9),
        .access .dump] _ _ :=
    .next ⟨9, rfl⟩ (.next ⟨9, rfl⟩ (.next ⟨9, rfl⟩ (.next ⟨9, rfl⟩ (.next ⟨9, rfl⟩ .start))))
  have loaded (index : Nat) : Word.Congruent ([3, 18446744073709551625, 4, 9, 99].getD index 0)
      ([-18446744073709551613, 9, 4, 9, 99, 0, 18446744073709551616].getD index 0) := by
    match index with
    | 0 | 1 | 2 | 3 | 4 | 5 | 6 => rfl
    | _ + 7 => rfl
  have acted : List.Forall₂ (Action.Matches Word.Congruent)
      [.resume none, .access (.store 12 (-1)), .step 18446744073709551621, .access (.read 9),
        .access .dump]
      [.resume none, .access (.store 12 18446744073709551615), .step 5, .access (.read 9),
        .access .dump] :=
    .cons .unfed (.cons (.access (.store 12 rfl)) (.cons (.step rfl)
      (.cons (.access (.same _)) (.cons (.access (.same _)) .nil))))
  exact ⟨_, ⟨_, history⟩, (history_iff_of_congruent loaded acted false true none _).mp ⟨_, history⟩, rfl⟩

end Session
end Intcode
