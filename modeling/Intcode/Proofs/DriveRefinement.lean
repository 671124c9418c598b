import Intcode.Proofs.Driving
import Intcode.Proofs.InstructionRefinement

/-! Driving a machine computes what the plain interpreter computes. One turn of a drive is
one round of the interpreter: the machine's suspension, and the input that is only stored
when the machine wakes, are over by the end of the turn. -/

namespace Intcode

/-- What is left to see of a run that halted. -/
structure Result where
  outputs : List Int
  steps : Nat
  pc : Int
  relativeBase : Int
  read : Int → Except Fault Int

def Exchange.result (exchange : Exchange) : Result where
  outputs := exchange.outputs.toList
  steps := exchange.session.machine.steps
  pc := exchange.session.machine.pc
  relativeBase := exchange.session.machine.relativeBase
  read := exchange.session.machine.memory.read

namespace OnePass

def State.result (state : State) : Result where
  outputs := state.outputs.map Int64.toInt
  steps := state.steps
  pc := state.pc
  relativeBase := state.relativeBase
  read address := Int64.toInt <$> state.read address

/-- Between two turns the machine is awake, and all its input and output is settled. -/
structure Follows (exchange : Exchange) (state : State) : Prop where
  machine : Mirrors exchange.session.machine state
  awake : exchange.session.machine.suspension = none
  unlimited : exchange.session.machine.stepLimit = none
  opened : exchange.closed = false
  inputs : exchange.inputs = state.inputs
  outputs : exchange.outputs.toList = state.outputs.map Int64.toInt

/-- What a program can fail for by itself: a word, an address or the end of its inputs. -/
def Ordinary (fault : Fault) : Prop :=
  fault.causeKind = .decoding ∨ fault.causeKind = .addressing ∨ fault.causeKind = .drained

/-- A halt leaves the same result, and a fault the same outputs. -/
def Finishes : Except Fault Unit → Exchange → State → Prop
  | .ok (), exchange, state => exchange.result = state.result
  | .error fault, exchange, state =>
    exchange.outputs.toList = state.outputs.map Int64.toInt ∧ Ordinary fault

abbrev Together : Exchange → State → Prop :=
  Round.Together Exchange.turn State.round Follows Finishes

theorem Mirrors.result {exchange : Exchange} {state : State}
    (mirrors : Mirrors exchange.session.machine state)
    (outputs : exchange.outputs.toList = state.outputs.map Int64.toInt) :
    exchange.result = state.result := by
  unfold Exchange.result State.result
  rw [outputs, mirrors.steps, mirrors.pc, mirrors.relativeBase, funext mirrors.read]

theorem State.round_of_error {state : State} {fault : Fault} (stepped : state.step = .error fault) :
    round state = (.error fault, state) := by
  rw [round, stepped]

theorem State.round_of_ok {state after : State} {answer : Option Unit}
    (stepped : state.step = .ok (answer, after)) : round state = (.ok answer, after) := by
  rw [round, stepped]

namespace Follows

variable {exchange : Exchange} {state : State} {instruction : Instruction}

theorem fails (follows : Follows exchange state) {fault : Fault}
    (advanced : exchange.session.machine.advance = .error fault) (stepped : state.step = .error fault) :
    Together exchange state := by
  obtain ⟨journal, turned⟩ := Exchange.turn_machine (Machine.round_fails_iff.mpr ⟨advanced, rfl⟩)
  have budget : exchange.session.machine.HasBudget := by
    intro limit limited
    rw [follows.unlimited] at limited
    cases limited
  have ordinary : Ordinary fault := (Machine.advance_fails budget advanced).imp_right Or.inl
  exact Or.inr ⟨.error fault, _, state, turned, State.round_of_error stepped, follows.outputs, ordinary⟩

theorem goes (follows : Follows exchange state) {machine : Machine} {next : State}
    (advanced : exchange.session.machine.advance = .ok machine)
    (stepped : state.step = .ok (none, next)) (mirrors : Mirrors machine next)
    (awake : machine.suspension = none) (inputs : next.inputs = state.inputs)
    (outputs : next.outputs = state.outputs) : Together exchange state := by
  obtain ⟨journal, turned⟩ := Exchange.turn_machine (Machine.round_goes_iff.mpr ⟨advanced, awake⟩)
  refine Or.inl ⟨_, next, turned, State.round_of_ok stepped, mirrors, awake, ?_, follows.opened, ?_, ?_⟩
  · exact (Machine.advance_counts advanced).2.1.trans follows.unlimited
  · exact follows.inputs.trans inputs.symm
  · exact follows.outputs.trans (by rw [outputs])

section Decoded

variable (follows : Follows exchange state)
  (stands : Instruction.Stands exchange.session.machine.memory exchange.session.machine.pc instruction)
include follows stands

theorem advance_eq :
    exchange.session.machine.advance = (exchange.session.machine.perform instruction.size ·) <$>
      instruction.effect exchange.session.machine := by
  unfold Machine.advance Machine.fetch
  rw [follows.unlimited, Instruction.decode_eq_ok_iff.mpr stands]

theorem step_eq :
    state.step = (if instruction.operation = .halt then some () else none, ·) <$>
      state.perform instruction.operation := by
  unfold State.step
  rw [follows.machine.fetch, Instruction.decode_eq_ok_iff.mpr stands]
  cases performed : state.perform instruction.operation with
  | ok after =>
    simp only [Outcome.map_ok, Outcome.ok_bind, performed]
    rfl
  | error fault => simp only [Outcome.map_ok, Outcome.map_error, Outcome.ok_bind, Outcome.error_bind, performed]

theorem output (known : instruction.operation = .output) : Together exchange state := by
  have one : instruction.operation.arity = 1 := by rw [known]; rfl
  have size : instruction.size = 1 + 1 := by rw [stands.size_eq, one]
  have advance := follows.advance_eq stands
  have step := follows.step_eq stands
  have value := follows.machine.valueOf stands (by omega : 0 < instruction.operation.arity)
  simp only [Instruction.effect, State.perform, State.emit, known, value] at advance step
  cases found : state.value 0 with
  | error fault =>
    rw [found] at advance step
    exact follows.fails advance step
  | ok value =>
    rw [found] at advance step
    obtain ⟨journal, turned⟩ := Exchange.turn_machine (Machine.round_of_ok advance)
    let stopped := exchange.session.machine.perform instruction.size (.emit value.toInt)
    let emitting : Exchange := { exchange with session := { machine := stopped, journal } }
    let ready : Exchange := { emitting with outputs := exchange.outputs.push value.toInt }
    have delivered : exchange.turn = ready.woken none :=
      turned.trans (@Exchange.served_output emitting follows.opened value.toInt)
    rw [@Exchange.woken_after_output ready value.toInt rfl] at delivered
    have moved := follows.machine.next size
    have unlimited : stopped.stepLimit = none :=
      (Machine.advance_counts advance).2.1.trans follows.unlimited
    have outputs : ready.outputs.toList = (state.outputs ++ [value]).map Int64.toInt := by
      simp [ready, follows.outputs]
    exact Or.inl ⟨_, _, delivered, State.round_of_ok step,
      ⟨moved.word, moved.pc, moved.relativeBase, moved.steps⟩, rfl, unlimited, follows.opened,
      follows.inputs, outputs⟩

theorem input (known : instruction.operation = .input) : Together exchange state := by
  have one : instruction.operation.arity = 1 := by rw [known]; rfl
  have size : instruction.size = 1 + 1 := by rw [stands.size_eq, one]
  have advance := follows.advance_eq stands
  have step := follows.step_eq stands
  have place := follows.machine.addressOf stands (by omega : 0 < instruction.operation.arity)
  simp only [Instruction.effect, State.perform, State.take, known, place] at advance step
  cases found : state.place 0 with
  | error fault =>
    rw [found] at advance step
    exact follows.fails advance step
  | ok address =>
    rw [found] at advance step
    obtain ⟨journal, turned⟩ := Exchange.turn_machine (Machine.round_of_ok advance)
    let stopped := exchange.session.machine.perform instruction.size (.await address)
    let waiting : Exchange := { exchange with session := { machine := stopped, journal } }
    have asked : exchange.turn = waiting.served (.awaitingInput address) := turned
    rw [Outcome.ok_bind, ← follows.inputs] at step
    cases supply : exchange.inputs with
    | nil =>
      rw [supply] at step
      rw [@Exchange.served_input_nil waiting follows.opened supply] at asked
      exact Or.inr ⟨.error .inputDrained, waiting, state, asked, State.round_of_error step,
        follows.outputs, Or.inr (Or.inr rfl)⟩
    | cons value inputs =>
      rw [supply] at step
      rw [@Exchange.served_input_cons waiting follows.opened _ _ supply,
        @Exchange.woken_with_input { waiting with inputs } address value rfl] at asked
      -- Only now, with a word to store, does it matter whether the address is a cell.
      simp only [State.write] at step
      by_cases inside : 0 ≤ address
      · rw [if_pos inside] at asked step
        have moved := (follows.machine.put address.toNat (Word.toInt_ofInt value).symm).next size
        have unlimited : stopped.stepLimit = none :=
          (Machine.advance_counts advance).2.1.trans follows.unlimited
        exact Or.inl ⟨_, _, asked, State.round_of_ok step,
          ⟨moved.word, moved.pc, moved.relativeBase, moved.steps⟩, rfl, unlimited, follows.opened,
          rfl, follows.outputs⟩
      · rw [if_neg inside] at asked step
        exact Or.inr ⟨.error (.negativeAddress address), _, state, asked, State.round_of_error step,
          follows.outputs, Or.inr (Or.inl rfl)⟩

theorem halt (known : instruction.operation = .halt) : Together exchange state := by
  have advance := follows.advance_eq stands
  have step := follows.step_eq stands
  simp only [Instruction.effect, State.perform, known] at advance step
  obtain ⟨journal, turned⟩ := Exchange.turn_machine (Machine.round_of_ok advance)
  have stays := follows.machine.goto state.pc
  refine Or.inr ⟨.ok (), _, _, turned, State.round_of_ok step, ?_⟩
  exact Mirrors.result ⟨stays.word, follows.machine.pc, stays.relativeBase, stays.steps⟩ follows.outputs

end Decoded

/-- Every instruction keeps the two together. -/
theorem together (follows : Follows exchange state) : Together exchange state := by
  cases decoded : Instruction.decode exchange.session.machine.memory exchange.session.machine.pc with
  | error fault =>
    have advanced : exchange.session.machine.advance = .error fault := by
      unfold Machine.advance Machine.fetch
      rw [follows.unlimited, decoded]
    have stepped : state.step = .error fault := by
      unfold State.step
      rw [follows.machine.fetch, decoded]
      rfl
    exact follows.fails advanced stepped
  | ok instruction =>
    have stands := Instruction.decode_eq_ok_iff.mp decoded
    by_cases input : instruction.operation = .input
    · exact follows.input stands input
    by_cases output : instruction.operation = .output
    · exact follows.output stands output
    by_cases halt : instruction.operation = .halt
    · exact follows.halt stands halt
    have alike := follows.machine.effect stands ⟨input, output, halt⟩
    have advance := follows.advance_eq stands
    have step := follows.step_eq stands
    rw [if_neg halt] at step
    generalize instruction.effect exchange.session.machine = found at alike advance
    generalize state.perform instruction.operation = performed at alike step
    cases alike with
    | fails => exact follows.fails advance step
    | goes mirrors awake inputs outputs =>
      exact follows.goes advance step mirrors (awake.trans follows.awake) inputs outputs

end Follows

theorem lockstep : Round.Lockstep Exchange.turn State.round Follows Finishes :=
  fun _ _ follows => follows.together

private theorem follows_load (words inputs : List Int) (trace : Bool) :
    Follows ((Program.mk words).exchange inputs trace none) (.load words inputs) where
  machine :=
    { word := fun cell => (Memory.word_ofWords words cell).trans (Word.toInt_ofInt _).symm
      pc := rfl
      relativeBase := rfl
      steps := rfl }
  awake := rfl
  unlimited := rfl
  opened := rfl
  inputs := rfl
  outputs := rfl

/-- A drive without a step limit halts where the plain interpreter halts, with the same
result, and fails where it fails, for the same reason and after the same outputs. Nothing
but the program and its inputs can make it fail. -/
theorem drive_iff_run (words inputs : List Int) (trace : Bool) :
    (∀ result,
      (∃ after, Exchange.drive.Ends ((Program.mk words).exchange inputs trace none) (.ok ()) after ∧
        after.result = result) ↔
      ∃ final, State.run.Ends (.load words inputs) (.ok ()) final ∧ final.result = result) ∧
    (∀ fault outputs,
      (∃ after, Exchange.drive.Ends ((Program.mk words).exchange inputs trace none) (.error fault) after ∧
        after.outputs.toList = outputs) ↔
      ∃ final, State.run.Ends (.load words inputs) (.error fault) final ∧
        final.outputs.map Int64.toInt = outputs) ∧
    ∀ fault after,
      Exchange.drive.Ends ((Program.mk words).exchange inputs trace none) (.error fault) after →
      Ordinary fault := by
  have start := follows_load words inputs trace
  simp only [Exchange.ends_drive_of_running start.awake, State.run]
  refine ⟨fun result => ⟨?_, ?_⟩, fun fault outputs => ⟨?_, ?_⟩, fun fault after ends => ?_⟩
  · rintro ⟨after, ends, rfl⟩
    obtain ⟨final, ran, same⟩ := lockstep.ends start ends
    exact ⟨final, ran, same.symm⟩
  · rintro ⟨final, ends, rfl⟩
    obtain ⟨after, drove, same⟩ := lockstep.symm.ends start ends
    exact ⟨after, drove, same⟩
  · rintro ⟨after, ends, rfl⟩
    obtain ⟨final, ran, same, _⟩ := lockstep.ends start ends
    exact ⟨final, ran, same.symm⟩
  · rintro ⟨final, ends, rfl⟩
    obtain ⟨after, drove, same, _⟩ := lockstep.symm.ends start ends
    exact ⟨after, drove, same⟩
  · obtain ⟨final, ran, _, ordinary⟩ := lockstep.ends start ends
    exact ordinary

end OnePass
end Intcode
