import Intcode.Proofs.Running

/-! Where a machine stops. A resumption performs instructions that need no host, and then
one that does. That one still stands in memory right behind the machine, or under it if it
was a halt, because it changed nothing but the suspension. -/

namespace Intcode

/-- The operations that hand control back to the host. -/
def Operation.Suspends (operation : Operation) : Prop :=
  operation = .input ∨ operation = .output ∨ operation = .halt

namespace Machine

/-- Instructions performed one after the other, each fetched from the machine that the one
before it left. -/
inductive Performs : Machine → List Instruction → Machine → Prop where
  | rest : Performs machine [] machine
  | next (fetched : before.fetch = .ok instruction) (found : instruction.effect before = .ok effect)
    (performs : Performs (before.perform instruction.size effect) rest after) :
    Performs before (instruction :: rest) after

/-- The instruction that a machine stopped at, as it is decoded from the memory that the
machine holds now. -/
inductive StoppedAt (machine : Machine) : Suspension → Prop where
  | complete (decoded : Instruction.decode machine.memory machine.pc = .ok ⟨.halt, []⟩) :
    StoppedAt machine .complete
  | awaitingInput (behind : 2 ≤ machine.pc)
    (decoded : Instruction.decode machine.memory (machine.pc - 2) = .ok ⟨.input, [operand]⟩)
    (placed : machine.address operand = .ok place) : StoppedAt machine (.awaitingInput place)
  | producedOutput (behind : 2 ≤ machine.pc)
    (decoded : Instruction.decode machine.memory (machine.pc - 2) = .ok ⟨.output, [operand]⟩)
    (resolved : machine.value operand = .ok word) : StoppedAt machine (.producedOutput word)

theorem Performs.steps {before after : Machine} {instructions : List Instruction}
    (performs : Performs before instructions after) :
    after.steps = before.steps + instructions.length := by
  induction performs with
  | rest => rfl
  | next _ _ _ ih =>
    rw [ih, List.length_cons]
    simp only [perform]
    omega

theorem Performs.append {before middle after : Machine} {instructions more : List Instruction}
    (performs : Performs before instructions middle) (rest : Performs middle more after) :
    Performs before (instructions ++ more) after := by
  induction performs with
  | rest => exact rest
  | next fetched found _ ih => exact .next fetched found (ih rest)

/-- A machine is suspended by the operations that need the host, and by no others. -/
theorem suspends_iff {machine : Machine} {instruction : Instruction} {effect : Effect}
    (awake : machine.suspension = none) (found : instruction.effect machine = .ok effect) :
    (machine.perform instruction.size effect).suspension ≠ none ↔ instruction.operation.Suspends := by
  unfold Operation.Suspends
  cases Instruction.effect_yields found with
  | await known | emit known | halt known => simp [perform, apply, known]
  | shiftBase known => simp [perform, apply, awake, known]
  | write stores | jump stores | pass stores =>
    cases known : instruction.operation <;> rw [known] at stores <;> cases stores <;>
      simp [perform, apply, awake]

private theorem performs_of_passes {count : Nat} {before after : Machine} (awake : before.suspension = none)
    (passes : Round.Passes round count before after) :
    ∃ silent, Performs before silent after ∧
      ∀ instruction ∈ silent, ¬ instruction.operation.Suspends := by
  induction passes with
  | rest => exact ⟨[], .rest, nofun⟩
  | next went _ ih =>
    obtain ⟨advanced, still⟩ := round_goes_iff.mp went
    obtain ⟨silent, performs, quiet⟩ := ih still
    obtain ⟨instruction, effect, fetched, found, rfl⟩ := advance_eq_ok advanced
    refine ⟨instruction :: silent, .next fetched found performs, ?_⟩
    intro other member
    rcases List.mem_cons.mp member with rfl | member
    · rw [← suspends_iff awake found]
      exact fun stopped => stopped still
    · exact quiet other member

theorem one_operand {machine : Machine} {instruction : Instruction}
    (stands : Instruction.Stands machine.memory machine.pc instruction)
    (one : instruction.operation.arity = 1) :
    ∃ operand, instruction = ⟨instruction.operation, [operand]⟩ ∧
      2 ≤ machine.pc + instruction.size ∧ machine.pc + instruction.size - 2 = machine.pc := by
  have single : instruction.operands.length = 1 := stands.length.trans one
  obtain ⟨operand, only⟩ := List.length_eq_one_iff.mp single
  have inside := stands.inside
  have size : instruction.size = 2 := by rw [stands.size_eq, one]
  refine ⟨operand, ?_, by omega, by omega⟩
  rw [← only]

private theorem stoppedAt_of_effect {machine : Machine} {instruction : Instruction} {effect : Effect}
    {suspension : Suspension} (awake : machine.suspension = none)
    (fetched : machine.fetch = .ok instruction) (found : instruction.effect machine = .ok effect)
    (stopped : (machine.perform instruction.size effect).suspension = some suspension) :
    StoppedAt (machine.perform instruction.size effect) suspension := by
  have decoded := decode_of_fetch fetched
  have stands := Instruction.decode_eq_ok_iff.mp decoded
  cases Instruction.effect_yields found with
  | write | shiftBase | jump | pass =>
    have still : machine.suspension = some suspension := stopped
    rw [awake] at still
    cases still
  | halt known =>
    cases stopped
    have none : instruction.operands = [] := List.eq_nil_of_length_eq_zero (by
      rw [stands.length, known]
      rfl)
    obtain ⟨operation, operands⟩ := instruction
    cases known
    cases none
    exact .complete decoded
  | await known read =>
    cases stopped
    obtain ⟨operand, same, behind, back⟩ := one_operand stands (by rw [known]; rfl)
    rw [known] at same
    subst same
    exact .awaitingInput behind ((congrArg (Instruction.decode machine.memory) back).trans decoded) read
  | emit known read =>
    cases stopped
    obtain ⟨operand, same, behind, back⟩ := one_operand stands (by rw [known]; rfl)
    rw [known] at same
    subst same
    exact .producedOutput behind ((congrArg (Instruction.decode machine.memory) back).trans decoded) read

end Machine

namespace Session

/-- Whatever a resumption answers, the instruction there says: a halt stands at the program
counter, and an input or output right before it, with the operand that the machine awaits
the word at or read the word from. Every instruction performed on the way there counts one
step, and none but the last needed the host. -/
theorem resume_stops_at {session after : Session} {value : Option Int} {suspension : Suspension}
    (ends : (resume value).Ends session (.ok suspension) after) :
    after.machine.StoppedAt suspension ∧
    ∃ start silent last, session.machine.awake value = .ok start ∧
      Machine.Performs start (silent ++ [last]) after.machine ∧
      (∀ instruction ∈ silent, ¬ instruction.operation.Suspends) ∧ last.operation.Suspends ∧
      after.machine.steps = session.machine.steps + (silent.length + 1) := by
  rcases ends_resume.mp ends with ⟨fault, _, impossible, _⟩ | ⟨start, woken, ran⟩
  · cases impossible
  obtain ⟨count, last, passes, closes⟩ := Round.ends_iff.mp ran
  have passed := passes_machine passes
  have idle := Machine.awake_suspension woken
  have still := Machine.passes_suspension passed idle
  obtain ⟨silent, performs, quiet⟩ := Machine.performs_of_passes idle passed
  obtain ⟨advanced, stopped⟩ := Machine.round_stops_iff.mp (Round.closes_ok.mp (closes_machine closes))
  obtain ⟨instruction, effect, fetched, found, left⟩ := Machine.advance_eq_ok advanced
  rw [left] at stopped ⊢
  have whole := performs.append (.next fetched found .rest)
  refine ⟨Machine.stoppedAt_of_effect still fetched found stopped, start, silent, instruction,
    woken, whole, quiet, ?_, ?_⟩
  · rw [← Machine.suspends_iff still found, stopped]
    exact nofun
  · rw [whole.steps, Machine.awake_steps woken, List.length_append]
    rfl

/-- The machine awaits a word at an address relative to a base that it had moved itself. -/
theorem resume_stops_at_relative_input : ∃ session after,
    (resume none).Ends (load [104, 1, 109, 9, 203, 3, 99] false none) (.ok (.producedOutput 1)) session ∧
    (resume (some 7)).Ends session (.ok (.awaitingInput 12)) after ∧
    after.machine.StoppedAt (.awaitingInput 12) ∧
    ∃ start silent last, session.machine.awake (some 7) = .ok start ∧
      Machine.Performs start (silent ++ [last]) after.machine ∧
      (∀ instruction ∈ silent, ¬ instruction.operation.Suspends) ∧ last.operation.Suspends ∧
      after.machine.steps = session.machine.steps + (silent.length + 1) :=
  ⟨_, _, ⟨9, rfl⟩, ⟨9, rfl⟩, resume_stops_at ⟨9, rfl⟩⟩

end Session
end Intcode
