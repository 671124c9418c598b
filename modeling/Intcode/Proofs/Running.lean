import Intcode.Proofs.Effects
import Intcode.Proofs.Loops
import Intcode.Session

/-! A session runs by repeating one round: fetch an instruction, perform it and see
whether the machine stopped. Only the machine decides how a round goes, so that the
journal, which is left out of the machine's own rounds, never matters. -/

namespace Intcode

namespace Machine

def advance (machine : Machine) : Except Fault Machine :=
  match machine.fetch with
  | .error fault => .error fault
  | .ok instruction => (machine.perform instruction.size ·) <$> instruction.effect machine

def round : Round Machine Suspension := fun machine =>
  match machine.advance with
  | .error fault => (.error fault, machine)
  | .ok after => (.ok after.suspension, after)

/-- The machine that a resumption runs on: an awaited word is stored first. -/
def awake (machine : Machine) (value : Option Int) : Except Fault Machine :=
  match machine.suspension, value with
  | some .complete, _ => .error .alreadyComplete
  | some (.awaitingInput _), none => .error .inputExpected
  | some (.awaitingInput address), some value =>
    ({ machine with memory := ·, suspension := none }) <$> machine.memory.write address value
  | _, _ => .ok { machine with suspension := none }

theorem round_goes_iff {machine after : Machine} :
    machine.round = (.ok none, after) ↔ machine.advance = .ok after ∧ after.suspension = none := by
  unfold round
  cases machine.advance with
  | error fault => simp
  | ok next => simp; grind

theorem round_stops_iff {machine after : Machine} {suspension : Suspension} :
    machine.round = (.ok (some suspension), after) ↔
      machine.advance = .ok after ∧ after.suspension = some suspension := by
  unfold round
  cases machine.advance with
  | error fault => simp
  | ok next => simp; grind

theorem round_fails_iff {machine after : Machine} {fault : Fault} :
    machine.round = (.error fault, after) ↔ machine.advance = .error fault ∧ after = machine := by
  unfold round
  cases machine.advance with
  | error fault => simp; grind
  | ok next => simp

theorem round_of_ok {machine after : Machine} (advanced : machine.advance = .ok after) :
    machine.round = (.ok after.suspension, after) := by
  rw [round, advanced]

/-- An instruction is fetched, its effect is known, and then nothing can fail. -/
theorem advance_eq_ok {machine after : Machine} (advanced : machine.advance = .ok after) :
    ∃ instruction effect, machine.fetch = .ok instruction ∧
      instruction.effect machine = .ok effect ∧ after = machine.perform instruction.size effect := by
  unfold advance at advanced
  cases fetched : machine.fetch with
  | error fault => rw [fetched] at advanced; cases advanced
  | ok instruction =>
    cases found : instruction.effect machine with
    | error fault => simp only [fetched, found] at advanced; cases advanced
    | ok effect =>
      simp only [fetched, found] at advanced
      cases advanced
      exact ⟨instruction, effect, rfl, found, rfl⟩

@[simp]
theorem apply_stepLimit (machine : Machine) (effect : Effect) :
    (machine.apply effect).stepLimit = machine.stepLimit := by cases effect <;> rfl

@[simp]
theorem apply_trace (machine : Machine) (effect : Effect) :
    (machine.apply effect).trace = machine.trace := by cases effect <;> rfl

/-- An instruction counts one step and leaves the settings of the machine alone. -/
theorem advance_counts {machine after : Machine} (advanced : machine.advance = .ok after) :
    after.steps = machine.steps + 1 ∧ after.stepLimit = machine.stepLimit ∧
      after.trace = machine.trace := by
  obtain ⟨instruction, effect, _, _, rfl⟩ := advance_eq_ok advanced
  simp [perform]

theorem passes_steps {count : Nat} {before after : Machine}
    (passes : Round.Passes round count before after) : after.steps = before.steps + count := by
  induction passes with
  | rest => rfl
  | next went _ ih =>
    have counted := (advance_counts (round_goes_iff.mp went).1).1
    omega

/-- A machine that wakes forgets where it stopped. If it awaited a word there, it got one. -/
theorem awake_eq_ok {machine start : Machine} {value : Option Int} (woken : machine.awake value = .ok start) :
    ∃ memory, start = { machine with memory, suspension := none } ∧
      (memory = machine.memory ∨ ∃ address word, value = some word ∧
        machine.suspension = some (.awaitingInput address) ∧
        machine.memory.write address word = .ok memory) := by
  unfold awake at woken
  split at woken
  next => cases woken
  next => cases woken
  next address word waiting =>
    obtain ⟨memory, written, rfl⟩ := Outcome.map_eq_ok_iff.mp woken
    exact ⟨memory, rfl, Or.inr ⟨address, word, rfl, waiting, written⟩⟩
  next =>
    cases woken
    exact ⟨machine.memory, rfl, Or.inl rfl⟩

theorem awake_suspension {machine start : Machine} {value : Option Int}
    (woken : machine.awake value = .ok start) : start.suspension = none := by
  obtain ⟨memory, rfl, _⟩ := awake_eq_ok woken
  rfl

theorem awake_steps {machine start : Machine} {value : Option Int}
    (woken : machine.awake value = .ok start) : start.steps = machine.steps := by
  obtain ⟨memory, rfl, _⟩ := awake_eq_ok woken
  rfl

theorem awake_of_running {machine : Machine} (running : machine.suspension = none)
    (value : Option Int) : machine.awake value = .ok machine := by
  unfold awake
  rw [running]
  cases value <;> simp only [← running]

theorem awake_of_idle {machine : Machine}
    (idle : ∀ address, machine.suspension ≠ some (.awaitingInput address)) (value : Option Int) :
    machine.awake value = machine.awake none := by
  unfold awake
  cases stopped : machine.suspension with
  | none => cases value <;> rfl
  | some suspension =>
    cases suspension with
    | awaitingInput address => exact (idle address stopped).elim
    | producedOutput output => cases value <;> rfl
    | complete => rfl

theorem passes_suspension {count : Nat} {before after : Machine}
    (passes : Round.Passes round count before after) (running : before.suspension = none) :
    after.suspension = none :=
  passes.preserves (fun _ went => (round_goes_iff.mp went).2) running

def HasBudget (machine : Machine) : Prop :=
  ∀ limit, machine.stepLimit = some limit → machine.steps < limit

theorem fetch_of_budget {machine : Machine} (budget : machine.HasBudget) :
    machine.fetch = Instruction.decode machine.memory machine.pc := by
  unfold fetch
  split
  next limit limited => rw [if_neg (Int.not_le.mpr (budget limit limited))]
  next => rfl

theorem decode_of_fetch {machine : Machine} {instruction : Instruction}
    (fetched : machine.fetch = .ok instruction) :
    Instruction.decode machine.memory machine.pc = .ok instruction := by
  unfold fetch at fetched
  split at fetched
  · split at fetched
    · cases fetched
    · exact fetched
  · exact fetched

theorem advance_of_exhausted {machine : Machine} {limit : Int} (limited : machine.stepLimit = some limit)
    (spent : limit ≤ machine.steps) : machine.advance = .error (.stepLimit limit machine.pc) := by
  simp only [advance, fetch, limited, if_pos spent]

theorem hasBudget_or_exhausted (machine : Machine) :
    machine.HasBudget ∨ ∃ limit, machine.stepLimit = some limit ∧ limit ≤ machine.steps := by
  cases limited : machine.stepLimit with
  | none => exact Or.inl fun limit impossible => by rw [limited] at impossible; cases impossible
  | some limit =>
    by_cases spent : limit ≤ machine.steps
    · exact Or.inr ⟨limit, rfl, spent⟩
    · refine Or.inl fun other same => ?_
      rw [limited] at same
      cases same
      exact Int.not_le.mp spent

theorem hasBudget_of_advance {machine after : Machine} (advanced : machine.advance = .ok after) :
    machine.HasBudget := by
  rcases machine.hasBudget_or_exhausted with budget | ⟨limit, limited, spent⟩
  · exact budget
  · rw [advance_of_exhausted limited spent] at advanced
    cases advanced

/-- Within its budget a machine fails for a word it cannot decode or for an address. -/
theorem advance_fails {machine : Machine} {fault : Fault} (budget : machine.HasBudget)
    (failed : machine.advance = .error fault) :
    fault.causeKind = .decoding ∨ fault.causeKind = .addressing := by
  unfold advance at failed
  rw [fetch_of_budget budget] at failed
  cases decoded : Instruction.decode machine.memory machine.pc with
  | error cause =>
    rw [decoded] at failed
    cases failed
    exact Instruction.decode_fails decoded
  | ok instruction =>
    simp only [decoded] at failed
    have stands := Instruction.decode_eq_ok_iff.mp decoded
    exact Or.inr (stands.effect_fails (Outcome.map_eq_error_iff.mp failed))

/-- A machine that used up its budget, and no other, fails for it. -/
theorem advance_eq_stepLimit_iff {machine : Machine} {limit pc : Int} :
    machine.advance = .error (.stepLimit limit pc) ↔
      machine.stepLimit = some limit ∧ limit ≤ machine.steps ∧ pc = machine.pc := by
  constructor
  · intro failed
    rcases machine.hasBudget_or_exhausted with budget | ⟨other, limited, spent⟩
    · rcases advance_fails budget failed with kind | kind <;> cases kind
    · rw [advance_of_exhausted limited spent] at failed
      cases failed
      exact ⟨limited, spent, rfl⟩
  · rintro ⟨limited, spent, rfl⟩
    exact advance_of_exhausted limited spent

end Machine

namespace Session

def round : Round Session Suspension := fun session =>
  match session.tick with
  | (.error fault, after) => (.error fault, after)
  | (.ok (), after) => (.ok after.machine.suspension, after)

/-- Enter the instruction that is about to be performed, when tracing. -/
def traced (session : Session) (instruction : Instruction) : Session :=
  if session.machine.trace then
    session.note (.fetched session.machine.pc session.machine.relativeBase instruction)
  else session

theorem round_eq (session : Session) :
    round session = match session.machine.fetch with
      | .error fault => (.error fault, session)
      | .ok instruction =>
        match instruction.effect session.machine with
        | .error fault => (.error fault, session.traced instruction)
        | .ok effect =>
          (.ok (session.machine.perform instruction.size effect).suspension,
            ((session.traced instruction).noteEffect effect).withMachine
              (session.machine.perform instruction.size effect)) := by
  unfold round tick traced
  cases session.machine.fetch with
  | error fault => rfl
  | ok instruction =>
    cases found : instruction.effect session.machine with
    | error fault => simp only [found]
    | ok effect =>
      simp only [found]
      rfl

def received (session : Session) (value : Option Int) : Session :=
  match session.machine.suspension, value with
  | some (.awaitingInput _), _ => session
  | _, some value => session.note (.dropped value)
  | _, none => session

private theorem run_eq_loop (bound : Nat) (session : Session) : run bound session = round.loop bound session := by
  induction bound generalizing session with
  | zero => rfl
  | succ bound ih =>
    rcases ticked : session.tick with ⟨reply, after⟩
    cases reply with
    | error fault => simp only [run, Round.loop, round, ticked]
    | ok done =>
      cases stopped : after.machine.suspension with
      | none => simp only [run, Round.loop, round, ticked, stopped, ih]
      | some suspension => simp only [run, Round.loop, round, ticked, stopped]

theorem round_machine (session : Session) :
    (session.round.1, session.round.2.machine) = session.machine.round := by
  rw [round_eq]
  unfold Machine.round Machine.advance traced
  cases session.machine.fetch with
  | error fault => rfl
  | ok instruction =>
    cases found : instruction.effect session.machine with
    | error fault => simp only [found]; split <;> rfl
    | ok effect => simp only [found]; rfl

theorem advance_of_round {session after : Session} {stopped : Option Suspension}
    (went : round session = (.ok stopped, after)) : session.machine.advance = .ok after.machine := by
  have same := round_machine session
  rw [went] at same
  cases stopped with
  | none => exact (Machine.round_goes_iff.mp same.symm).1
  | some suspension => exact (Machine.round_stops_iff.mp same.symm).1

theorem closes_machine {session after : Session} {outcome : Except Fault Suspension}
    (closes : Round.Closes round session outcome after) :
    Round.Closes Machine.round session.machine outcome after.machine := by
  have same := round_machine session
  unfold Round.Closes at closes ⊢
  rw [← same, closes]

theorem passes_machine {count : Nat} {before after : Session}
    (passes : Round.Passes round count before after) :
    Round.Passes Machine.round count before.machine after.machine := by
  induction passes with
  | rest => exact .rest
  | @next before middle _ _ went _ ih =>
    have same := round_machine before
    rw [went] at same
    exact .next same.symm ih

theorem closes_of_machine {session : Session} {machine : Machine} {outcome : Except Fault Suspension}
    (closes : Round.Closes Machine.round session.machine outcome machine) :
    ∃ after, Round.Closes round session outcome after ∧ after.machine = machine := by
  have same := round_machine session
  unfold Round.Closes at closes ⊢
  rw [closes] at same
  obtain ⟨reply, left⟩ := Prod.mk.inj same
  exact ⟨(round session).2, Prod.ext reply rfl, left⟩

theorem store_apply (address value : Int) (bound : Nat) (session : Session) :
    store address value bound session = match session.machine.memory.write address value with
      | .error fault => some (.error fault, session)
      | .ok memory => some (.ok (), session.withMachine { session.machine with memory }) := by
  unfold store
  simp only [Call.bind_apply, Call.get_apply, Call.ofExcept, Call.set_apply]
  cases session.machine.memory.write address value <;> rfl

theorem resume_apply (value : Option Int) (bound : Nat) (session : Session) :
    resume value bound session = match session.machine.awake value with
      | .error fault => some (.error fault, session)
      | .ok machine => round.repeated bound ((session.received value).withMachine machine) := by
  have run_on (before : Session) : proceed bound before =
      round.repeated bound (before.withMachine { before.machine with suspension := none }) :=
    run_eq_loop bound _
  unfold resume Machine.awake received
  cases stopped : session.machine.suspension with
  | none =>
    cases value <;> simp only [Call.bind_apply, Call.get_apply, Call.modify_apply, stopped, run_on]
    rfl
  | some suspension =>
    cases suspension with
    | awaitingInput address =>
      cases value with
      | none => simp only [Call.bind_apply, Call.get_apply, Call.throw_apply, stopped]
      | some word =>
        simp only [Call.bind_apply, Call.get_apply, stopped, store_apply, run_on]
        cases session.machine.memory.write address word <;> rfl
    | producedOutput output =>
      cases value <;> simp only [Call.bind_apply, Call.get_apply, Call.modify_apply, stopped, run_on]
      rfl
    | complete => simp only [Call.bind_apply, Call.get_apply, Call.throw_apply, stopped]

theorem steady_resume (value : Option Int) : (resume value).Steady := by
  intro bound larger before result enough answered
  rw [resume_apply] at answered ⊢
  cases woken : before.machine.awake value with
  | error fault => simpa only [woken] using answered
  | ok machine =>
    simp only [woken] at answered ⊢
    exact Round.steady_repeated round enough answered

/-- What resuming ends with: the refusal of a machine that cannot be woken, or whatever
the rounds from the woken machine end with. -/
theorem ends_resume {value : Option Int} {session after : Session}
    {outcome : Except Fault Suspension} :
    (resume value).Ends session outcome after ↔
      (∃ fault, session.machine.awake value = .error fault ∧ outcome = .error fault ∧
        after = session) ∨
      ∃ machine, session.machine.awake value = .ok machine ∧
        round.repeated.Ends ((session.received value).withMachine machine) outcome after := by
  unfold Call.Ends
  simp only [resume_apply]
  cases session.machine.awake value with
  | error fault => simp [eq_comm]
  | ok machine => simp

/-- The resumption is refused before any instruction is fetched, for this fault. -/
inductive Refused (session : Session) : Option Int → Fault → Prop where
  | complete (halted : session.machine.suspension = some .complete) :
    Refused session value .alreadyComplete
  | noWord (waiting : session.machine.suspension = some (.awaitingInput address)) :
    Refused session none .inputExpected
  | noCell (waiting : session.machine.suspension = some (.awaitingInput address))
    (negative : address < 0) : Refused session (some word) (.negativeAddress address)

theorem refused_of_awake {session : Session} {value : Option Int} {fault : Fault}
    (failed : session.machine.awake value = .error fault) : Refused session value fault := by
  unfold Machine.awake at failed
  split at failed
  next halted => cases failed; exact .complete halted
  next waiting => cases failed; exact .noWord waiting
  next address word waiting =>
    have outside := Outcome.map_eq_error_iff.mp (Outcome.map_eq_error_iff.mp failed)
    unfold Memory.cell at outside
    split at outside
    next => cases outside
    next negative => cases outside; exact .noCell waiting (Int.not_le.mp negative)
  next => cases failed

/-- A resumption is refused, or what stops it is the budget, a word or an address. -/
theorem resume_fails {value : Option Int} {session after : Session} {fault : Fault}
    (fails : (resume value).Ends session (.error fault) after) :
    Refused session value fault ∨
      fault.causeKind = .budget ∨ fault.causeKind = .decoding ∨ fault.causeKind = .addressing := by
  rcases ends_resume.mp fails with ⟨cause, refused, same, _⟩ | ⟨start, _, ran⟩
  · cases same
    exact Or.inl (refused_of_awake refused)
  · obtain ⟨count, last, _, closes⟩ := Round.ends_iff.mp ran
    obtain ⟨failing, _⟩ := Machine.round_fails_iff.mp (closes_machine closes)
    rcases last.machine.hasBudget_or_exhausted with budget | ⟨limit, limited, spent⟩
    · exact Or.inr (Or.inr (Machine.advance_fails budget failing))
    · rw [Machine.advance_of_exhausted limited spent] at failing
      cases failing
      exact Or.inr (Or.inl rfl)

theorem ends_resume_of_awake {value : Option Int} {session after : Session} {start : Machine}
    {outcome : Except Fault Suspension} (woken : session.machine.awake value = .ok start) :
    (resume value).Ends session outcome after ↔
      round.repeated.Ends ((session.received value).withMachine start) outcome after := by
  unfold Call.Ends
  simp only [resume_apply, woken]

theorem ends_resume_of_running {session after : Session} {outcome : Except Fault Suspension}
    (running : session.machine.suspension = none) :
    (resume none).Ends session outcome after ↔ round.repeated.Ends session outcome after := by
  have idle : session.received none = session := by
    unfold received
    rw [running]
  rw [ends_resume_of_awake (Machine.awake_of_running running none), idle]
  rfl

/-- Sessions run in step where their machines do, whatever their journals hold. -/
theorem lockstep_of_machines {related : Machine → Machine → Prop}
    {final : Except Fault Suspension → Machine → Machine → Prop}
    (lockstep : Round.Lockstep Machine.round Machine.round related final) :
    Round.Lockstep round round (fun left right => related left.machine right.machine)
      (fun outcome left right => final outcome left.machine right.machine) := by
  have goes {session : Session} {machine : Machine} (went : session.machine.round = (.ok none, machine)) :
      ∃ after, round session = (.ok none, after) ∧ after.machine = machine := by
    have same := round_machine session
    rw [went] at same
    obtain ⟨reply, left⟩ := Prod.mk.inj same
    exact ⟨session.round.2, Prod.ext reply rfl, left⟩
  intro left right start
  rcases lockstep left.machine right.machine start with ⟨_, _, went, went', next⟩ |
    ⟨outcome, _, _, closes, closes', last⟩
  · obtain ⟨left', gone, rfl⟩ := goes went
    obtain ⟨right', gone', rfl⟩ := goes went'
    exact Or.inl ⟨left', right', gone, gone', next⟩
  · obtain ⟨left', closed, rfl⟩ := closes_of_machine closes
    obtain ⟨right', closed', rfl⟩ := closes_of_machine closes'
    exact Or.inr ⟨outcome, left', right', closed, closed', last⟩

private theorem lockstep_of_machine : Round.Lockstep round round (fun left right => right.machine = left.machine)
    (fun _ left right => right.machine = left.machine) := by
  have alone : Round.Lockstep Machine.round Machine.round (fun left right => right = left)
      (fun _ left right => right = left) := by
    intro left right same
    rw [same]
    rcases Machine.round.closes_or_goes left with ⟨outcome, after, closes⟩ | ⟨after, went⟩
    · exact Or.inr ⟨outcome, after, after, closes, closes, rfl⟩
    · exact Or.inl ⟨after, after, went, went, rfl⟩
  exact lockstep_of_machines alone

/-- Resuming ends alike for one machine, also with another word if that wakes it alike. -/
theorem ends_resume_alike {value value' : Option Int} {session other after : Session}
    {outcome : Except Fault Suspension} (same : other.machine = session.machine)
    (alike : session.machine.awake value' = session.machine.awake value)
    (ends : (resume value).Ends session outcome after) :
    ∃ after', (resume value').Ends other outcome after' ∧ after'.machine = after.machine := by
  rw [← same] at alike
  rcases ends_resume.mp ends with ⟨fault, refused, rfl, rfl⟩ | ⟨start, woken, ran⟩
  · rw [← same, ← alike] at refused
    exact ⟨other, ends_resume.mpr (Or.inl ⟨fault, refused, rfl, rfl⟩), same⟩
  · rw [← same, ← alike] at woken
    have start_same : ((other.received value').withMachine start).machine =
      ((session.received value).withMachine start).machine := rfl
    obtain ⟨after', ran', left⟩ := lockstep_of_machine.ends start_same ran
    exact ⟨after', (ends_resume_of_awake woken).mpr ran', left⟩

end Session
end Intcode
