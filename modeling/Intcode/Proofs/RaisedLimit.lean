import Intcode.Proofs.Running

/-! Stopping at the step limit is transparent. The budget is checked before an instruction
is fetched and before anything is noted, so a stopped session is just a session between
two instructions, and a higher limit lets it go on as if it had been there all along. -/

namespace Intcode

def Machine.limited (machine : Machine) (limit : Option Int) : Machine :=
  { machine with stepLimit := limit }

def Session.limited (session : Session) (limit : Option Int) : Session :=
  session.withMachine (session.machine.limited limit)

namespace Machine

private theorem effect_limited (instruction : Instruction) (machine : Machine) (limit : Option Int) :
    instruction.effect (machine.limited limit) = instruction.effect machine := rfl

private theorem perform_limited (machine : Machine) (size : Nat) (effect : Effect) (limit : Option Int) :
    (machine.limited limit).perform size effect = (machine.perform size effect).limited limit := by
  cases effect <;> rfl

theorem awake_limited (machine : Machine) (value limit : Option Int) :
    (machine.limited limit).awake value = (·.limited limit) <$> machine.awake value := by
  unfold awake
  have same : (machine.limited limit).suspension = machine.suspension := rfl
  rw [same]
  cases machine.suspension with
  | none => cases value <;> rfl
  | some suspension =>
    cases suspension with
    | awaitingInput address =>
      cases value with
      | none => rfl
      | some word =>
        change _ <$> machine.memory.write address word = _ <$> _ <$> machine.memory.write address word
        cases machine.memory.write address word <;> rfl
    | producedOutput output => cases value <;> rfl
    | complete => rfl

end Machine

namespace Session

@[simp]
theorem machine_limited (session : Session) (limit : Option Int) :
    (session.limited limit).machine = session.machine.limited limit := rfl

theorem received_limited (session : Session) (value limit : Option Int) :
    (session.limited limit).received value = (session.received value).limited limit := by
  unfold received
  have same : (session.limited limit).machine.suspension = session.machine.suspension := rfl
  rw [same]
  split <;> rfl

theorem round_limited {session : Session} {limit : Option Int} (budget : session.machine.HasBudget)
    (other : (session.machine.limited limit).HasBudget) :
    round (session.limited limit) = ((round session).1, (round session).2.limited limit) := by
  have decoded : (session.machine.limited limit).fetch = session.machine.fetch := by
    rw [Machine.fetch_of_budget budget, Machine.fetch_of_budget other]
    rfl
  have entered (instruction : Instruction) :
      (session.limited limit).traced instruction = (session.traced instruction).limited limit := by
    change (if session.machine.trace then _ else _) = Session.limited (if _ then _ else _) limit
    split <;> rfl
  rw [round_eq, round_eq, machine_limited, decoded]
  cases session.machine.fetch with
  | error fault => rfl
  | ok instruction =>
    simp only [Machine.effect_limited, Machine.perform_limited, entered]
    cases instruction.effect session.machine with
    | error fault => rfl
    | ok effect => cases effect <;> rfl

theorem passes_limited {limit : Int} {higher : Option Int} (raised : ∀ bound, higher = some bound → limit ≤ bound)
    {count : Nat} {before after : Session} (limited : before.machine.stepLimit = some limit)
    (passes : Round.Passes round count before after) :
    Round.Passes round count (before.limited higher) (after.limited higher) := by
  induction passes with
  | rest => exact .rest
  | @next before middle _ _ went _ ih =>
    have advanced := advance_of_round went
    have budget := Machine.hasBudget_of_advance advanced
    have other : (before.machine.limited higher).HasBudget := by
      intro bound same
      have below := budget limit limited
      have above := raised bound same
      change (before.machine.steps : Int) < bound
      omega
    have moved := round_limited budget other
    rw [went] at moved
    exact .next moved (ih ((Machine.advance_counts advanced).2.1.trans limited))

theorem round_of_exhausted {session : Session} {limit : Int} (limited : session.machine.stepLimit = some limit)
    (spent : limit ≤ session.machine.steps) :
    round session = (.error (.stepLimit limit session.machine.pc), session) := by
  rw [round_eq]
  simp only [Machine.fetch, limited, if_pos spent]

/-- Once a session has stopped at its limit, giving it a higher one and resuming it with no
word gives exactly what the first resumption gives under that higher limit. -/
theorem resume_after_raised_limit {session stopped : Session} {value : Option Int} {limit pc : Int}
    (stop : (resume value).Ends (session.limited (some limit)) (.error (.stepLimit limit pc)) stopped)
    {higher : Option Int} (raised : ∀ bound, higher = some bound → limit ≤ bound)
    (outcome : Except Fault Suspension) (after : Session) :
    (resume none).Ends (stopped.limited higher) outcome after ↔
      (resume value).Ends (session.limited higher) outcome after := by
  rcases ends_resume.mp stop with ⟨cause, refused, same, _⟩ | ⟨woken, woke, ends⟩
  · cases same
    cases refused_of_awake refused
  · rw [machine_limited, Machine.awake_limited] at woke
    obtain ⟨start, origin, rfl⟩ := Outcome.map_eq_ok_iff.mp woke
    let base := (session.received value).withMachine start
    rw [received_limited] at ends
    change round.repeated.Ends (base.limited (some limit)) _ stopped at ends
    obtain ⟨count, last, passes, closes⟩ := Round.ends_iff.mp ends
    obtain ⟨limited, spent, _⟩ := Machine.advance_eq_stepLimit_iff.mp
      (Machine.round_fails_iff.mp (closes_machine closes)).1
    -- Nothing is noted at the stop, so the session that stopped is the last one of the run.
    have same : stopped = last := by
      rw [Round.closes_error, round_of_exhausted limited spent] at closes
      exact (Prod.mk.inj closes).2.symm
    subst same
    have idle : start.suspension = none := Machine.awake_suspension origin
    have running : stopped.machine.suspension = none :=
      Machine.passes_suspension (passes_machine passes) idle
    have raise := @passes_limited limit higher raised count (base.limited (some limit)) stopped rfl
    have onward : Round.Passes round count (base.limited higher) (stopped.limited higher) :=
      raise passes
    have woken : (session.limited higher).machine.awake value = .ok (start.limited higher) := by
      rw [machine_limited, Machine.awake_limited, origin]
      rfl
    rw [@ends_resume_of_running (stopped.limited higher) _ _ running,
      ends_resume_of_awake woken, received_limited]
    exact onward.ends_iff.symm

/-- The limit falls right after the awaited word was stored, before anything ran. -/
theorem resume_after_limit_one : ∃ waiting stopped,
    (resume none).Ends (load [3, 0, 4, 0, 99] false (some 1)) (.ok (.awaitingInput 0)) waiting ∧
    (resume (some 7)).Ends (waiting.limited (some 1)) (.error (.stepLimit 1 2)) stopped ∧
    ∀ outcome after, (resume none).Ends (stopped.limited (some 2)) outcome after ↔
      (resume (some 7)).Ends (waiting.limited (some 2)) outcome after := by
  refine ⟨_, _, ⟨9, rfl⟩, ⟨9, rfl⟩, ?_⟩
  refine @resume_after_raised_limit _ _ (some 7) 1 2 ⟨9, rfl⟩ (some 2) ?_
  rintro bound ⟨rfl⟩
  decide

end Session
end Intcode
