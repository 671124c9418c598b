import Intcode.Proofs.Closure

/-! What a step limit allows. Every instruction is taken from what is left of the limit, so what is
left shrinks with each resumption that returns, and a resumption that finds nothing left fails at
once. All the calls that let a machine run therefore end. -/

namespace Intcode

namespace Machine

variable {limit : Int} {machine before middle after : Machine}

/-- The number of instructions that a limit still allows. -/
def remaining (machine : Machine) (limit : Int) : Nat := (limit - machine.steps).toNat

/-- Every instruction performed in between was taken from those that the limit allowed. -/
structure Pays (limit : Int) (before after : Machine) : Prop where
  limited : after.stepLimit = some limit
  counted : before.steps ≤ after.steps
  exactly : after.steps + after.remaining limit = before.steps + before.remaining limit

namespace Pays

theorem refl (limited : machine.stepLimit = some limit) : Pays limit machine machine :=
  ⟨limited, Nat.le_refl _, rfl⟩

theorem trans (first : Pays limit before middle) (second : Pays limit middle after) :
    Pays limit before after :=
  ⟨second.limited, Nat.le_trans first.counted second.counted, second.exactly.trans first.exactly⟩

theorem remaining_le (pays : Pays limit before after) : after.remaining limit ≤ before.remaining limit := by
  have counted := pays.counted
  have exactly := pays.exactly
  omega

theorem steps_le (pays : Pays limit before after) :
    after.steps ≤ before.steps + before.remaining limit := by
  have exactly := pays.exactly
  omega

theorem of_advance (limited : before.stepLimit = some limit) (advanced : before.advance = .ok after) :
    Pays limit before after := by
  obtain ⟨steps, same, _⟩ := advance_counts advanced
  have budget := hasBudget_of_advance advanced limit limited
  refine ⟨same.trans limited, by omega, ?_⟩
  unfold remaining
  omega

theorem of_awake {value : Option Int} (limited : before.stepLimit = some limit)
    (woken : before.awake value = .ok after) : Pays limit before after := by
  obtain ⟨memory, rfl, _⟩ := awake_eq_ok woken
  exact ⟨limited, Nat.le_refl _, rfl⟩

end Pays
end Machine

open Machine (Pays)

/-- A call that failed spent one resumption on it, at most. -/
def failures {α : Type} : Except Fault α → Nat
  | .ok _ => 0
  | .error _ => 1

namespace Call

variable {σ α β : Type} {machine : σ → Machine} {calls : σ → Nat} {limit : Int}

/-- Whenever the call is answered, it has paid for the instructions that it performed, and every
resumption but a failed one is among those. -/
structure Metered (machine : σ → Machine) (calls : σ → Nat) (limit : Int) (call : Call σ α) : Prop where
  pays : ∀ {bound state outcome after}, (machine state).stepLimit = some limit →
    call bound state = some (outcome, after) → Pays limit (machine state) (machine after)
  counts : ∀ {bound state outcome after}, (machine state).stepLimit = some limit →
    call bound state = some (outcome, after) →
    calls after + (machine after).remaining limit ≤
      calls state + (machine state).remaining limit + failures outcome

/-- The call is always answered within a bound that exceeds what the limit still allows. -/
structure Limits (machine : σ → Machine) (calls : σ → Nat) (limit : Int) (call : Call σ α) : Prop
    extends Metered machine calls limit call where
  unanswered : ∀ {bound state}, (machine state).stepLimit = some limit → call bound state = none →
    bound ≤ (machine state).remaining limit

theorem Metered.bind {call : Call σ α} {next : α → Call σ β} (first : call.Metered machine calls limit)
    (rest : ∀ value, (next value).Metered machine calls limit) :
    (call >>= next).Metered machine calls limit := by
  have parts {bound : Nat} {state after : σ} {outcome : Except Fault β}
      (limited : (machine state).stepLimit = some limit)
      (answered : (call >>= next) bound state = some (outcome, after)) :
      Pays limit (machine state) (machine after) ∧
        calls after + (machine after).remaining limit ≤
          calls state + (machine state).remaining limit + failures outcome := by
    rw [bind_apply] at answered
    cases found : call bound state with
    | none => rw [found] at answered; cases answered
    | some result =>
      obtain ⟨reply, middle⟩ := result
      rw [found] at answered
      have paid := first.pays limited found
      have counted := first.counts limited found
      cases reply with
      | error fault =>
        cases answered
        exact ⟨paid, counted⟩
      | ok value =>
        have later := (rest value).counts paid.limited answered
        simp only [failures] at counted
        exact ⟨paid.trans ((rest value).pays paid.limited answered), by omega⟩
  exact ⟨fun limited answered => (parts limited answered).1, fun limited answered => (parts limited answered).2⟩

namespace Limits

theorem answers {call : Call σ α} (limits : call.Limits machine calls limit) {bound : Nat} {state : σ}
    (limited : (machine state).stepLimit = some limit) (enough : (machine state).remaining limit < bound) :
    ∃ outcome after, call bound state = some (outcome, after) := by
  cases answered : call bound state with
  | none =>
    have scarce := limits.unanswered limited answered
    omega
  | some result => exact ⟨result.1, result.2, rfl⟩

theorem of_still {call : Call σ α} (still : ∀ bound state, ∃ outcome after,
      call bound state = some (outcome, after) ∧ machine after = machine state ∧ calls after = calls state) :
    call.Limits machine calls limit where
  pays := by
    intro bound state outcome after limited answered
    obtain ⟨_, _, found, same, _⟩ := still bound state
    rw [found] at answered
    cases answered
    rw [same]
    exact .refl limited
  counts := by
    intro bound state outcome after _ answered
    obtain ⟨_, _, found, same, uncounted⟩ := still bound state
    rw [found] at answered
    cases answered
    rw [same, uncounted]
    exact Nat.le_add_right _ _
  unanswered := by
    intro bound state _ silent
    obtain ⟨outcome, after, answered, _⟩ := still bound state
    rw [silent] at answered
    cases answered

theorem pure (value : α) : (Pure.pure value : Call σ α).Limits machine calls limit :=
  .of_still fun _ state => ⟨.ok value, state, rfl, rfl, rfl⟩

theorem throw (fault : Fault) : (MonadExcept.throw fault : Call σ α).Limits machine calls limit :=
  .of_still fun _ state => ⟨.error fault, state, rfl, rfl, rfl⟩

theorem get : (MonadState.get : Call σ σ).Limits machine calls limit :=
  .of_still fun _ state => ⟨.ok state, state, rfl, rfl, rfl⟩

theorem bind {call : Call σ α} {next : α → Call σ β} (first : call.Limits machine calls limit)
    (rest : ∀ value, (next value).Limits machine calls limit) :
    (call >>= next).Limits machine calls limit where
  toMetered := first.toMetered.bind fun value => (rest value).toMetered
  unanswered := by
    intro bound state limited silent
    rw [bind_apply] at silent
    cases answered : call bound state with
    | none => exact first.unanswered limited answered
    | some result =>
      obtain ⟨outcome, middle⟩ := result
      rw [answered] at silent
      cases outcome with
      | error fault => cases silent
      | ok value =>
        have paid := first.pays limited answered
        have scarce := (rest value).unanswered paid.limited silent
        exact Nat.le_trans scarce paid.remaining_le

end Limits
end Call

namespace Session

variable {limit : Int} {session after : Session}

private theorem loop_unanswered {bound : Nat} (limited : session.machine.stepLimit = some limit)
    (silent : round.loop bound session = none) : bound ≤ session.machine.remaining limit := by
  induction bound generalizing session with
  | zero => exact Nat.zero_le _
  | succ bound ih =>
    rcases round.closes_or_goes session with ⟨outcome, after, closes⟩ | ⟨after, went⟩
    · rw [closes.loop_eq] at silent
      cases silent
    · have advanced := advance_of_round went
      have paid := Pays.of_advance limited advanced
      simp only [Round.loop, went] at silent
      have fewer := ih paid.limited silent
      have counted := (Machine.advance_counts advanced).1
      have exactly := paid.exactly
      omega

theorem resume_pays {value : Option Int} {outcome : Except Fault Suspension}
    (limited : session.machine.stepLimit = some limit) (ends : (resume value).Ends session outcome after) :
    Pays limit session.machine after.machine := by
  rcases ends_resume.mp ends with ⟨fault, _, _, rfl⟩ | ⟨start, woken, ran⟩
  · exact .refl limited
  · have paid := Pays.of_awake limited woken
    obtain ⟨count, last, passes, closes⟩ := Round.ends_iff.mp ran
    have goes {state next : Session} (paid : Pays limit start state.machine)
        (went : round state = (.ok none, next)) : Pays limit start next.machine :=
      paid.trans (.of_advance paid.limited (advance_of_round went))
    have passed : Pays limit start last.machine := passes.preserves goes (.refl paid.limited)
    cases outcome with
    | error fault =>
      obtain ⟨_, left⟩ := Machine.round_fails_iff.mp (closes_machine closes)
      rw [left]
      exact paid.trans passed
    | ok suspension =>
      have advanced := advance_of_round (Round.closes_ok.mp closes)
      exact (paid.trans passed).trans (.of_advance passed.limited advanced)

theorem steps_lt_of_resume {value : Option Int} {suspension : Suspension}
    (ends : (resume value).Ends session (.ok suspension) after) :
    session.machine.steps < after.machine.steps := by
  rcases ends_resume.mp ends with ⟨fault, _, impossible, _⟩ | ⟨start, woken, ran⟩
  · cases impossible
  · obtain ⟨count, last, passes, closes⟩ := Round.ends_iff.mp ran
    have woke := Machine.awake_steps woken
    have passed := Machine.passes_steps (passes_machine passes)
    have final := (Machine.advance_counts (advance_of_round (Round.closes_ok.mp closes))).1
    change last.machine.steps = start.steps + count at passed
    omega

/-- A stepping call ends under the limit. Its resumptions are not counted. -/
abbrev Limits {α : Type} (limit : Int) (call : Call Session α) : Prop :=
  call.Limits machine (fun _ => 0) limit

theorem resume_limits (value : Option Int) : Limits limit (resume value) where
  unanswered := by
    intro bound session limited silent
    rw [resume_apply] at silent
    cases woken : session.machine.awake value with
    | error fault => rw [woken] at silent; cases silent
    | ok start =>
      rw [woken] at silent
      have paid := Pays.of_awake limited woken
      exact Nat.le_trans (loop_unanswered paid.limited silent) paid.remaining_le
  pays := fun limited answered => resume_pays limited ⟨_, answered⟩
  counts := by
    intro bound session outcome after limited answered
    have fewer := (resume_pays limited ⟨_, answered⟩).remaining_le
    omega

theorem closed_limits (limit : Int) : Closed fun _ call => Limits limit call where
  pure := .pure
  throw := fun _ => .throw _
  look := fun rest => Call.Limits.get.bind rest
  bind := .bind
  resume := resume_limits

end Session
end Intcode
