import Intcode.Proofs.Composition

/-! Calls that may be made again. Chains and feedback loops start machines of their own, so that what
they answer depends neither on the state nor on what was called before. -/

namespace Intcode

variable {σ τ α β γ : Type}

namespace Call

def Answers (call : Call σ α) (before : σ) (outcome : Except Fault α) : Prop :=
  ∃ after, call.Ends before outcome after

/-- Within the bound, the state makes no difference to what the call answers. -/
def Oblivious (call : Call σ α) (bound : Nat) : Prop :=
  ∀ before other, (call bound before).map Prod.fst = (call bound other).map Prod.fst

/-- A call that may be made at any time: what it answers does not depend on the state, nor on the
bound, as long as that is enough. -/
structure Repeatable (call : Call σ α) : Prop where
  steady : call.Steady
  oblivious : ∀ bound, call.Oblivious bound

private theorem Repeatable.answers_iff {call : Call σ α} (repeatable : call.Repeatable) {before other : σ}
    {outcome : Except Fault α} : call.Answers before outcome ↔ call.Answers other outcome := by
  have onward {before other : σ} (answers : call.Answers before outcome) : call.Answers other outcome := by
    obtain ⟨after, bound, found⟩ := answers
    have same := repeatable.oblivious bound other before
    rw [found] at same
    exact exists_ends bound same
  exact ⟨onward, onward⟩

theorem Repeatable.unique {call : Call σ α} (repeatable : call.Repeatable) {before : σ}
    {outcome outcome' : Except Fault α} (answers : call.Answers before outcome)
    (again : call.Answers before outcome') : outcome' = outcome := by
  obtain ⟨_, ends⟩ := answers
  obtain ⟨_, ends'⟩ := again
  exact (ends.unique repeatable.steady ends').1.symm

theorem repeatable_of_constant {call : Call σ α} {outcome : Except Fault α} {change : σ → σ}
    (constant : ∀ bound before, call bound before = some (outcome, change before)) : call.Repeatable where
  steady := steady_of_instant fun bound larger => by
    funext before
    rw [constant, constant]
  oblivious := fun bound before other => by rw [constant, constant]; rfl

private theorem oblivious_bind {call : Call σ α} {next : α → Call σ β} {bound : Nat} (first : call.Oblivious bound)
    (rest : ∀ value, (next value).Oblivious bound) : (call >>= next).Oblivious bound := by
  intro before other
  have first := first before other
  rw [bind_apply, bind_apply]
  generalize call bound before = one at first ⊢
  generalize call bound other = two at first ⊢
  cases one with
  | none =>
    cases two with
    | none => rfl
    | some result => cases first
  | some result =>
    cases two with
    | none => cases first
    | some result' =>
      obtain ⟨reply, middle⟩ := result
      obtain ⟨reply', middle'⟩ := result'
      cases first
      cases reply with
      | error fault => rfl
      | ok value => exact rest value middle middle'

theorem repeatable_bind {call : Call σ α} {next : α → Call σ β} (first : call.Repeatable)
    (rest : ∀ value, (next value).Repeatable) : (call >>= next).Repeatable where
  steady := steady_bind first.steady fun value => (rest value).steady
  oblivious := fun bound => oblivious_bind (first.oblivious bound) fun value => (rest value).oblivious bound

theorem oblivious_onOwn (own : τ) (call : Call τ α) (bound : Nat) : (onOwn own call : Call σ _).Oblivious bound := by
  intro before other
  unfold onOwn
  rw [Option.map_map, Option.map_map]
  rfl

theorem Repeatable.bind_answers_iff {call : Call σ α} {next : α → Call σ β} (first : call.Repeatable)
    (rest : ∀ value, (next value).Repeatable) {before : σ} {outcome : Except Fault β} :
    (call >>= next).Answers before outcome ↔
      (∃ fault, outcome = .error fault ∧ call.Answers before (.error fault)) ∨
      ∃ value, call.Answers before (.ok value) ∧ (next value).Answers before outcome := by
  constructor
  · intro ⟨after, ends⟩
    rcases ends.of_bind with ⟨fault, same, failed⟩ | ⟨value, middle, went, ends⟩
    · exact .inl ⟨fault, same, after, failed⟩
    · exact .inr ⟨value, ⟨middle, went⟩, (rest value).answers_iff.mp ⟨after, ends⟩⟩
  · have all := @ends_bind _ _ _ call next first.steady fun value => (rest value).steady
    rintro (⟨fault, same, after, failed⟩ | ⟨value, ⟨middle, went⟩, answers⟩)
    · exact ⟨after, all.mpr (.inl ⟨fault, same, failed⟩)⟩
    · obtain ⟨after, ends⟩ := (rest value).answers_iff.mp answers
      exact ⟨after, all.mpr (.inr ⟨value, middle, went, ends⟩)⟩

end Call

namespace Amplifier

theorem closed_repeatable : Closed fun _ (call : Call σ _) => call.Repeatable where
  pure := fun _ => Call.repeatable_of_constant fun _ _ => rfl
  throw := fun _ => Call.repeatable_of_constant fun _ _ => rfl
  bind := Call.repeatable_bind
  own := fun session call steady => ⟨Call.steady_onOwn steady, Call.oblivious_onOwn session call⟩

section Feedback

variable {rounds bound : Nat} {signal : Int} {amplifiers : List Amplifier} {before : σ}

theorem Closed.round {holds : (α : Type) → Call σ α → Prop} (closed : Closed holds) (signal : Int)
    (amplifiers : List Amplifier) : holds _ (round signal amplifiers) := by
  induction amplifiers generalizing signal with
  | nil => exact closed.pure _
  | cons amplifier rest ih =>
    rw [Amplifier.round]
    split
    · exact closed.bind (ih signal) fun _ => closed.pure _
    · apply closed.bind (closed.own _ (Session.closed_steady.step signal))
      intro ⟨⟨output, done⟩, session⟩
      exact closed.bind (ih _) fun _ => closed.pure _

/-- Go on with the signal and the amplifiers that a round left. -/
def settleOn (rounds bound : Nat) (left : Int × List Amplifier) : Call σ (Int × Nat) :=
  settle (rounds + 1) left.1 left.2 bound

theorem settle_of_done (done : amplifiers.all (·.done) = true) (bound : Nat) :
    (settle rounds signal amplifiers bound : Call σ (Int × Nat)) = pure (signal, rounds) := by
  cases bound with
  | zero => rw [settle, if_pos done]
  | succ bound => rw [settle, if_pos done]

theorem settle_succ (going : amplifiers.all (·.done) ≠ true) (bound : Nat) :
    (settle rounds signal amplifiers (bound + 1) : Call σ (Int × Nat)) =
      round signal amplifiers >>= settleOn rounds bound := by
  rw [settle, if_neg going]
  rfl

theorem settle_more {most more larger : Nat} {result : Except Fault (Int × Nat) × σ} (enough : most ≤ more)
    (within : bound ≤ larger) (answered : settle rounds signal amplifiers most bound before = some result) :
    settle rounds signal amplifiers more larger before = some result := by
  induction most generalizing rounds signal amplifiers more before with
  | zero =>
    by_cases done : amplifiers.all (·.done) = true
    · rw [settle_of_done done] at answered ⊢
      exact answered
    · rw [settle, if_neg done] at answered
      cases answered
  | succ most ih =>
    by_cases done : amplifiers.all (·.done) = true
    · rw [settle_of_done done] at answered ⊢
      exact answered
    · obtain ⟨spare, rfl⟩ := Nat.exists_eq_add_of_le enough
      rw [settle_succ done, Call.bind_apply] at answered
      rw [Nat.add_right_comm, settle_succ done, Call.bind_apply]
      rcases went : round signal amplifiers bound before with _ | ⟨reply, middle⟩
      · rw [went] at answered
        cases answered
      · rw [went] at answered
        rw [closed_steady.round signal amplifiers within went]
        cases reply with
        | error fault => exact answered
        | ok left => exact ih (Nat.le_add_right most spare) answered

private theorem oblivious_settle (rounds : Nat) (signal : Int) (amplifiers : List Amplifier) (most bound : Nat) :
    (settle rounds signal amplifiers most : Call σ (Int × Nat)).Oblivious bound := by
  induction most generalizing rounds signal amplifiers with
  | zero =>
    intro before other
    rw [settle]
    split <;> rfl
  | succ most ih =>
    by_cases done : amplifiers.all (·.done) = true
    · rw [settle_of_done done]
      exact (closed_repeatable.pure _).oblivious bound
    · rw [settle_succ done]
      apply Call.oblivious_bind ((closed_repeatable.round signal amplifiers).oblivious bound)
      exact fun left => ih _ _ _

theorem repeatable_feedback (program : Program) (phases : List Int) (signal : Int) :
    (feedback program phases signal).Repeatable := by
  apply Call.repeatable_bind (closed_repeatable.primes program phases)
  intro sessions
  have settles : (read >>= settle 0 signal (sessions.map (⟨·, false⟩)) :
      Call (Array Settlement) (Int × Nat)).Repeatable := by
    constructor
    · -- The bound of the machines is the bound of the rounds as well, so both grow together.
      intro bound larger before result within answered
      exact settle_more within within answered
    · intro bound
      exact oblivious_settle 0 signal _ bound bound
  rw [← bind_assoc]
  apply Call.repeatable_bind settles
  intro (last, rounds)
  apply Call.repeatable_bind (Call.repeatable_of_constant fun _ _ => rfl)
  exact fun _ => closed_repeatable.pure last

end Feedback

end Amplifier
end Intcode
