import Intcode.Proofs.Hosting

/-! The stepping calls as one family. They are made of resumptions, looks at the session and
refusals, one after the other, so that whatever sequencing keeps is true of all of them where it is
true of every resumption. -/

namespace Intcode.Session

/-- A property of calls that every resumption has and that sequencing keeps. Of the faults, only the
breaches of protocol have to have it: a stepping call raises no others of its own. -/
structure Closed (holds : (α : Type) → Call Session α → Prop) : Prop where
  pure : ∀ {α : Type} (value : α), holds α (Pure.pure value)
  throw : ∀ {α : Type} {fault : Fault}, fault.causeKind = .protocol → holds α (MonadExcept.throw fault)
  look : ∀ {α : Type} {next : Session → Call Session α}, (∀ session, holds α (next session)) →
    holds α (get >>= next)
  bind : ∀ {α β : Type} {call : Call Session α} {next : α → Call Session β}, holds α call →
    (∀ value, holds β (next value)) → holds β (call >>= next)
  resume : ∀ value, holds Suspension (resume value)

namespace Closed

variable {holds : (α : Type) → Call Session α → Prop} (closed : Closed holds)
include closed

theorem map {α β : Type} {call : Call Session α} (f : α → β) (met : holds α call) : holds β (f <$> call) := by
  rw [map_eq_pure_bind]
  exact closed.bind met fun value => closed.pure (f value)

theorem step (value : Int) : holds _ (Session.step value) := by
  refine closed.bind (closed.resume _) fun suspension => ?_
  cases suspension with
  | complete => exact closed.pure _
  | awaitingInput address => exact closed.throw rfl
  | producedOutput output =>
    refine closed.bind (closed.resume none) fun second => ?_
    cases second with
    | producedOutput second => exact closed.throw rfl
    | complete | awaitingInput address => exact closed.pure _

theorem drain (wanted : Int) (missing : Nat) (collected : List Int) :
    holds _ (Session.drain wanted missing collected) := by
  induction missing generalizing collected with
  | zero => exact closed.pure _
  | succ missing ih =>
    refine closed.bind (closed.resume none) fun suspension => ?_
    cases suspension with
    | complete => exact closed.pure _
    | awaitingInput address => exact closed.throw rfl
    | producedOutput value => exact ih _

theorem stepRead (count : Int) : holds _ (Session.stepRead count) := closed.drain _ _ _

theorem feed (total index : Nat) (values : List Int) : holds _ (Session.feed total index values) := by
  induction values generalizing index with
  | nil => exact closed.look fun _ => closed.pure _
  | cons value rest ih =>
    refine closed.look fun session => ?_
    rcases session.machine.suspension with _ | ⟨address | output | _⟩
    · exact closed.bind (closed.throw rfl) fun _ => ih _
    · exact closed.bind (closed.map _ (closed.resume _)) fun _ => ih _
    · exact closed.bind (closed.throw rfl) fun _ => ih _
    · exact closed.bind (closed.throw rfl) fun _ => ih _

theorem stepN (values : List Int) (count : Int) : holds _ (Session.stepN values count) := by
  refine closed.bind (closed.feed _ _ values) fun stopped => ?_
  rcases stopped with _ | ⟨address | first | _⟩
  · exact closed.stepRead count
  · exact closed.stepRead count
  · simp only
    split
    · exact closed.bind (closed.stepRead (count - 1)) fun _ => closed.pure _
    · exact closed.stepRead count
  · exact closed.pure _

theorem waitForInput : holds _ Session.waitForInput := by
  refine closed.look fun session => ?_
  split
  · exact closed.pure _
  · exact closed.pure _
  · refine closed.bind (closed.resume none) fun suspension => ?_
    cases suspension with
    | producedOutput value => exact closed.throw rfl
    | awaitingInput address | complete => exact closed.pure _

/-- A drive serves ports of its own and is met apart. -/
theorem perform (drives : ∀ inputs, holds _ (driven inputs)) {action : Action} (runs : action.Runs) :
    holds _ action.perform := by
  cases action with
  | access what => exact (runs what rfl).elim
  | resume value => exact closed.map _ (closed.resume value)
  | step value => exact closed.map _ (closed.step value)
  | stepRead count => exact closed.map _ (closed.stepRead count)
  | stepN values count => exact closed.map _ (closed.stepN values count)
  | waitForInput => exact closed.map _ closed.waitForInput
  | drive inputs => exact drives inputs

end Closed

theorem closed_steady : Closed fun _ call => call.Steady where
  pure := Call.steady_pure
  throw := fun _ => Call.steady_throw _
  look := fun rest => Call.steady_bind (Call.steady_of_instant fun _ _ => rfl) rest
  bind := Call.steady_bind
  resume := steady_resume

end Intcode.Session
