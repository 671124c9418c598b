import Intcode.Exchange.Ports
import Intcode.Proofs.Answers

/-! Hosts that keep different things beside the machine they serve. Where a view turns what one
host keeps into what another one does, and the ports agree under the view, so do their drives. -/

namespace Intcode

variable {σ τ α β : Type} {view : σ → τ}

/-- Through the view, the call is seen to do what the other one does. -/
def Call.SeenAs (view : σ → τ) (call : Call σ α) (seen : Call τ α) : Prop :=
  ∀ bound state, (call bound state).map (Prod.map id view) = seen bound (view state)

theorem Call.SeenAs.bind {call : Call σ α} {seen : Call τ α} {next : α → Call σ β} {rest : α → Call τ β}
    (first : call.SeenAs view seen) (later : ∀ value, (next value).SeenAs view (rest value)) :
    (call >>= next).SeenAs view (seen >>= rest) := by
  intro bound state
  have went := first bound state
  rw [bind_apply, bind_apply, ← went]
  cases call bound state with
  | none => rfl
  | some result =>
    obtain ⟨outcome, middle⟩ := result
    cases outcome with
    | error fault => rfl
    | ok value => exact later value bound middle

theorem Call.SeenAs.ends_iff {call : Call σ α} {seen : Call τ α}
    (same : call.SeenAs view seen) {state : σ} {outcome : Except Fault α} {after : τ} :
    seen.Ends (view state) outcome after ↔ ∃ left, call.Ends state outcome left ∧ after = view left := by
  constructor
  · intro ⟨bound, answered⟩
    rw [← same bound state] at answered
    obtain ⟨⟨reply, left⟩, found, pair⟩ := Option.map_eq_some_iff.mp answered
    cases pair
    exact ⟨left, ⟨bound, found⟩, rfl⟩
  · rintro ⟨left, ⟨bound, found⟩, rfl⟩
    refine ⟨bound, ?_⟩
    rw [← same bound state, found]
    rfl

theorem Host.port_seenAs {κ : Type} (port : Call σ α) :
    (Call.onPart Prod.fst (fun inner state => (inner, state.2)) port : Call (σ × κ) α).SeenAs Prod.fst port := by
  intro bound state
  change ((port bound state.1).map _).map _ = _
  rw [Option.map_map]
  exact congrFun Option.map_id _

/-- Both hosts serve one machine, and their ports agree under the view. -/
structure Host.SeenAs (view : σ → τ) (host : Host σ) (seen : Host τ) : Prop where
  session : ∀ state, seen.session (view state) = host.session state
  restore : ∀ session state, view (host.restore session state) = seen.restore session (view state)
  take : host.take.SeenAs view seen.take
  deliver : ∀ value, (host.deliver value).SeenAs view (seen.deliver value)

namespace Host.SeenAs

variable {host : Host σ} {seen : Host τ} (same : host.SeenAs view seen)
include same

theorem act (call : Call Session α) : (host.act call).SeenAs view (seen.act call) := by
  intro bound state
  unfold Host.act Call.onPart
  rw [same.session, Option.map_map]
  congr 1
  funext result
  exact congrArg (Prod.mk result.1) (same.restore result.2 state)

theorem serve (suspension : Suspension) : (host.serve suspension).SeenAs view (seen.serve suspension) := by
  cases suspension with
  | complete => exact fun _ _ => rfl
  | awaitingInput address => exact same.take.bind fun value => same.act _
  | producedOutput value => exact (same.deliver value).bind fun _ => same.act _

theorem serveAll (rounds : Nat) (suspension : Suspension) :
    (host.serveAll rounds suspension).SeenAs view (seen.serveAll rounds suspension) := by
  induction rounds generalizing suspension with
  | zero => cases suspension <;> exact fun _ _ => rfl
  | succ rounds ih =>
    cases suspension with
    | complete => exact fun _ _ => rfl
    | awaitingInput address | producedOutput value => exact (same.serve _).bind ih

theorem drive : host.drive.SeenAs view seen.drive := by
  intro bound state
  exact ((same.act (Session.resume none)).bind (same.serveAll bound)) bound state

end Host.SeenAs
end Intcode
