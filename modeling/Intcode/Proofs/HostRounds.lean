import Intcode.Exchange.Ports
import Intcode.Proofs.Running

/-! The rounds that a host is granted only bound its drive. Where its ports answer the same within
every larger bound, any number of rounds that is enough gives the one answer that the drive has. -/

namespace Intcode.Host

variable {σ : Type} {host : Host σ} {suspension : Suspension} {before after : σ} {outcome : Except Fault Unit}

/-- A larger bound never changes what the ports answer. -/
structure Steady (host : Host σ) : Prop where
  take : host.take.Steady
  deliver : ∀ word, (host.deliver word).Steady

theorem serveAll_complete (rounds : Nat) : host.serveAll rounds .complete = pure () := by
  cases rounds <;> rfl

theorem serveAll_succ (rounds : Nat) (going : suspension ≠ .complete) :
    host.serveAll (rounds + 1) suspension = host.serve suspension >>= host.serveAll rounds := by
  cases suspension with
  | complete => exact (going rfl).elim
  | awaitingInput address | producedOutput value => rfl

theorem not_ends_serveAll_zero (going : suspension ≠ .complete) :
    ¬ (host.serveAll 0 suspension).Ends before outcome after := by
  intro ⟨bound, answered⟩
  cases suspension with
  | complete => exact going rfl
  | awaitingInput address | producedOutput value => cases answered

theorem serveAll_more {rounds more bound : Nat} (enough : rounds ≤ more) {result : Except Fault Unit × σ}
    (answered : host.serveAll rounds suspension bound before = some result) :
    host.serveAll more suspension bound before = some result := by
  induction rounds generalizing more suspension before with
  | zero =>
    by_cases halted : suspension = .complete
    · rw [halted, serveAll_complete] at answered ⊢
      exact answered
    · exact (not_ends_serveAll_zero halted ⟨bound, answered⟩).elim
  | succ rounds ih =>
    by_cases halted : suspension = .complete
    · rw [halted, serveAll_complete] at answered ⊢
      exact answered
    · obtain ⟨spare, rfl⟩ := Nat.exists_eq_add_of_le enough
      rw [Nat.add_right_comm, serveAll_succ _ halted, Call.bind_apply]
      rw [serveAll_succ _ halted, Call.bind_apply] at answered
      rcases served : host.serve suspension bound before with _ | ⟨fault | next, middle⟩
      · rw [served] at answered
        cases answered
      · rw [served] at answered
        exact answered
      · rw [served] at answered
        exact ih (Nat.le_add_right rounds spare) answered

def serving (host : Host σ) (rounds : Nat) : Call σ Unit :=
  host.act (Session.resume none) >>= host.serveAll rounds

theorem drive_apply (bound : Nat) (state : σ) : host.drive bound state = host.serving bound bound state := by
  rw [drive, Call.bind_apply, Call.read_apply]
  rfl

namespace Steady

variable (steady : host.Steady)
include steady

theorem serve (suspension : Suspension) : (host.serve suspension).Steady := by
  cases suspension with
  | complete => exact Call.steady_pure _
  | awaitingInput address =>
    exact Call.steady_bind steady.take fun value => Call.steady_onPart (Session.steady_resume _)
  | producedOutput value =>
    exact Call.steady_bind (steady.deliver value) fun _ => Call.steady_onPart (Session.steady_resume _)

theorem serveAll (rounds : Nat) (suspension : Suspension) : (host.serveAll rounds suspension).Steady := by
  induction rounds generalizing suspension with
  | zero =>
    by_cases halted : suspension = .complete
    · rw [halted, serveAll_complete]
      exact Call.steady_pure _
    · intro bound larger before result _ answered
      exact (not_ends_serveAll_zero halted ⟨bound, answered⟩).elim
  | succ rounds ih =>
    by_cases halted : suspension = .complete
    · rw [halted, serveAll_complete]
      exact Call.steady_pure _
    · rw [serveAll_succ rounds halted]
      exact Call.steady_bind (steady.serve suspension) ih

theorem serving (rounds : Nat) : (host.serving rounds).Steady :=
  Call.steady_bind (Call.steady_onPart (Session.steady_resume none)) (steady.serveAll rounds)

/-- The bound limits the rounds of a drive as well as the machine, and a large enough one limits
neither. -/
theorem drive_of_serving {rounds bound larger : Nat} {result : Except Fault Unit × σ} (enough : rounds ≤ larger)
    (ample : bound ≤ larger) (answered : host.serving rounds bound before = some result) :
    host.drive larger before = some result := by
  have served := steady.serving rounds ample answered
  rw [drive_apply, Host.serving, Call.bind_apply]
  rw [Host.serving, Call.bind_apply] at served
  rcases resumed : host.act (Session.resume none) larger before with _ | ⟨fault | suspension, middle⟩
  · rw [resumed] at served
    cases served
  · rw [resumed] at served
    exact served
  · rw [resumed] at served
    exact serveAll_more enough served

theorem drive : host.drive.Steady := by
  intro bound larger before result enough answered
  rw [drive_apply] at answered
  exact steady.drive_of_serving enough enough answered

theorem ends_drive :
    host.drive.Ends before outcome after ↔ ∃ rounds, (host.serving rounds).Ends before outcome after := by
  constructor
  · intro ⟨bound, answered⟩
    rw [drive_apply] at answered
    exact ⟨bound, bound, answered⟩
  · intro ⟨rounds, bound, answered⟩
    exact ⟨max rounds bound,
      steady.drive_of_serving (Nat.le_max_left rounds bound) (Nat.le_max_right rounds bound) answered⟩

theorem ends_drive_output {word : Int} {middle : Session}
    (emits : (Session.resume none).Ends (host.session before) (.ok (.producedOutput word)) middle) :
    host.drive.Ends before outcome after ↔
      (host.deliver word >>= fun _ => host.drive).Ends (host.restore middle before) outcome after := by
  have resumed : (host.act (Session.resume none)).Ends before (.ok (.producedOutput word))
      (host.restore middle before) := Call.ends_onPart.mpr ⟨middle, emits, rfl⟩
  have first : (host.act (Session.resume none)).Steady := Call.steady_onPart (Session.steady_resume none)
  have opened (rounds : Nat) : (host.serving rounds).Ends before outcome after ↔
      (host.serveAll rounds (.producedOutput word)).Ends (host.restore middle before) outcome after := by
    rw [Host.serving, Call.ends_bind first (steady.serveAll rounds)]
    constructor
    · rintro (⟨fault, rfl, fails⟩ | ⟨suspension, between, resumed', rest⟩)
      · cases (resumed.unique first fails).1
      · obtain ⟨same, rfl⟩ := resumed.unique first resumed'
        cases same
        exact rest
    · intro rest
      exact .inr ⟨_, _, resumed, rest⟩
  have going : Suspension.producedOutput word ≠ .complete := nofun
  have passed (rounds : Nat) : host.serveAll (rounds + 1) (.producedOutput word) =
      host.deliver word >>= fun _ => host.serving rounds := by
    rw [serveAll_succ rounds going]
    exact bind_assoc _ _ _
  rw [steady.ends_drive, Call.ends_bind (steady.deliver word) fun _ => steady.drive]
  simp only [opened, steady.ends_drive]
  constructor
  · intro ⟨rounds, ends⟩
    cases rounds with
    | zero => exact (not_ends_serveAll_zero going ends).elim
    | succ rounds =>
      rw [passed] at ends
      rcases ends.of_bind with failed | ⟨_, between, delivered, rest⟩
      · exact .inl failed
      · exact .inr ⟨(), between, delivered, rounds, rest⟩
  · rintro (⟨fault, rfl, fails⟩ | ⟨_, between, delivered, rounds, rest⟩)
    · refine ⟨1, ?_⟩
      rw [passed, Call.ends_bind (steady.deliver word) fun _ => steady.serving 0]
      exact .inl ⟨fault, rfl, fails⟩
    · refine ⟨rounds + 1, ?_⟩
      rw [passed, Call.ends_bind (steady.deliver word) fun _ => steady.serving rounds]
      exact .inr ⟨(), between, delivered, rest⟩

end Steady
end Intcode.Host
