import Mathlib.Data.List.Forall2
import Intcode.Amplifier
import Intcode.Proofs.Serving
import Intcode.Proofs.Stepping

/-! How an amplifier starts and steps, told as the drive that it is a part of. An amplifier
that was told its phase stands where a drive stands that has taken one input, and a step that
finds it waiting takes the next one. -/

namespace Intcode

variable {σ : Type}

theorem Call.ends_mapM {α β : Type} {call : α → Call σ β} {holds : α → β → Prop}
    (each : ∀ {item made before after}, (call item).Ends before (.ok made) after →
      holds item made ∧ after = before)
    {items : List α} {results : List β} {before after : σ}
    (ends : (items.mapM call).Ends before (.ok results) after) :
    List.Forall₂ holds items results ∧ after = before := by
  induction items generalizing results before with
  | nil =>
    obtain ⟨same, rfl⟩ := ends_pure.mp ends
    cases same
    exact ⟨.nil, rfl⟩
  | cons item items ih =>
    rw [List.mapM_cons] at ends
    obtain ⟨made, middle, first, ends⟩ := ends.of_bind_ok
    obtain ⟨rest, last, others, ends⟩ := ends.of_bind_ok
    obtain ⟨same, rfl⟩ := ends_pure.mp ends
    cases same
    obtain ⟨held, rfl⟩ := each first
    obtain ⟨all, rfl⟩ := ih others
    exact ⟨.cons held all, rfl⟩

namespace Session

variable {before after : Session}

theorem Stepped.served {value : Int} {given : Option Int} {done : Bool} (stepped : Stepped before value given done after)
    (waits : before.Awaits) {rest left outputs : List Int} {outcome : Except Fault Unit} {final : Session}
    (service : Served after rest outcome left outputs final) :
    Served before (value :: rest) outcome left (given.toList ++ outputs) final := by
  obtain ⟨address, asks⟩ := waits
  cases stepped with
  | silent halts => exact .input asks halts service
  | halted emits ends | asking emits ends =>
    exact .input asks emits (.output (resume_emits emits).1 ends service)

theorem Served.delivers {inputs left outputs : List Int} {outcome : Except Fault Unit} {word : Int}
    (served : Served before inputs outcome left outputs after)
    (emits : before.machine.suspension = some (.producedOutput word)) :
    ∃ rest, outputs = word :: rest := by
  cases served with
  | halted stopped | drained stopped | inputFails stopped | input stopped =>
    rw [emits] at stopped
    cases stopped
  | outputFails stopped | output stopped =>
    rw [emits] at stopped
    cases stopped
    exact ⟨_, rfl⟩

end Session

namespace Amplifier

open Session (Served)

/-- An amplifier that asked for its phase and was told it. -/
inductive Primed (program : Program) (phase : Int) (session : Session) : Prop where
  | told (asks : (Session.resume none).Ends (program.start false none) (.ok (.awaitingInput address)) asking)
    (told : (Session.resume (some phase)).Ends asking (.ok suspension) session)

variable {program : Program} {phase : Int} {session : Session}

theorem primed_of_ends {before after : σ}
    (ends : (prime program phase).Ends before (.ok session) after) :
    Primed program phase session ∧ after = before := by
  obtain ⟨⟨_, own⟩, middle, ran, ends⟩ := ends.of_bind_ok
  obtain ⟨same, rfl⟩ := Call.ends_pure.mp ends
  cases same
  obtain ⟨reply, left, ran, made, rfl⟩ := Call.ends_onOwn.mp ran
  cases reply with
  | error fault => cases made
  | ok told =>
    cases made
    obtain ⟨suspension, asking, asks, ends⟩ := ran.of_bind_ok
    cases suspension with
    | producedOutput value | complete => cases (Call.ends_throw.mp ends).1
    | awaitingInput address =>
      obtain ⟨next, told, _⟩ := Call.Ends.of_map_ok ends
      exact ⟨.told asks told, rfl⟩

theorem Primed.unique (primed : Primed program phase session) {other : Session}
    (again : Primed program phase other) : other = session := by
  obtain ⟨asks, told⟩ := primed
  obtain ⟨asks', told'⟩ := again
  obtain ⟨_, rfl⟩ := asks.unique (Session.steady_resume none) asks'
  exact (told.unique (Session.steady_resume _) told').2.symm

/-- Driving a program on its phase and further inputs is serving the primed amplifier those. -/
theorem Primed.ends_drive_iff (primed : Primed program phase session) {inputs : List Int}
    {outcome : Except Fault Unit} {after : Exchange} :
    Exchange.drive.Ends (program.exchange (phase :: inputs) false none) outcome after ↔
      ∃ left outputs final, Served session inputs outcome left outputs final ∧
        after = (program.exchange (phase :: inputs) false none).advanced left outputs final := by
  obtain ⟨asks, told⟩ := primed
  rw [Exchange.ends_drive_iff_served rfl]
  constructor
  · rintro (⟨fault, failed, _, fails, _⟩ | ⟨suspension, start, left, outputs, final, starts, served, rfl⟩)
    · cases (asks.unique (Session.steady_resume none) fails).1
    · obtain ⟨_, rfl⟩ := asks.unique (Session.steady_resume none) starts
      have onward := (Session.served_input_iff (Session.resume_emits asks).1 told).mp served
      exact ⟨left, outputs, final, onward, rfl⟩
  · intro ⟨left, outputs, final, served, same⟩
    have whole := (Session.served_input_iff (Session.resume_emits asks).1 told).mpr served
    exact .inr ⟨_, _, left, outputs, final, asks, whole, same⟩

theorem Primed.accounted (primed : Primed program phase session) :
    Session.Accounted (program.start false none) [phase] session.standing session := by
  obtain ⟨asks, told⟩ := primed
  have silent : Session.Accounted (program.start false none) [] [] _ := .of_none asks
  rw [Session.standing_of_stopped (Session.resume_emits told).1]
  exact silent.trans (.of_fed (Session.resume_emits asks).1 told)

end Amplifier
end Intcode
