import Intcode.Proofs.Serving
import Intcode.Proofs.Stepping

/-! Closed loops opened up. A host may steer a machine by what the machine emits and decide each
word that it supplies only when the word is asked for. If its calls come down to plain resumptions,
then the same machine, driven on the supplied words as a list known in advance, delivers the words
that it emitted for that host and ends as it did there. -/

namespace Intcode.Session

variable {session before start after : Session} {supplied words : List Int} {outcome : Except Fault Unit}

/-- How a session ends that is served no further word. -/
inductive Rests (session : Session) : Except Fault Unit → Prop where
  | halted (stopped : session.machine.suspension = some .complete) : Rests session (.ok ())
  | asking (awaits : session.Awaits) : Rests session (.error .inputDrained)

theorem Rests.served (rests : session.Rests outcome) : Served session [] outcome [] [] session := by
  cases rests with
  | halted stopped => exact .halted stopped
  | asking awaits =>
    obtain ⟨address, asks⟩ := awaits
    exact .drained asks

theorem Rests.silent {suspension : Suspension} (rests : session.Rests outcome)
    (stopped : session.machine.suspension = some suspension) : suspension.words = [] := by
  cases rests with
  | halted halts =>
    rw [stopped] at halts
    cases halts
    rfl
  | asking awaits =>
    obtain ⟨address, asks⟩ := awaits
    rw [stopped] at asks
    cases asks
    rfl

theorem stands_of_unfed {suspension next : Suspension}
    (ends : (resume none).Ends before (.ok next) after)
    (stopped : before.machine.suspension = some suspension) :
    ∃ word, suspension = .producedOutput word := by
  rcases ends_resume.mp ends with ⟨_, _, impossible, _⟩ | ⟨machine, woken, _⟩
  · cases impossible
  · simp only [Machine.awake, stopped] at woken
    cases suspension with
    | producedOutput word => exact ⟨word, rfl⟩
    | awaitingInput address | complete => cases woken

theorem Resumed.served {suspension : Suspension} (resumed : Resumed before supplied words after)
    (rests : after.Rests outcome) (stopped : before.machine.suspension = some suspension) :
    Served before supplied outcome [] (suspension.words ++ words) after := by
  induction resumed generalizing suspension with
  | rest =>
    rw [rests.silent stopped]
    exact rests.served
  | unfed ends _ ih =>
    obtain ⟨word, rfl⟩ := stands_of_unfed ends stopped
    exact .output stopped ends (ih rests (resume_emits ends).1)
  | fed awaiting ends _ ih =>
    rw [awaiting] at stopped
    cases stopped
    exact .input awaiting ends (ih rests (resume_emits ends).1)

/-- What a fresh session went through is what driving it on the supplied words comes to. -/
theorem Resumed.ends_drive (resumed : Resumed start supplied words after)
    (fresh : start.machine.suspension = none) (rests : after.Rests outcome) :
    Exchange.drive.Ends { session := start, inputs := supplied } outcome
      { session := after, inputs := [], outputs := words.toArray } := by
  rw [Exchange.ends_drive_iff_served rfl]
  cases resumed with
  | rest =>
    cases rests with
    | halted stopped =>
      rw [fresh] at stopped
      cases stopped
    | asking awaits =>
      obtain ⟨address, asks⟩ := awaits
      rw [fresh] at asks
      cases asks
  | unfed ends resumed =>
    have served := resumed.served rests (resume_emits ends).1
    exact .inr ⟨_, _, _, _, after, ends, served, by simp [Exchange.advanced]⟩
  | fed awaiting =>
    rw [fresh] at awaiting
    cases awaiting

end Intcode.Session
