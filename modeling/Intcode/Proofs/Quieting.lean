import Intcode.Proofs.Hosting
import Intcode.Proofs.HostViews

/-! A machine with its trace turned off. It does whatever it does with the trace on, fails where
that fails and keeps the same journal, but for the instructions that were traced. -/

namespace Intcode

def Event.isTrace : Event → Bool
  | fetched .. => true
  | _ => false

namespace Session

/-- The session as it is when nothing is traced and nothing ever was. -/
def quiet (session : Session) : Session where
  machine := { session.machine with trace := false }
  journal := session.journal.filter (!·.isTrace)

theorem lines_quiet (session : Session) :
    session.quiet.lines = (session.journal.toList.filter (!·.isTrace)).filterMap Event.line? := by
  rw [lines, quiet, Array.toList_filter]

@[simp]
theorem quiet_withMachine (session : Session) (machine : Machine) :
    (session.withMachine machine).quiet = session.quiet.withMachine { machine with trace := false } := rfl

private theorem quiet_note (session : Session) {event : Event} (kept : event.isTrace = false) :
    (session.note event).quiet = session.quiet.note event := by
  simp [note, quiet, kept]

private theorem quiet_traced (session : Session) (instruction : Instruction) :
    (session.traced instruction).quiet = session.quiet := by
  unfold traced
  split
  · simp [note, quiet, Event.isTrace]
  · rfl

private theorem quiet_noteEffect (session : Session) (effect : Effect) :
    (session.noteEffect effect).quiet = session.quiet.noteEffect effect := by
  cases effect with
  | emit | halt => exact quiet_note session rfl
  | _ => rfl

private theorem quiet_received (session : Session) (value : Option Int) :
    (session.received value).quiet = session.quiet.received value := by
  have same : session.quiet.machine.suspension = session.machine.suspension := rfl
  unfold received
  rw [same]
  split
  · rfl
  · exact quiet_note session rfl
  · rfl

@[simp]
theorem traced_quiet (session : Session) (instruction : Instruction) :
    session.quiet.traced instruction = session.quiet := rfl

theorem effect_quiet (session : Session) (instruction : Instruction) :
    instruction.effect session.quiet.machine = instruction.effect session.machine := rfl

private theorem round_quiet (session : Session) :
    round session.quiet = ((round session).1, (round session).2.quiet) := by
  have same : session.quiet.machine.fetch = session.machine.fetch := rfl
  rw [round_eq, round_eq, same]
  cases session.machine.fetch with
  | error fault => rfl
  | ok instruction =>
    simp only [effect_quiet]
    cases found : instruction.effect session.machine with
    | error fault => simp only [quiet_traced, traced_quiet]
    | ok effect =>
      simp only [quiet_withMachine, quiet_noteEffect, quiet_traced, traced_quiet]
      cases effect <;> rfl

private theorem loop_quiet (bound : Nat) (session : Session) :
    round.loop bound session.quiet = (round.loop bound session).map (Prod.map id quiet) := by
  induction bound generalizing session with
  | zero => rfl
  | succ bound ih =>
    rw [Round.loop, Round.loop, round_quiet]
    rcases round session with ⟨fault | ⟨suspension | _⟩, after⟩
    · rfl
    · exact ih after
    · rfl

private theorem awake_quiet (session : Session) (value : Option Int) : session.quiet.machine.awake value =
    (fun machine => { machine with trace := false }) <$> session.machine.awake value := by
  have same : session.quiet.machine.suspension = session.machine.suspension := rfl
  unfold Machine.awake
  rw [same]
  split
  · rfl
  · rfl
  · next address word _ =>
    change _ <$> session.machine.memory.write address word = _
    cases session.machine.memory.write address word <;> rfl
  · rfl

private theorem resume_quiet (value : Option Int) : (resume value).SeenAs quiet (resume value) := by
  intro bound session
  rw [resume_apply, resume_apply, awake_quiet]
  cases session.machine.awake value with
  | error fault => rfl
  | ok machine =>
    simp only [Outcome.map_ok, ← quiet_received, ← quiet_withMachine]
    exact (loop_quiet bound _).symm

end Session

/-- Calls that are seen to do the same are paired by the view. -/
theorem Call.SeenAs.paired {σ τ α : Type} {view : σ → τ} {call : Call σ α} {seen : Call τ α} {meets : α → σ → Prop}
    (same : call.SeenAs view seen) {state : σ}
    (met : ∀ {value after}, call.Ends state (.ok value) after → meets value after) :
    Paired (fun left right => right = view left) meets call seen state (view state) := by
  intro bound
  rw [← same bound state]
  rcases answered : call bound state with _ | ⟨fault | value, after⟩
  · exact .unfinished
  · exact .fails rfl
  · exact .answers rfl (met ⟨bound, answered⟩)

theorem Call.Paired.seenAs {σ τ α : Type} {view : σ → τ} {call : Call σ α} {seen : Call τ α} {meets : α → σ → Prop}
    (paired : ∀ state, Paired (fun left right => right = view left) meets call seen state (view state)) :
    call.SeenAs view seen := by
  intro bound state
  have both := paired state bound
  generalize call bound state = reply, seen bound (view state) = reply' at both ⊢
  cases both with
  | unfinished => rfl
  | fails kept | answers kept => rw [kept]; rfl

namespace Session

private theorem companions_quiet : Companions (fun left right => right = left.quiet) Eq (fun _ => True) where
  suspension := by
    rintro left _ rfl
    rfl
  unfed := by
    rintro left _ rfl
    exact (resume_quiet none).paired fun ends => ⟨(resume_emits ends).1, fun _ _ => trivial⟩
  fed := by
    rintro value _ left _ rfl rfl
    exact (resume_quiet (some value)).paired fun ends => ⟨(resume_emits ends).1, fun _ _ => trivial⟩

private theorem apply_quiet (session : Session) (effect : Effect) :
    (session.apply effect).quiet = session.quiet.apply effect := by
  rw [apply, apply, quiet_withMachine, quiet_noteEffect]
  cases effect <;> rfl

private theorem access_quiet (what : Access) : what.perform.SeenAs quiet what.perform := by
  intro bound session
  have same : session.quiet.machine.memory = session.machine.memory := rfl
  cases what with
  | read address =>
    simp only [Access.perform, Call.bind_apply, Call.get_apply, Call.ofExcept, same]
    cases session.machine.memory.read address <;> rfl
  | store address value =>
    simp only [Access.perform, Call.map_apply, store_apply, same]
    cases session.machine.memory.write address value <;> rfl
  | execute instruction =>
    simp only [Access.perform, execute, effect_quiet]
    cases instruction.effect session.machine with
    | error fault => rfl
    | ok effect => simp only [← apply_quiet]; rfl
  | dump | setPc | setBase | setLimit => rfl

private theorem perform_quiet (action : Action) : action.perform.SeenAs quiet action.perform := by
  by_cases runs : action.Runs
  · exact Call.Paired.seenAs fun session => companions_quiet.perform runs action.matches_self rfl
  · cases action with
    | access what => exact access_quiet what
    | _ => exact (runs nofun).elim

/-- What is done with the trace off is what is done with it on, seen without the trace. -/
theorem history_quiet_iff {session after : Session} {actions : List Action} {observations : List Observation} :
    History session.quiet actions observations after ↔
      ∃ loud, History session actions observations loud ∧ after = loud.quiet := by
  constructor
  · intro history
    induction actions generalizing session observations with
    | nil =>
      cases history
      exact ⟨session, .start, rfl⟩
    | cons action actions ih =>
      cases history with
      | next ends history =>
        obtain ⟨middle, went, rfl⟩ := (perform_quiet action).ends_iff.mp ends
        obtain ⟨loud, rest, same⟩ := ih history
        have begun := History.next went rest
        exact ⟨loud, begun, same⟩
  · rintro ⟨loud, history, rfl⟩
    induction history with
    | start => exact .start
    | next ends _ ih =>
      have begun := History.next ((perform_quiet _).ends_iff.mpr ⟨_, ends, rfl⟩) ih
      exact begun

end Session
end Intcode
