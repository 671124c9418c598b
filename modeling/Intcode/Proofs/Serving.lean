import Mathlib.Control.Monad.Basic
import Intcode.Proofs.Driving
import Intcode.Proofs.Emission

/-! Serving a machine from a list of words, told by its resumptions alone. Only the word that
is asked for is looked at. So words behind those that were taken make no difference until
the machine asks for them, and then it goes on from where it would have stopped. -/

namespace Intcode

namespace Session

/-- Resume a suspended session until it halts, fails or asks for a word when none is left.
The words that it leaves and those that it emits are kept in order. -/
inductive Served : Session → List Int → Except Fault Unit → List Int → List Int → Session → Prop where
  | halted (stopped : session.machine.suspension = some .complete) :
    Served session inputs (.ok ()) inputs [] session
  | drained (asks : session.machine.suspension = some (.awaitingInput address)) :
    Served session [] (.error .inputDrained) [] [] session
  | inputFails (asks : before.machine.suspension = some (.awaitingInput address))
    (fails : (resume (some value)).Ends before (.error fault) after) :
    Served before (value :: rest) (.error fault) rest [] after
  | input (asks : before.machine.suspension = some (.awaitingInput address))
    (ends : (resume (some value)).Ends before (.ok suspension) middle)
    (served : Served middle rest outcome left outputs after) :
    Served before (value :: rest) outcome left outputs after
  | outputFails (emits : before.machine.suspension = some (.producedOutput word))
    (fails : (resume none).Ends before (.error fault) after) :
    Served before inputs (.error fault) inputs [word] after
  | output (emits : before.machine.suspension = some (.producedOutput word))
    (ends : (resume none).Ends before (.ok suspension) middle)
    (served : Served middle inputs outcome left outputs after) :
    Served before inputs outcome left (word :: outputs) after

variable {before middle after : Session} {inputs left outputs : List Int} {outcome : Except Fault Unit}

/-- A machine never fails for want of a word: it asks for one. -/
theorem resume_not_drained {value : Option Int} {fault : Fault}
    (fails : (resume value).Ends before (.error fault) after) : fault ≠ .inputDrained := by
  rintro rfl
  rcases resume_fails fails with refused | kind | kind | kind
  · cases refused
  all_goals cases kind

theorem Served.more (served : Served before inputs outcome left outputs after) (more : List Int)
    (enough : outcome ≠ .error .inputDrained) :
    Served before (inputs ++ more) outcome (left ++ more) outputs after := by
  induction served with
  | halted stopped => exact .halted stopped
  | drained => exact (enough rfl).elim
  | inputFails asks fails => exact .inputFails asks fails
  | input asks ends _ ih => exact .input asks ends (ih enough)
  | outputFails emits fails => exact .outputFails emits fails
  | output emits ends _ ih => exact .output emits ends (ih enough)

theorem served_input_iff {address value : Int} {rest : List Int} {suspension : Suspension}
    (asks : before.machine.suspension = some (.awaitingInput address))
    (ends : (resume (some value)).Ends before (.ok suspension) middle) :
    Served before (value :: rest) outcome left outputs after ↔
      Served middle rest outcome left outputs after := by
  refine ⟨fun served => ?_, .input asks ends⟩
  cases served with
  | halted stopped | outputFails stopped | output stopped =>
    rw [asks] at stopped
    cases stopped
  | inputFails _ fails => cases (ends.unique (steady_resume _) fails).1
  | input _ ends' served =>
    obtain ⟨_, rfl⟩ := ends.unique (steady_resume _) ends'
    exact served

theorem served_output_iff {word : Int} {suspension : Suspension}
    (emits : before.machine.suspension = some (.producedOutput word))
    (ends : (resume none).Ends before (.ok suspension) middle) :
    Served before inputs outcome left outputs after ↔
      ∃ rest, outputs = word :: rest ∧ Served middle inputs outcome left rest after := by
  constructor
  · intro served
    cases served with
    | halted stopped | drained stopped | inputFails stopped | input stopped =>
      rw [emits] at stopped
      cases stopped
    | outputFails _ fails => cases (ends.unique (steady_resume _) fails).1
    | output emits' ends' served =>
      rw [emits] at emits'
      cases emits'
      obtain ⟨_, rfl⟩ := ends.unique (steady_resume _) ends'
      exact ⟨_, rfl, served⟩
  · rintro ⟨rest, rfl, served⟩
    exact .output emits ends served

/-- A session that ran out of words asks for one, and goes on with any that follow. -/
theorem Served.onward (served : Served before inputs (.error .inputDrained) left outputs after) :
    (∃ address, after.machine.suspension = some (.awaitingInput address)) ∧
    ∀ more outcome left' outputs' final, Served before (inputs ++ more) outcome left' outputs' final ↔
      ∃ rest, outputs' = outputs ++ rest ∧ Served after more outcome left' rest final := by
  generalize drained : Except.error Fault.inputDrained = reply at served
  induction served with
  | halted => cases drained
  | drained asks => exact ⟨⟨_, asks⟩, fun more outcome left' outputs' final => by simp⟩
  | inputFails _ fails | outputFails _ fails =>
    cases drained
    exact (resume_not_drained fails rfl).elim
  | input asks ends _ ih =>
    -- A session resumes in one way only, so that both services share their first resumption.
    obtain ⟨stops, onward⟩ := ih drained
    refine ⟨stops, fun more outcome left' outputs' final => ?_⟩
    rw [List.cons_append, served_input_iff asks ends]
    exact onward more outcome left' outputs' final
  | output emits ends _ ih =>
    obtain ⟨stops, onward⟩ := ih drained
    refine ⟨stops, fun more outcome left' outputs' final => ?_⟩
    simp only [served_output_iff emits ends, onward]
    constructor
    · rintro ⟨_, rfl, rest, rfl, served⟩
      exact ⟨rest, rfl, served⟩
    · rintro ⟨rest, rfl, served⟩
      exact ⟨_, rfl, rest, rfl, served⟩

end Session

namespace Exchange

open Session (Served)

def advanced (exchange : Exchange) (left outputs : List Int) (session : Session) : Exchange :=
  { exchange with session, inputs := left, outputs := exchange.outputs ++ outputs.toArray }

variable {exchange after : Exchange} {outcome : Except Fault Unit}

@[simp]
theorem advanced_self (exchange : Exchange) :
    exchange.advanced exchange.inputs [] exchange.session = exchange := by
  simp [advanced]

@[simp]
theorem advanced_advanced (exchange : Exchange) (between session : Session)
    (left left' outputs outputs' : List Int) :
    (exchange.advanced left outputs between).advanced left' outputs' session =
      exchange.advanced left' (outputs ++ outputs') session := by
  simp [advanced]

@[simp]
theorem inputs_advanced (exchange : Exchange) (left outputs : List Int) (session : Session) :
    (exchange.advanced left outputs session).inputs = left := rfl

theorem opened_advanced (opened : exchange.closed = false) (left outputs : List Int)
    (session : Session) : (exchange.advanced left outputs session).closed = false := opened

private theorem ends_act_advanced {α : Type} {call : Call Session α} {reply : Except Fault α} :
    (act call).Ends exchange reply after ↔
      ∃ session, call.Ends exchange.session reply session ∧
        after = exchange.advanced exchange.inputs [] session := by
  simp [ends_act, advanced]

theorem ends_serve_output (opened : exchange.closed = false) {word : Int}
    {reply : Except Fault Suspension} :
    (serve (.producedOutput word)).Ends exchange reply after ↔
      ∃ session, (Session.resume none).Ends exchange.session reply session ∧
        after = exchange.advanced exchange.inputs [word] session := by
  unfold serve
  rw [Call.ends_bind_of_ok fun bound => by rw [deliver_apply, opened]; rfl]
  simp [ends_act, advanced, opened]

theorem ends_serve_input (opened : exchange.closed = false) {address value : Int} {rest : List Int}
    (supply : exchange.inputs = value :: rest) {reply : Except Fault Suspension} :
    (serve (.awaitingInput address)).Ends exchange reply after ↔
      ∃ session, (Session.resume (some value)).Ends exchange.session reply session ∧
        after = exchange.advanced rest [] session := by
  unfold serve
  rw [Call.ends_bind_of_ok fun bound => by rw [take_apply, opened, supply]; rfl]
  simp [ends_act, advanced, opened]

theorem ends_serve_drained (opened : exchange.closed = false) {address : Int}
    (supply : exchange.inputs = []) {reply : Except Fault Suspension} :
    (serve (.awaitingInput address)).Ends exchange reply after ↔
      reply = .error .inputDrained ∧ after = exchange := by
  unfold serve
  exact Call.ends_bind_of_error fun bound => by rw [take_apply, opened, supply]; rfl

private theorem served_of_serveAll {rounds : Nat} {suspension : Suspension}
    (ends : (serveAll rounds suspension).Ends exchange outcome after) (opened : exchange.closed = false)
    (stopped : exchange.session.machine.suspension = some suspension) :
    ∃ left outputs session, Served exchange.session exchange.inputs outcome left outputs session ∧
      after = exchange.advanced left outputs session := by
  induction rounds generalizing exchange suspension with
  | zero =>
    cases suspension with
    | complete =>
      obtain ⟨rfl, rfl⟩ := Call.ends_pure.mp ends
      exact ⟨_, _, _, .halted stopped, (advanced_self after).symm⟩
    | awaitingInput address | producedOutput word =>
      obtain ⟨bound, impossible⟩ := ends
      cases impossible
  | succ rounds ih =>
    cases suspension with
    | complete =>
      obtain ⟨rfl, rfl⟩ := Call.ends_pure.mp ends
      exact ⟨_, _, _, .halted stopped, (advanced_self after).symm⟩
    | producedOutput word =>
      rcases ends.of_bind with ⟨fault, rfl, failed⟩ | ⟨next, middle, went, onward⟩
      · obtain ⟨session, fails, rfl⟩ := (ends_serve_output opened).mp failed
        exact ⟨_, _, session, .outputFails stopped fails, rfl⟩
      · obtain ⟨session, resumed, rfl⟩ := (ends_serve_output opened).mp went
        obtain ⟨left, outputs, final, served, rfl⟩ := ih onward opened (Session.resume_emits resumed).1
        exact ⟨left, word :: outputs, final, .output stopped resumed served, by simp⟩
    | awaitingInput address =>
      cases supply : exchange.inputs with
      | nil =>
        rcases ends.of_bind with ⟨fault, rfl, failed⟩ | ⟨next, middle, went, _⟩
        · obtain ⟨same, rfl⟩ := (ends_serve_drained opened supply).mp failed
          cases same
          have same := advanced_self after
          rw [supply] at same
          exact ⟨[], [], after.session, .drained stopped, same.symm⟩
        · cases ((ends_serve_drained opened supply).mp went).1
      | cons value rest =>
        rcases ends.of_bind with ⟨fault, rfl, failed⟩ | ⟨next, middle, went, onward⟩
        · obtain ⟨session, fails, rfl⟩ := (ends_serve_input opened supply).mp failed
          exact ⟨rest, [], session, .inputFails stopped fails, rfl⟩
        · obtain ⟨session, resumed, rfl⟩ := (ends_serve_input opened supply).mp went
          obtain ⟨left, outputs, final, served, rfl⟩ := ih onward opened (Session.resume_emits resumed).1
          exact ⟨left, outputs, final, .input stopped resumed served, by simp⟩

/-- Every service of a session is one that an exchange gives it, in as many rounds as it takes. -/
theorem serveAll_of_served {suspension : Suspension} {inputs left outputs : List Int}
    {before session : Session} (served : Served before inputs outcome left outputs session)
    (opened : exchange.closed = false) (stopped : before.machine.suspension = some suspension) :
    ∃ rounds, (serveAll rounds suspension).Ends (exchange.advanced inputs [] before) outcome
      (exchange.advanced left outputs session) := by
  have fails {suspension : Suspension} {start final : Exchange} {fault : Fault}
      (going : suspension ≠ .complete) (failed : (serve suspension).Ends start (.error fault) final) :
      ∃ rounds, (serveAll rounds suspension).Ends start (.error fault) final := by
    refine ⟨1, ?_⟩
    rw [serveAll_succ 0 going, Call.ends_bind (steady_serve suspension) (steady_serveAll 0)]
    exact .inl ⟨fault, rfl, failed⟩
  have goes {suspension next : Suspension} {start middle final : Exchange} {outcome : Except Fault Unit}
      (going : suspension ≠ .complete) (went : (serve suspension).Ends start (.ok next) middle)
      (rest : ∃ rounds, (serveAll rounds next).Ends middle outcome final) :
      ∃ rounds, (serveAll rounds suspension).Ends start outcome final := by
    obtain ⟨rounds, rest⟩ := rest
    refine ⟨rounds + 1, ?_⟩
    rw [serveAll_succ rounds going, Call.ends_bind (steady_serve suspension) (steady_serveAll rounds)]
    exact .inr ⟨next, middle, went, rest⟩
  induction served generalizing exchange suspension with
  | halted halts =>
    rw [halts] at stopped
    cases stopped
    exact ⟨0, Call.ends_pure.mpr ⟨rfl, rfl⟩⟩
  | drained asks =>
    rw [asks] at stopped
    cases stopped
    exact fails nofun ((ends_serve_drained (opened_advanced opened _ _ _) rfl).mpr ⟨rfl, rfl⟩)
  | inputFails asks failed =>
    rw [asks] at stopped
    cases stopped
    exact fails nofun ((ends_serve_input (opened_advanced opened _ _ _) rfl).mpr ⟨_, failed, by simp⟩)
  | input asks resumed _ ih =>
    rw [asks] at stopped
    cases stopped
    refine goes nofun ((ends_serve_input (opened_advanced opened _ _ _) rfl).mpr ⟨_, resumed, rfl⟩) ?_
    rw [advanced_advanced]
    exact ih opened (Session.resume_emits resumed).1
  | outputFails emits failed =>
    rw [emits] at stopped
    cases stopped
    exact fails nofun ((ends_serve_output (opened_advanced opened _ _ _)).mpr ⟨_, failed, by simp⟩)
  | @output _ _ middle inputs _ _ _ _ word emits resumed _ ih =>
    rw [emits] at stopped
    cases stopped
    refine goes nofun ((ends_serve_output (opened_advanced opened _ _ _)).mpr ⟨_, resumed, rfl⟩) ?_
    have delivered := opened_advanced opened inputs [word] middle
    simpa using ih delivered (Session.resume_emits resumed).1

/-- Driving is the first resumption, and serving the session where that stopped. -/
theorem ends_drive_iff_served (opened : exchange.closed = false) :
    drive.Ends exchange outcome after ↔
      (∃ fault session, outcome = .error fault ∧
        (Session.resume none).Ends exchange.session (.error fault) session ∧
        after = exchange.advanced exchange.inputs [] session) ∨
      ∃ suspension middle left outputs session,
        (Session.resume none).Ends exchange.session (.ok suspension) middle ∧
        Served middle exchange.inputs outcome left outputs session ∧
        after = exchange.advanced left outputs session := by
  have serving (rounds : Nat) :
      (act (Session.resume none) >>= serveAll rounds).Ends exchange outcome after ↔ _ :=
    Call.ends_bind (steady_act (Session.steady_resume none)) (steady_serveAll rounds)
  simp only [ends_drive, serving, ends_act_advanced]
  constructor
  · rintro ⟨rounds, ⟨fault, rfl, session, fails, rfl⟩ | ⟨suspension, _, ⟨middle, resumed, rfl⟩, rest⟩⟩
    · exact .inl ⟨fault, session, rfl, fails, rfl⟩
    · obtain ⟨left, outputs, session, served, rfl⟩ :=
        served_of_serveAll rest opened (Session.resume_emits resumed).1
      exact .inr ⟨suspension, middle, left, outputs, session, resumed, served, by simp⟩
  · rintro (⟨fault, session, rfl, fails, rfl⟩ |
      ⟨suspension, middle, left, outputs, session, resumed, served, rfl⟩)
    · exact ⟨0, .inl ⟨fault, rfl, session, fails, rfl⟩⟩
    · obtain ⟨rounds, rest⟩ := serveAll_of_served served opened (Session.resume_emits resumed).1
      exact ⟨rounds, .inr ⟨suspension, _, ⟨middle, resumed, rfl⟩, rest⟩⟩

theorem ends_collect_ok {outputs : List Int} :
    collect.Ends exchange (.ok outputs) after ↔
      drive.Ends exchange (.ok ()) after ∧ after.outputs.toList = outputs := by
  have answers : ∀ done : Unit, (get >>= fun state : Exchange =>
      (pure state.outputs.toList : Call Exchange (List Int))).Steady := fun _ =>
    Call.steady_of_instant fun _ _ => rfl
  unfold collect
  rw [Call.ends_bind steady_drive answers]
  constructor
  · rintro (⟨_, impossible, _⟩ | ⟨_, middle, drives, ends⟩)
    · cases impossible
    · rw [Call.ends_get_bind] at ends
      obtain ⟨same, rfl⟩ := Call.ends_pure.mp ends
      cases same
      exact ⟨drives, rfl⟩
  · rintro ⟨drives, rfl⟩
    exact .inr ⟨(), after, drives, Call.ends_get_bind.mpr (Call.ends_pure.mpr ⟨rfl, rfl⟩)⟩

/-- A drive that never runs out of inputs ends the same with more of them, and leaves those.
One that does run out goes on from there: what it delivered stays, and everything else is
what its session does when it is resumed with the further inputs. -/
theorem ends_drive_of_more_inputs {program : Program} {inputs : List Int} {trace : Bool}
    {limit : Option Int} (ends : drive.Ends (program.exchange inputs trace limit) outcome after)
    (more : List Int) :
    (outcome ≠ .error .inputDrained → ∀ outcome' final,
      drive.Ends (program.exchange (inputs ++ more) trace limit) outcome' final ↔
        outcome' = outcome ∧ final = { after with inputs := after.inputs ++ more }) ∧
    (outcome = .error .inputDrained →
      (∃ address, after.session.machine.suspension = some (.awaitingInput address)) ∧
      ∀ outcome' final, drive.Ends (program.exchange (inputs ++ more) trace limit) outcome' final ↔
        ∃ left outputs session, Served after.session more outcome' left outputs session ∧
          final = { after with session, inputs := left, outputs := after.outputs ++ outputs.toArray }) := by
  rcases (ends_drive_iff_served rfl).mp ends with ⟨fault, session, rfl, fails, rfl⟩ |
    ⟨suspension, middle, left, outputs, session, resumed, served, rfl⟩
  · refine ⟨fun _ _ _ => ?_, fun drained => ?_⟩
    · exact Call.Ends.iff_same steady_drive
        ((ends_drive_iff_served rfl).mpr (.inl ⟨fault, session, rfl, fails, rfl⟩))
    · cases drained
      exact (Session.resume_not_drained fails rfl).elim
  refine ⟨fun enough _ _ => ?_, fun drained => ?_⟩
  · exact Call.Ends.iff_same steady_drive ((ends_drive_iff_served rfl).mpr
      (.inr ⟨suspension, middle, _, outputs, session, resumed, served.more more enough, rfl⟩))
  · subst drained
    obtain ⟨stops, onward⟩ := served.onward
    refine ⟨stops, fun outcome' final => ?_⟩
    constructor
    · intro ends'
      rcases (ends_drive_iff_served rfl).mp ends' with ⟨_, _, _, fails, _⟩ |
        ⟨_, _, left', _, session', resumed', served', rfl⟩
      · cases (resumed.unique (Session.steady_resume none) fails).1
      · obtain ⟨_, rfl⟩ := resumed.unique (Session.steady_resume none) resumed'
        obtain ⟨rest, rfl, further⟩ := (onward ..).mp served'
        exact ⟨left', rest, session', further, by simp [advanced, Program.exchange]⟩
    · rintro ⟨left', rest, session', served', rfl⟩
      have whole := (onward ..).mpr ⟨rest, rfl, served'⟩
      exact (ends_drive_iff_served rfl).mpr
        (.inr ⟨suspension, middle, left', outputs ++ rest, session', resumed, whole,
          by simp [advanced, Program.exchange]⟩)

/-- A program that echoes two words is stuck after the first, goes on with a second and leaves
a third. -/
theorem ends_drive_of_more_inputs_echo : ∃ stuck done session,
    drive.Ends ((Program.mk [3, 15, 4, 15, 3, 15, 4, 15, 99]).exchange [5] false none)
      (.error .inputDrained) stuck ∧
    drive.Ends ((Program.mk [3, 15, 4, 15, 3, 15, 4, 15, 99]).exchange [5, 6] false none) (.ok ()) done ∧
    Served stuck.session [6, 7] (.ok ()) [7] [6] session ∧
    drive.Ends ((Program.mk [3, 15, 4, 15, 3, 15, 4, 15, 99]).exchange ([5] ++ [6, 7]) false none)
      (.ok ()) { done with inputs := [7] } := by
  obtain ⟨stuck, first, five⟩ : ∃ stuck, drive.Ends ((Program.mk [3, 15, 4, 15, 3, 15, 4, 15, 99]).exchange
      [5] false none) (.error .inputDrained) stuck ∧ stuck.outputs.toList = [5] :=
    Call.ends_of_view (fun stuck : Exchange => stuck.outputs.toList) 9 (by decide +kernel)
  obtain ⟨done, second, seen⟩ : ∃ done, drive.Ends ((Program.mk [3, 15, 4, 15, 3, 15, 4, 15, 99]).exchange
      [5, 6] false none) (.ok ()) done ∧ (done.inputs, done.outputs.toList) = ([], [5, 6]) :=
    Call.ends_of_view (fun done : Exchange => (done.inputs, done.outputs.toList)) 9 (by decide +kernel)
  obtain ⟨none, both⟩ := Prod.mk.inj seen
  have third := ((ends_drive_of_more_inputs second [7]).1 nofun _ _).mpr ⟨rfl, rfl⟩
  obtain ⟨_, onward⟩ := (ends_drive_of_more_inputs first [6, 7]).2 rfl
  obtain ⟨left, outputs, session, served, same⟩ := (onward _ _).mp third
  have inputs : done.inputs ++ [7] = left := congrArg Exchange.inputs same
  have delivered : done.outputs.toList = stuck.outputs.toList ++ outputs := by
    simpa using congrArg (·.outputs.toList) same
  rw [none] at inputs third
  rw [both, five] at delivered
  cases inputs
  cases delivered
  exact ⟨stuck, done, session, first, second, served, third⟩

end Exchange
end Intcode
