import Intcode.Exchange.Ports
import Intcode.Program.Source
import Intcode.Proofs.Closure

/-! Which resumptions a machine refuses, and that no run of a program meets a refusal. A
machine that has halted refuses everything and stays as it is. One that awaits a word refuses
to go on without it, but a host that serves suspensions always has a word at hand or fails by
itself. -/

namespace Intcode

theorem Fault.causeKind_of_kind {fault : Fault} {kind : Fault.Kind} (written : kind ≠ .unwritable)
    (reported : fault.kind = kind) : fault.causeKind = kind := by
  unfold Fault.kind at reported
  split at reported
  · exact (written reported.symm).elim
  · exact reported

private theorem Fault.kind_ne_protocol {fault : Fault} (other : fault.causeKind ≠ .protocol) :
    fault.kind ≠ .protocol := by
  intro reported
  exact other (causeKind_of_kind Kind.noConfusion reported)

theorem Fault.error_ne_protocol {α : Type} {fault : Fault} (other : fault.causeKind ≠ .protocol)
    (cause : Fault) (same : (.error fault : Except Fault α) = .error cause) : cause.kind ≠ .protocol := by
  cases same
  exact kind_ne_protocol other

namespace Call

variable {σ α β : Type} {state : σ}

/-- The call may fail, but never because a resumption or a pattern of calls is refused. -/
def KeepsProtocol (call : Call σ α) (before : σ) : Prop :=
  ∀ fault after, call.Ends before (.error fault) after → fault.kind ≠ .protocol

theorem KeepsProtocol.bind {call : Call σ α} {next : α → Call σ β} (first : call.KeepsProtocol state)
    (rest : ∀ value middle, call.Ends state (.ok value) middle → (next value).KeepsProtocol middle) :
    (call >>= next).KeepsProtocol state := by
  intro fault after ends
  rcases ends.of_bind with ⟨cause, same, fails⟩ | ⟨value, middle, went, ends⟩
  · cases same
    exact first fault after fails
  · exact rest value middle went fault after ends

/-- The call answers or fails at once and leaves the state as it is. -/
def Inert (call : Call σ α) (state : σ) : Prop :=
  ∃ outcome, ∀ bound, call bound state = some (outcome, state)

namespace Inert

theorem pure (value : α) : (Pure.pure value : Call σ α).Inert state := ⟨.ok value, fun _ => rfl⟩

theorem throw (fault : Fault) : (MonadExcept.throw fault : Call σ α).Inert state :=
  ⟨.error fault, fun _ => rfl⟩

theorem bind {call : Call σ α} {next : α → Call σ β} (first : call.Inert state)
    (rest : ∀ value, (next value).Inert state) : (call >>= next).Inert state := by
  obtain ⟨outcome, found⟩ := first
  cases outcome with
  | error fault => exact ⟨.error fault, fun bound => by rw [bind_apply, found]⟩
  | ok value =>
    obtain ⟨outcome, answered⟩ := rest value
    exact ⟨outcome, fun bound => by rw [bind_apply, found]; exact answered bound⟩

theorem get_bind {next : σ → Call σ α} (rest : (next state).Inert state) :
    (get >>= next).Inert state := by
  obtain ⟨outcome, answered⟩ := rest
  exact ⟨outcome, fun bound => by rw [bind_apply, get_apply]; exact answered bound⟩

theorem ends {call : Call σ α} (inert : call.Inert state) :
    ∃ outcome, ∀ outcome' after, call.Ends state outcome' after ↔ outcome' = outcome ∧ after = state := by
  obtain ⟨outcome, answered⟩ := inert
  refine ⟨outcome, fun outcome' after => ?_⟩
  simp [Call.Ends, answered, eq_comm]

end Inert
end Call

namespace Session

variable {session after : Session}

/-- The session has halted, or awaits a word and is given none. -/
def Refuses (session : Session) (value : Option Int) : Prop :=
  session.machine.suspension = some .complete ∨
    (∃ address, session.machine.suspension = some (.awaitingInput address)) ∧ value = none

private theorem accepts_of_running (running : session.machine.suspension = none) {value : Option Int} :
    ¬ session.Refuses value := by
  simp [Refuses, running]

theorem awake_of_halted {machine : Machine} (halted : machine.suspension = some .complete)
    (value : Option Int) : machine.awake value = .error .alreadyComplete := by
  unfold Machine.awake
  rw [halted]

private theorem awake_of_waiting {machine : Machine} {address : Int}
    (waiting : machine.suspension = some (.awaitingInput address)) :
    machine.awake none = .error .inputExpected := by
  unfold Machine.awake
  rw [waiting]

private theorem refused_iff (value : Option Int) :
    (∃ fault after, (resume value).Ends session (.error fault) after ∧ fault.kind = .protocol) ↔
      session.Refuses value := by
  constructor
  · intro ⟨fault, after, fails, reported⟩
    have kind := Fault.causeKind_of_kind Fault.Kind.noConfusion reported
    rcases resume_fails fails with refused | other | other | other
    · cases refused with
      | complete halted => exact .inl halted
      | noWord waiting => exact .inr ⟨⟨_, waiting⟩, rfl⟩
      | noCell => cases kind
    all_goals
      rw [kind] at other
      cases other
  · intro refuses
    rcases refuses with halted | ⟨⟨address, waiting⟩, rfl⟩
    · exact ⟨_, session, ends_resume.mpr (.inl ⟨_, awake_of_halted halted value, rfl, rfl⟩), rfl⟩
    · exact ⟨_, session, ends_resume.mpr (.inl ⟨_, awake_of_waiting waiting, rfl, rfl⟩), rfl⟩

section Halted

variable (halted : session.machine.suspension = some .complete)
include halted

private theorem resume_inert (value : Option Int) : (resume value).Inert session := by
  refine ⟨.error .alreadyComplete, fun bound => ?_⟩
  rw [resume_apply, awake_of_halted halted]

private theorem closed_inert : Closed fun _ call => call.Inert session where
  pure := .pure
  throw := fun _ => .throw _
  look := fun rest => .get_bind (rest session)
  bind := .bind
  resume := resume_inert halted

private theorem driven_inert (inputs : List Int) : (driven inputs).Inert session := by
  refine ⟨.ok (.drove (.error .alreadyComplete) []), fun bound => ?_⟩
  simp only [driven, Exchange.drive_apply, Call.bind_apply, Exchange.act, Call.onPart, resume_apply,
    awake_of_halted halted, Option.map_some]

/-- A halted session answers every call at once and is left as it was. -/
theorem perform_inert {action : Action} (runs : action.Runs) : action.perform.Inert session :=
  (closed_inert halted).perform (driven_inert halted) runs

end Halted

private theorem history_of_halted {actions : List Action} {observations : List Observation}
    (halted : session.machine.suspension = some .complete) (runs : ∀ action ∈ actions, action.Runs)
    (history : History session actions observations after) : after = session := by
  apply history.preserves (· = session) _ rfl
  intro action member before outcome left same ends
  rw [same] at ends
  obtain ⟨only, unique⟩ := (perform_inert halted (runs action member)).ends
  exact ((unique outcome left).mp ends).2

/-- A word that nobody awaits is entered in the journal, unless the machine has halted. -/
def offered (session : Session) (value : Int) : Session :=
  if session.machine.isComplete then session else session.note (.dropped value)

private theorem resume_of_idle (idle : ∀ address, session.machine.suspension ≠ some (.awaitingInput address))
    (value : Int) (bound : Nat) :
    resume (some value) bound session = resume none bound (session.offered value) := by
  rcases stopped : session.machine.suspension with _ | ⟨address | output | _⟩
  · simp [resume_apply, Machine.awake, received, offered, Machine.isComplete, note, stopped]
  · exact (idle address stopped).elim
  · simp [resume_apply, Machine.awake, received, offered, Machine.isComplete, note, stopped]
  · simp [resume_apply, Machine.awake, offered, Machine.isComplete, stopped]

end Session

namespace Host

/-- The ports of the host leave the machine alone and fail for reasons of their own. -/
structure Tame {σ : Type} (host : Host σ) : Prop where
  session_restore : ∀ session state, host.session (host.restore session state) = session
  takes : ∀ {before outcome after}, host.take.Ends before outcome after →
    host.session after = host.session before ∧ ∀ fault, outcome = .error fault → fault.kind ≠ .protocol
  delivers : ∀ {value before outcome after}, (host.deliver value).Ends before outcome after →
    host.session after = host.session before ∧ ∀ fault, outcome = .error fault → fault.kind ≠ .protocol

variable {σ : Type} {host : Host σ} {before after : σ}

/-- No protocol fault came up, and the machine stands where it says. -/
def Proper (host : Host σ) (outcome : Except Fault Suspension) (after : σ) : Prop :=
  match outcome with
  | .ok suspension => (host.session after).machine.suspension = some suspension
  | .error fault => fault.kind ≠ .protocol

namespace Tame

variable (tame : host.Tame)
include tame

theorem resume {value : Option Int} {outcome : Except Fault Suspension}
    (accepts : ¬ (host.session before).Refuses value)
    (ends : (host.act (Session.resume value)).Ends before outcome after) : host.Proper outcome after := by
  obtain ⟨left, resumed, rfl⟩ := Call.ends_onPart.mp ends
  unfold Proper
  rw [tame.session_restore]
  cases outcome with
  | ok suspension => exact (Session.resume_emits resumed).1
  | error fault =>
    intro reported
    exact accepts ((Session.refused_iff value).mp ⟨fault, left, resumed, reported⟩)

theorem serve {suspension : Suspension} {outcome : Except Fault Suspension}
    (stopped : (host.session before).machine.suspension = some suspension)
    (ends : (host.serve suspension).Ends before outcome after) : host.Proper outcome after := by
  cases suspension with
  | complete =>
    obtain ⟨rfl, rfl⟩ := Call.ends_pure.mp ends
    exact stopped
  | awaitingInput address =>
    rcases ends.of_bind with ⟨fault, rfl, fails⟩ | ⟨value, middle, took, ends⟩
    · exact (tame.takes fails).2 fault rfl
    · have same := (tame.takes took).1
      apply tame.resume _ ends
      intro refuses
      rw [Session.Refuses, same, stopped] at refuses
      simp at refuses
  | producedOutput value =>
    rcases ends.of_bind with ⟨fault, rfl, fails⟩ | ⟨_, middle, delivered, ends⟩
    · exact (tame.delivers fails).2 fault rfl
    · have same := (tame.delivers delivered).1
      apply tame.resume _ ends
      intro refuses
      rw [Session.Refuses, same, stopped] at refuses
      simp at refuses

theorem serveAll (rounds : Nat) {suspension : Suspension}
    (stopped : (host.session before).machine.suspension = some suspension) :
    (host.serveAll rounds suspension).KeepsProtocol before := by
  intro fault after ends
  induction rounds generalizing suspension before with
  | zero =>
    cases suspension with
    | complete => cases (Call.ends_pure.mp ends).1
    | awaitingInput address | producedOutput value =>
      obtain ⟨bound, impossible⟩ := ends
      cases impossible
  | succ rounds ih =>
    cases suspension with
    | complete => cases (Call.ends_pure.mp ends).1
    | awaitingInput address | producedOutput value =>
      rcases ends.of_bind with ⟨cause, same, fails⟩ | ⟨next, middle, served, ends⟩
      · cases same
        exact tame.serve stopped fails
      · exact ih (tame.serve stopped served) ends

theorem drive (accepts : ¬ (host.session before).Refuses none) : host.drive.KeepsProtocol before := by
  intro fault after ⟨bound, answered⟩
  rw [Host.drive, Call.bind_apply, Call.read_apply] at answered
  have ends : (host.act (Session.resume none) >>= host.serveAll bound).Ends before (.error fault) after :=
    ⟨bound, answered⟩
  rcases ends.of_bind with ⟨cause, same, fails⟩ | ⟨suspension, middle, resumed, ends⟩
  · cases same
    exact tame.resume accepts fails
  · exact tame.serveAll bound (tame.resume accepts resumed) fault after ends

end Tame
end Host

namespace Exchange

theorem tame_host : host.Tame where
  session_restore _ _ := rfl
  takes := by
    intro before outcome after ⟨bound, answered⟩
    change take bound before = _ at answered
    rw [take_apply] at answered
    split at answered
    · cases answered
      exact ⟨rfl, Fault.error_ne_protocol nofun⟩
    · split at answered <;> cases answered
      · exact ⟨rfl, Fault.error_ne_protocol nofun⟩
      · exact ⟨rfl, nofun⟩
  delivers := by
    intro value before outcome after ⟨bound, answered⟩
    change deliver value bound before = _ at answered
    rw [deliver_apply] at answered
    split at answered <;> cases answered
    · exact ⟨rfl, Fault.error_ne_protocol nofun⟩
    · exact ⟨rfl, nofun⟩

theorem drive_keepsProtocol {exchange : Exchange} (awake : exchange.session.machine.suspension = none) :
    drive.KeepsProtocol exchange := by
  rw [← host_drive]
  exact tame_host.drive (Session.accepts_of_running awake)

private theorem collect_keepsProtocol {exchange : Exchange} (awake : exchange.session.machine.suspension = none) :
    collect.KeepsProtocol exchange := by
  apply (drive_keepsProtocol awake).bind
  intro _ middle _ fault after ends
  rw [Call.ends_get_bind] at ends
  cases (Call.ends_pure.mp ends).1

theorem ends_store {address value : Int} {exchange after : Exchange} {outcome : Except Fault Unit}
    (ends : (act (Session.store address value)).Ends exchange outcome after) :
    after.session.machine.suspension = exchange.session.machine.suspension ∧
      ∀ fault, outcome = .error fault → fault = .negativeAddress address := by
  obtain ⟨left, ⟨bound, stored⟩, rfl⟩ := ends_act.mp ends
  rw [Session.store_apply, Memory.write_eq] at stored
  by_cases inside : 0 ≤ address
  · rw [if_pos inside] at stored
    cases stored
    exact ⟨rfl, nofun⟩
  · rw [if_neg inside] at stored
    cases stored
    exact ⟨rfl, fun fault same => by cases same; rfl⟩

private theorem store_keepsProtocol (address value : Int) (exchange : Exchange) :
    (act (Session.store address value)).KeepsProtocol exchange := by
  intro fault after ends
  rw [(ends_store ends).2 fault rfl]
  exact Fault.kind_ne_protocol nofun

private theorem evaluate_keepsProtocol {exchange : Exchange} (awake : exchange.session.machine.suspension = none)
    (noun verb : Int) : (evaluate noun verb).KeepsProtocol exchange := by
  have closing : (modify ({ · with closed := true }) : Call Exchange Unit).KeepsProtocol exchange := by
    intro fault after ⟨bound, answered⟩
    cases answered
  refine closing.bind fun _ closed ⟨bound, answered⟩ => ?_
  cases answered
  refine (store_keepsProtocol 1 noun _).bind fun _ first stored => ?_
  refine (store_keepsProtocol 2 verb _).bind fun _ second stored' => ?_
  have still := ((ends_store stored').1.trans (ends_store stored).1).trans awake
  refine (drive_keepsProtocol still).bind fun _ final _ => ?_
  intro fault after ends
  rw [Call.ends_get_bind] at ends
  obtain ⟨bound, answered⟩ := ends
  cases answered

end Exchange

namespace Wired

theorem tame_host : host.Tame where
  session_restore _ _ := rfl
  takes := by
    intro ⟨session, source, sink⟩ outcome after ⟨bound, answered⟩
    rcases source with _ | ⟨_ | ⟨value, rest⟩⟩ | words <;> cases answered
    · exact ⟨rfl, Fault.error_ne_protocol nofun⟩
    · exact ⟨rfl, Fault.error_ne_protocol nofun⟩
    · exact ⟨rfl, nofun⟩
    · exact ⟨rfl, nofun⟩
  delivers := by
    intro value ⟨session, source, sink⟩ outcome after ⟨bound, answered⟩
    rcases sink with _ | words | text <;> cases answered
    · exact ⟨rfl, Fault.error_ne_protocol nofun⟩
    · exact ⟨rfl, nofun⟩
    · exact ⟨rfl, nofun⟩

theorem drive_keepsProtocol {wired : Wired} (awake : wired.session.machine.suspension = none) :
    host.drive.KeepsProtocol wired :=
  tame_host.drive (Session.accepts_of_running awake)

end Wired

/-- Running a text fails for its settings, its program or its inputs, or as its drive does. -/
theorem Program.runSource_fault {directory : Directory} {text : String} {supply : Supply} {config : Value}
    {bound : Nat} {run : SourceRun} {fault : Fault}
    (ran : runSource directory text (.ok supply) config bound = some run)
    (failed : run.outcome = .error (.fault fault)) : fault.kind ≠ .protocol := by
  unfold runSource at ran
  cases loaded : Settings.load directory config with
  | error error =>
    rw [loaded] at ran
    cases ran
    cases failed
  | ok settings =>
    cases parsed : parse text with
    | error error =>
      rw [loaded, parsed] at ran
      cases ran
      cases failed
    | ok program =>
      rw [loaded, parsed] at ran
      obtain ⟨⟨outcome, after⟩, answered, made⟩ := Option.map_eq_some_iff.mp ran
      cases outcome with
      | ok done =>
        cases made
        cases failed
      | error cause =>
        have kept := Exchange.drive_keepsProtocol rfl cause after ⟨bound, answered⟩
        cases made
        have blamed : supply.blame cause = .fault fault := Except.error.inj failed
        unfold Supply.blame at blamed
        split at blamed <;> cases blamed
        exact kept

/-- A resumption is refused just by a machine that has halted, or that awaits a word and is given
none. A word that nobody awaits changes nothing but the journal, where it is entered first. A
machine that has halted answers every call at once and is left as it was, however many calls
are made. And whatever ports a program is run between, no resumption of it is refused. -/
theorem resumption_protocol :
    (∀ session value, (∃ fault after, (Session.resume value).Ends session (.error fault) after ∧
      fault.kind = .protocol) ↔ session.Refuses value) ∧
    (∀ (session : Session) (value : Int),
      (∀ address, session.machine.suspension ≠ some (.awaitingInput address)) →
      (∀ outcome machine,
        (∃ after, (Session.resume (some value)).Ends session outcome after ∧ after.machine = machine) ↔
          ∃ after, (Session.resume none).Ends session outcome after ∧ after.machine = machine) ∧
      ∀ outcome after, (Session.resume (some value)).Ends session outcome after ↔
        (Session.resume none).Ends (session.offered value) outcome after) ∧
    (∀ session : Session, session.machine.suspension = some .complete →
      (∀ action : Session.Action, action.Runs → ∃ outcome, ∀ outcome' after,
        action.perform.Ends session outcome' after ↔ outcome' = outcome ∧ after = session) ∧
      ∀ actions observations after, (∀ action ∈ actions, action.Runs) →
        Session.History session actions observations after → after = session) ∧
    (∀ (program : Program) (trace : Bool) (limit : Option Int),
      (∀ inputs, Exchange.drive.KeepsProtocol (program.exchange inputs trace limit) ∧
        Exchange.collect.KeepsProtocol (program.exchange inputs trace limit) ∧
        ∀ noun verb, (Exchange.evaluate noun verb).KeepsProtocol (program.exchange inputs trace limit)) ∧
      ∀ source sink, Wired.host.drive.KeepsProtocol (program.wired source sink trace limit)) ∧
    ∀ directory text supply config bound run fault,
      Program.runSource directory text (.ok supply) config bound = some run →
      run.outcome = .error (.fault fault) → fault.kind ≠ .protocol := by
  refine ⟨fun session => Session.refused_iff, fun session value idle => ⟨fun outcome machine => ?_, ?_⟩,
    fun session halted => ⟨fun action runs => (Session.perform_inert halted runs).ends, ?_⟩,
    fun program trace limit => ⟨fun inputs => ⟨?_, ?_, fun noun verb => ?_⟩, fun source sink => ?_⟩, ?_⟩
  · have alike := Machine.awake_of_idle idle (some value)
    constructor
    · intro ⟨after, ends, reached⟩
      obtain ⟨left, plain, same⟩ := Session.ends_resume_alike rfl alike.symm ends
      exact ⟨left, plain, same.trans reached⟩
    · intro ⟨after, ends, reached⟩
      obtain ⟨left, fed, same⟩ := Session.ends_resume_alike rfl alike ends
      exact ⟨left, fed, same.trans reached⟩
  · intro outcome after
    unfold Call.Ends
    simp only [Session.resume_of_idle idle]
  · intro actions observations after runs history
    exact Session.history_of_halted halted runs history
  · exact Exchange.drive_keepsProtocol rfl
  · exact Exchange.collect_keepsProtocol rfl
  · exact Exchange.evaluate_keepsProtocol rfl noun verb
  · exact Wired.drive_keepsProtocol rfl
  · intro directory text supply config bound run fault ran failed
    exact Program.runSource_fault ran failed

/-- A program that halts after an output: a word offered in between is dropped, and then neither
reading nor driving changes anything. -/
theorem resumption_protocol_of_output : ∃ emitting halted observations after,
    (Session.resume none).Ends (Session.load [104, 7, 99] false none) (.ok (.producedOutput 7)) emitting ∧
    (Session.resume (some 5)).Ends emitting (.ok .complete) halted ∧
    (Session.resume none).Ends (emitting.offered 5) (.ok .complete) halted ∧
    Session.History halted [.stepRead 1, .drive [1]] observations after ∧ after = halted := by
  obtain ⟨_, dropped, absorbed, _⟩ := resumption_protocol
  refine ⟨_, _, _, _, ⟨9, rfl⟩, ⟨9, rfl⟩, ((dropped _ 5 ?_).2 _ _).mp ⟨9, rfl⟩,
    .next ⟨9, rfl⟩ (.next ⟨9, rfl⟩ .start), ?_⟩
  · intro address waiting
    cases waiting
  · refine (absorbed _ rfl).2 [.stepRead 1, .drive [1]] _ _ ?_ (.next ⟨9, rfl⟩ (.next ⟨9, rfl⟩ .start))
    simp [Session.Action.Runs]

end Intcode
