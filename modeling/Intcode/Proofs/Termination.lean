import Intcode.Proofs.Allowance
import Intcode.Proofs.HostViews
import Intcode.Proofs.Protocol

/-! A step limit ends every run. No host can serve a machine for longer than its limit allows,
however long it could go on supplying words. -/

namespace Intcode

open Machine (Pays)

namespace Host

variable {σ : Type}

/-- The host together with the number of resumptions that it makes. -/
def counted (host : Host σ) : Host (σ × Nat) where
  session state := host.session state.1
  restore session state := (host.restore session state.1, state.2 + 1)
  take := Call.onPart Prod.fst (fun inner state => (inner, state.2)) host.take
  deliver value := Call.onPart Prod.fst (fun inner state => (inner, state.2)) (host.deliver value)

/-- Counting its resumptions makes no difference to a host. -/
theorem counted_seenAs (host : Host σ) : host.counted.SeenAs Prod.fst host where
  session _ := rfl
  restore _ _ := rfl
  take := port_seenAs host.take
  deliver value := port_seenAs (host.deliver value)

/-- The ports of the host answer at once and leave the machine alone. -/
structure Prompt (host : Host σ) : Prop where
  session_restore : ∀ session state, host.session (host.restore session state) = session
  takes : ∀ bound before, ∃ outcome after,
    host.take bound before = some (outcome, after) ∧ host.session after = host.session before
  delivers : ∀ value bound before, ∃ outcome after,
    host.deliver value bound before = some (outcome, after) ∧ host.session after = host.session before

variable {host : Host σ} {limit : Int}

def engine (host : Host σ) (state : σ × Nat) : Machine := (host.session state.1).machine

theorem port_limits {α : Type} {port : Call σ α} (prompt : ∀ bound before, ∃ outcome after,
      port bound before = some (outcome, after) ∧ host.session after = host.session before) :
    (Call.onPart Prod.fst (fun inner state => (inner, state.2)) port : Call (σ × Nat) α).Limits
      host.engine Prod.snd limit := by
  refine .of_still fun bound state => ?_
  obtain ⟨outcome, after, answered, same⟩ := prompt bound state.1
  refine ⟨outcome, (after, state.2), ?_, congrArg Session.machine same, rfl⟩
  rw [Call.onPart, answered, Option.map_some]

namespace Prompt

variable (prompt : host.Prompt)
include prompt

theorem act_resume {value : Option Int} {bound : Nat} {before after : σ × Nat}
    {outcome : Except Fault Suspension}
    (answered : host.counted.act (Session.resume value) bound before = some (outcome, after)) :
    (Session.resume value).Ends (host.session before.1) outcome (host.session after.1) ∧
      after.2 = before.2 + 1 := by
  obtain ⟨⟨_, session⟩, found, same⟩ := Option.map_eq_some_iff.mp answered
  cases same
  refine ⟨⟨bound, ?_⟩, rfl⟩
  change _ = some (outcome, host.session (host.restore session before.1))
  rw [prompt.session_restore]
  exact found

theorem act_limits (value : Option Int) :
    (host.counted.act (Session.resume value)).Limits host.engine Prod.snd limit where
  pays limited answered := Session.resume_pays limited (prompt.act_resume answered).1
  counts := by
    intro bound before outcome after limited answered
    obtain ⟨ends, counted⟩ := prompt.act_resume answered
    have paid := Session.resume_pays limited ends
    have fewer := paid.remaining_le
    have exactly := paid.exactly
    simp only [engine]
    cases outcome with
    | error fault =>
      simp only [failures]
      omega
    | ok suspension =>
      have spent := Session.steps_lt_of_resume ends
      simp only [failures]
      omega
  unanswered := by
    intro bound before limited silent
    exact (Session.resume_limits value).unanswered limited (Option.map_eq_none_iff.mp silent)

theorem serve_limits (suspension : Suspension) :
    (host.counted.serve suspension).Limits host.engine Prod.snd limit := by
  cases suspension with
  | complete => exact .pure _
  | awaitingInput address => exact (port_limits prompt.takes).bind fun value => prompt.act_limits _
  | producedOutput value => exact (port_limits (prompt.delivers value)).bind fun _ => prompt.act_limits _

theorem serve_spends {suspension next : Suspension} (going : suspension ≠ .complete) {bound : Nat}
    {before after : σ × Nat} (limited : (host.engine before).stepLimit = some limit)
    (answered : host.counted.serve suspension bound before = some (.ok next, after)) :
    (host.engine after).remaining limit < (host.engine before).remaining limit := by
  have resumed {α : Type} {port : Call (σ × Nat) α} (value : α → Option Int)
      (still : port.Limits host.engine Prod.snd limit)
      (answered : (port >>= fun word => host.counted.act (Session.resume (value word))) bound before =
        some (.ok next, after)) :
      (host.engine after).remaining limit < (host.engine before).remaining limit := by
    rw [Call.bind_apply] at answered
    rcases found : port bound before with _ | ⟨fault | word, middle⟩
    · rw [found] at answered; cases answered
    · rw [found] at answered; cases answered
    · rw [found] at answered
      have idle := still.pays limited found
      have ends := (prompt.act_resume answered).1
      have paid := Session.resume_pays idle.limited ends
      have spent := Session.steps_lt_of_resume ends
      have fewer := idle.remaining_le
      have exactly := paid.exactly
      simp only [engine] at fewer ⊢
      omega
  cases suspension with
  | complete => exact (going rfl).elim
  | awaitingInput address => exact resumed some (port_limits prompt.takes) answered
  | producedOutput value => exact resumed (fun _ => none) (port_limits (prompt.delivers value)) answered

private theorem serveAll_metered (rounds : Nat) (suspension : Suspension) :
    (host.counted.serveAll rounds suspension).Metered host.engine Prod.snd limit := by
  induction rounds generalizing suspension with
  | zero =>
    cases suspension with
    | complete => exact (Call.Limits.pure ()).toMetered
    | awaitingInput address | producedOutput value => exact ⟨nofun, nofun⟩
  | succ rounds ih =>
    cases suspension with
    | complete => exact (Call.Limits.pure ()).toMetered
    | awaitingInput address | producedOutput value => exact (prompt.serve_limits _).toMetered.bind ih

/-- The host's rounds run out no sooner than the limit does. -/
theorem serveAll_unanswered {rounds bound : Nat} {suspension : Suspension} {before : σ × Nat}
    (limited : (host.engine before).stepLimit = some limit)
    (silent : host.counted.serveAll rounds suspension bound before = none) :
    min rounds bound ≤ (host.engine before).remaining limit := by
  induction rounds generalizing suspension before with
  | zero => omega
  | succ rounds ih =>
    have served (going : suspension ≠ .complete)
        (silent : (host.counted.serve suspension >>= host.counted.serveAll rounds) bound before = none) :
        min (rounds + 1) bound ≤ (host.engine before).remaining limit := by
      rw [Call.bind_apply] at silent
      rcases found : host.counted.serve suspension bound before with _ | ⟨fault | next, middle⟩
      · have scarce := (prompt.serve_limits suspension).unanswered limited found
        omega
      · rw [found] at silent; cases silent
      · rw [found] at silent
        have paid := (prompt.serve_limits suspension).pays limited found
        have spent := prompt.serve_spends going limited found
        have scarce := ih paid.limited silent
        omega
    cases suspension with
    | complete => cases silent
    | awaitingInput address | producedOutput value => exact served nofun silent

/-- A drive ends within any bound that exceeds what the limit still allows. -/
theorem drive_limits : host.counted.drive.Limits host.engine Prod.snd limit := by
  have serving (rounds : Nat) : (host.counted.act (Session.resume none) >>=
      host.counted.serveAll rounds).Metered host.engine Prod.snd limit :=
    (prompt.act_limits none).toMetered.bind (prompt.serveAll_metered rounds)
  refine ⟨⟨fun limited => (serving _).pays limited, fun limited => (serving _).counts limited⟩, ?_⟩
  intro bound before limited silent
  change (host.counted.act (Session.resume none) >>= host.counted.serveAll bound) bound before = _ at silent
  rw [Call.bind_apply] at silent
  rcases found : host.counted.act (Session.resume none) bound before with _ | ⟨fault | suspension, middle⟩
  · exact (prompt.act_limits none).unanswered limited found
  · rw [found] at silent; cases silent
  · rw [found] at silent
    have paid := (prompt.act_limits none).pays limited found
    have scarce := prompt.serveAll_unanswered paid.limited silent
    have fewer := paid.remaining_le
    omega

end Prompt
end Host

theorem Exchange.prompt_host : Exchange.host.Prompt where
  session_restore _ _ := rfl
  takes := by
    intro bound ⟨session, inputs, outputs, closed⟩
    cases closed with
    | true => exact ⟨_, _, rfl, rfl⟩
    | false => cases inputs <;> exact ⟨_, _, rfl, rfl⟩
  delivers := by
    intro value bound ⟨session, inputs, outputs, closed⟩
    cases closed <;> exact ⟨_, _, rfl, rfl⟩

theorem Wired.prompt_host : Wired.host.Prompt where
  session_restore _ _ := rfl
  takes := by
    intro bound ⟨session, source, sink⟩
    rcases source with _ | ⟨_ | ⟨value, rest⟩⟩ | words <;> exact ⟨_, _, rfl, rfl⟩
  delivers := by
    intro value bound ⟨session, source, sink⟩
    rcases sink with _ | words | text <;> exact ⟨_, _, rfl, rfl⟩

namespace Host

variable {σ : Type} {host : Host σ} {limit : Int} {after : σ}

private theorem drive_answers (prompt : host.Prompt) (state : σ) {bound : Nat}
    (limited : (host.session state).machine.stepLimit = some limit)
    (enough : (host.session state).machine.remaining limit < bound) :
    ∃ outcome after, host.drive bound state = some (outcome, after) := by
  obtain ⟨outcome, after, answered⟩ :=
    @Call.Limits.answers _ _ _ _ limit _ prompt.drive_limits bound (state, 0) limited enough
  have plain := host.counted_seenAs.drive bound (state, 0)
  rw [answered] at plain
  exact ⟨outcome, after.1, plain.symm⟩

/-- However a drive ends, so many resumptions and instructions were enough. -/
theorem drive_counts (prompt : host.Prompt) (state : σ) {bound : Nat} {outcome : Except Fault Unit}
    (limited : (host.session state).machine.stepLimit = some limit)
    (answered : host.drive bound state = some (outcome, after)) :
    Pays limit (host.session state).machine (host.session after).machine ∧
    ∃ calls, host.counted.drive bound (state, 0) = some (outcome, (after, calls)) ∧
      calls ≤ (host.session state).machine.remaining limit + 1 := by
  have plain := host.counted_seenAs.drive bound (state, 0)
  rw [answered] at plain
  obtain ⟨⟨reply, left, calls⟩, found, same⟩ := Option.map_eq_some_iff.mp plain
  cases same
  have begun : (host.engine (state, 0)).stepLimit = some limit := limited
  have paid := prompt.drive_limits.pays begun found
  have counted := prompt.drive_limits.counts begun found
  refine ⟨paid, calls, found, ?_⟩
  have once : failures reply ≤ 1 := by cases reply <;> simp [failures]
  simp only [engine] at counted
  omega

end Host

private theorem Session.driven_limits {limit : Int} (inputs : List Int) : Limits limit (driven inputs) := by
  have answers {bound : Nat} {session after : Session} {outcome : Except Fault Answer}
      (answered : driven inputs bound session = some (outcome, after)) :
      ∃ reply exchange, Exchange.drive bound { session, inputs } = some (reply, exchange) ∧
        exchange.session = after := by
    obtain ⟨⟨reply, exchange⟩, found, same⟩ := Option.map_eq_some_iff.mp answered
    cases same
    exact ⟨reply, exchange, found, rfl⟩
  have paid {bound : Nat} {session after : Session} {outcome : Except Fault Answer}
      (limited : session.machine.stepLimit = some limit)
      (answered : driven inputs bound session = some (outcome, after)) :
      Pays limit session.machine after.machine := by
    obtain ⟨reply, exchange, found, rfl⟩ := answers answered
    rw [← Exchange.host_drive] at found
    exact (Host.drive_counts Exchange.prompt_host { session, inputs } limited found).1
  refine ⟨⟨paid, fun limited answered => ?_⟩, ?_⟩
  · have fewer := (paid limited answered).remaining_le
    omega
  · intro bound session limited silent
    by_contra enough
    obtain ⟨outcome, exchange, found⟩ := Host.drive_answers Exchange.prompt_host { session, inputs } limited
      (Nat.not_le.mp enough)
    rw [Exchange.host_drive] at found
    rw [driven, found] at silent
    cases silent

private theorem Session.perform_limits {limit : Int} {action : Action} (runs : action.Runs) :
    Limits limit action.perform :=
  (closed_limits limit).perform driven_limits runs

/-- A machine with a step limit ends every call that lets it run, within a bound that exceeds what
the limit still allows, and performs no more instructions than that. Each resumption that returns
has performed one. So a drive ends whatever its ports are, endless ones too, and makes at most one
resumption more than there are instructions left. -/
theorem ends_within_limit {limit : Int} {session : Session}
    (limited : session.machine.stepLimit = some limit) :
    (∀ action : Session.Action, action.Runs →
      (∀ bound, session.machine.remaining limit < bound →
        ∃ outcome after, action.perform bound session = some (outcome, after)) ∧
      ∀ outcome after, action.perform.Ends session outcome after →
        after.machine.steps ≤ session.machine.steps + session.machine.remaining limit) ∧
    (∀ value suspension after, (Session.resume value).Ends session (.ok suspension) after →
      session.machine.steps < after.machine.steps) ∧
    ∀ source sink,
      (∀ bound, session.machine.remaining limit < bound →
        ∃ outcome after, Wired.host.drive bound ⟨session, source, sink⟩ = some (outcome, after)) ∧
      ∀ outcome after, Wired.host.drive.Ends ⟨session, source, sink⟩ outcome after →
        after.session.machine.steps ≤ session.machine.steps + session.machine.remaining limit ∧
        ∃ calls, Wired.host.counted.drive.Ends (⟨session, source, sink⟩, 0) outcome (after, calls) ∧
          calls ≤ session.machine.remaining limit + 1 := by
  refine ⟨fun action runs => ⟨fun bound enough => ?_, ?_⟩, fun value suspension after ends => ?_,
    fun source sink => ⟨fun bound enough => ?_, ?_⟩⟩
  · exact (Session.perform_limits runs).answers limited enough
  · intro outcome after ⟨bound, answered⟩
    exact ((Session.perform_limits runs).pays limited answered).steps_le
  · exact Session.steps_lt_of_resume ends
  · exact Host.drive_answers Wired.prompt_host _ limited enough
  · intro outcome after ⟨bound, answered⟩
    obtain ⟨paid, calls, counted, few⟩ := Host.drive_counts Wired.prompt_host ⟨session, source, sink⟩ limited answered
    exact ⟨paid.steps_le, calls, ⟨bound, counted⟩, few⟩

/-- A program that echoes for ever, with words for ever: the limit ends it in its third echo. -/
theorem ends_within_limit_of_endless_echo : ∃ after calls,
    Wired.host.counted.drive.Ends
      (⟨.load [3, 20, 4, 20, 1105, 1, 0] false (some 7), .endless fun index => index, .printed ""⟩, 0)
      (.error (.stepLimit 7 2)) (after, calls) ∧
    after.sink = .printed "0\n1\n" ∧ after.session.machine.steps ≤ 7 ∧ calls ≤ 8 := by
  obtain ⟨after, ends, printed⟩ : ∃ after, Wired.host.drive.Ends
      ⟨.load [3, 20, 4, 20, 1105, 1, 0] false (some 7), .endless fun index => index, .printed ""⟩
      (.error (.stepLimit 7 2)) after ∧ after.sink = .printed "0\n1\n" :=
    Call.ends_of_view (fun after : Wired => after.sink) 9 (by decide +kernel)
  obtain ⟨steps, calls, counted, few⟩ := ((ends_within_limit rfl).2.2 _ _).2 _ _ ends
  exact ⟨after, calls, counted, printed, steps, few⟩

end Intcode
