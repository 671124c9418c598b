import Intcode.Proofs.Closure
import Intcode.Proofs.Quieting
import Intcode.Proofs.Serving

/-! What the trace of a machine tells. Each instruction that a call decodes is entered once, before
it is performed, with the registers of the machine that decoded it. So the entries of a call are
as many as the steps it counts, and one more if the last instruction failed. -/

namespace Intcode

namespace Machine

def entry (machine : Machine) (instruction : Instruction) : Event :=
  .fetched machine.pc machine.relativeBase instruction

/-- One machine runs on to become another, and these are the entries for the instructions that
were decoded on the way, also for those that failed. -/
inductive Decodes : Machine → List Event → Machine → Prop where
  | rest : Decodes machine [] machine
  | woken (woken : before.awake supplied = .ok start) (decodes : Decodes start entries after) :
    Decodes before entries after
  | performed (fetched : before.fetch = .ok instruction) (found : instruction.effect before = .ok effect)
    (decodes : Decodes (before.perform instruction.size effect) entries after) :
    Decodes before (before.entry instruction :: entries) after
  | failed (fetched : before.fetch = .ok instruction) (failed : instruction.effect before = .error fault)
    (decodes : Decodes before entries after) : Decodes before (before.entry instruction :: entries) after

/-- The machine stands at an instruction that was decoded and then failed. -/
structure Broken (machine : Machine) (fault : Fault) : Prop where
  running : machine.suspension = none
  failed : ∃ instruction, machine.fetch = .ok instruction ∧ instruction.effect machine = .error fault

theorem Decodes.trans {before middle after : Machine} {entries more : List Event}
    (decodes : Decodes before entries middle) (rest : Decodes middle more after) :
    Decodes before (entries ++ more) after := by
  induction decodes with
  | rest => exact rest
  | woken woken _ ih => exact .woken woken (ih rest)
  | performed fetched found _ ih => exact .performed fetched found (ih rest)
  | failed fetched failed _ ih => exact .failed fetched failed (ih rest)

theorem Broken.causeKind {machine : Machine} {fault : Fault} (broken : machine.Broken fault) :
    fault.causeKind = .addressing := by
  obtain ⟨instruction, fetched, failed⟩ := broken.failed
  exact (Instruction.decode_eq_ok_iff.mp (decode_of_fetch fetched)).effect_fails failed

end Machine

/-- The number of steps that a halt was reported after. -/
def Event.halted? : Event → Option Nat
  | halted steps => some steps
  | _ => none

def Outcome.raised? {ε α : Type} : Except ε α → Option ε
  | .error error => some error
  | .ok _ => none

private theorem Outcome.raised?_map {ε α β : Type} (f : α → β) (outcome : Except ε α) :
    raised? (outcome.map f) = raised? outcome := by
  cases outcome <;> rfl

namespace Session

def trail (session : Session) : List Event :=
  session.picked fun event => if event.isTrace then some event else none

/-- A call that raised this stopped at an instruction that was decoded and failed for it. -/
def Breaks (raised : Option Fault) (after : Session) : Prop :=
  ∃ fault, raised = some fault ∧ after.machine.Broken fault

/-- What a call that raised this, or nothing, entered into the trace. -/
structure Logged (before : Session) (raised : Option Fault) (entries : List Event) (after : Session) : Prop where
  tracing : after.machine.trace = true
  trail : after.trail = before.trail ++ entries
  decodes : before.machine.Decodes entries after.machine
  counts : ¬ Breaks raised after → before.machine.steps + entries.length = after.machine.steps
  exceeds : Breaks raised after → before.machine.steps + entries.length = after.machine.steps + 1

variable {before middle after : Session} {raised : Option Fault} {entries more : List Event}

theorem not_breaks_none : ¬ Breaks none after := fun ⟨_, impossible, _⟩ => nomatch impossible

theorem not_breaks_of_kind {fault : Fault} (other : fault.causeKind ≠ .addressing) : ¬ Breaks (some fault) after := by
  rintro ⟨_, same, broken⟩
  cases same
  exact other broken.causeKind

theorem Logged.still (tracing : before.machine.trace = true) (unbroken : ¬ Breaks raised before) :
    Logged before raised [] before where
  tracing := tracing
  trail := (List.append_nil _).symm
  decodes := .rest
  counts _ := rfl
  exceeds broken := (unbroken broken).elim

theorem Logged.trans (first : Logged before none entries middle) (rest : Logged middle raised more after) :
    Logged before raised (entries ++ more) after where
  tracing := rest.tracing
  trail := by rw [rest.trail, first.trail, List.append_assoc]
  decodes := first.decodes.trans rest.decodes
  counts unbroken := by
    have early := first.counts not_breaks_none
    have late := rest.counts unbroken
    rw [List.length_append]
    omega
  exceeds broken := by
    have early := first.counts not_breaks_none
    have late := rest.exceeds broken
    rw [List.length_append]
    omega

/-- Whatever the call ends with, the trace tells which instructions it decoded. -/
def Logs {α : Type} (call : Call Session α) : Prop :=
  ∀ ⦃before outcome after⦄, before.machine.trace = true → call.Ends before outcome after →
    ∃ entries, Logged before (Outcome.raised? outcome) entries after

namespace Logs

variable {α β : Type} {call : Call Session α}

theorem pure (value : α) : Logs (pure value) := by
  intro before outcome after tracing ends
  obtain ⟨rfl, rfl⟩ := Call.ends_pure.mp ends
  exact ⟨[], .still tracing not_breaks_none⟩

theorem throw {fault : Fault} (other : fault.causeKind ≠ .addressing) : Logs (throw fault : Call Session α) := by
  intro before outcome after tracing ends
  obtain ⟨rfl, rfl⟩ := Call.ends_throw.mp ends
  exact ⟨[], .still tracing (not_breaks_of_kind other)⟩

theorem bind {next : α → Call Session β} (first : Logs call) (rest : ∀ value, Logs (next value)) :
    Logs (call >>= next) := by
  intro before outcome after tracing ends
  rcases ends.of_bind with ⟨fault, rfl, failed⟩ | ⟨value, middle, went, ends⟩
  · exact first tracing failed
  · obtain ⟨entries, logged⟩ := first tracing went
    obtain ⟨more, later⟩ := rest value logged.tracing ends
    exact ⟨entries ++ more, logged.trans later⟩

theorem get_bind {next : Session → Call Session α} (rest : ∀ session, Logs (next session)) : Logs (get >>= next) :=
  fun _ _ _ tracing ends => rest _ tracing (Call.ends_get_bind.mp ends)

end Logs

@[simp]
theorem trail_withMachine (session : Session) (machine : Machine) :
    (session.withMachine machine).trail = session.trail := rfl

private theorem trail_noteEffect (session : Session) (effect : Effect) :
    (session.noteEffect effect).trail = session.trail :=
  picked_noteEffect (fun _ => rfl) (fun _ => rfl) session effect

private theorem trail_received (session : Session) (value : Option Int) :
    (session.received value).trail = session.trail := picked_received (fun _ => rfl) session value

private theorem trail_traced (instruction : Instruction) (tracing : before.machine.trace = true) :
    (before.traced instruction).trail = before.trail ++ [before.machine.entry instruction] := by
  rw [traced, if_pos tracing]
  exact picked_note before _

theorem traced_machine (session : Session) (instruction : Instruction) :
    (session.traced instruction).machine = session.machine := by
  unfold traced
  split <;> rfl

private theorem round_logged {reply : Except Fault (Option Suspension)} (tracing : before.machine.trace = true)
    (running : before.machine.suspension = none) (went : round before = (reply, after)) :
    ∃ entries, Logged before (Outcome.raised? reply) entries after := by
  rw [round_eq] at went
  cases fetched : before.machine.fetch with
  | error fault =>
    rw [fetched] at went
    cases went
    refine ⟨[], .still tracing ?_⟩
    rintro ⟨_, _, broken⟩
    obtain ⟨instruction, decoded, _⟩ := broken.failed
    rw [fetched] at decoded
    cases decoded
  | ok instruction =>
    cases found : instruction.effect before.machine with
    | error fault =>
      simp only [fetched, found] at went
      cases went
      have same := traced_machine before instruction
      refine ⟨[before.machine.entry instruction], ?_⟩
      have breaks : Breaks (some fault) (before.traced instruction) := by
        refine ⟨fault, rfl, ?_⟩
        rw [same]
        exact ⟨running, instruction, fetched, found⟩
      constructor
      · rw [same]
        exact tracing
      · exact trail_traced instruction tracing
      · rw [same]
        exact .failed fetched found .rest
      · exact fun unbroken => (unbroken breaks).elim
      · rw [same]
        exact fun _ => rfl
    | ok effect =>
      simp only [fetched, found] at went
      cases went
      refine ⟨[before.machine.entry instruction], ?_, ?_, .performed fetched found .rest, ?_, ?_⟩
      · exact (Machine.apply_trace before.machine effect).trans tracing
      · rw [trail_withMachine, trail_noteEffect, trail_traced instruction tracing]
      · exact fun _ => rfl
      · exact fun broken => (not_breaks_none broken).elim

private theorem passes_logged {count : Nat} (passes : Round.Passes round count before after)
    (tracing : before.machine.trace = true) (running : before.machine.suspension = none) :
    after.machine.suspension = none ∧ ∃ entries, Logged before none entries after := by
  induction passes with
  | rest => exact ⟨running, [], .still tracing not_breaks_none⟩
  | next went _ ih =>
    obtain ⟨entries, first⟩ := round_logged tracing running went
    obtain ⟨still, more, later⟩ := ih first.tracing (round_emits running went).1
    exact ⟨still, entries ++ more, first.trans later⟩

/-- A resumption enters the instructions that it decodes. A machine that was refused decoded none. -/
theorem resume_logs (value : Option Int) : Logs (resume value) := by
  intro before outcome after tracing ends
  rcases ends_resume.mp ends with ⟨fault, refused, rfl, rfl⟩ | ⟨start, woken, ran⟩
  · refine ⟨[], .still tracing ?_⟩
    -- A machine that stands at a failed instruction is running, and that is never refused.
    rintro ⟨_, _, broken⟩
    rw [Machine.awake_of_running broken.running] at refused
    cases refused
  · have trace : start.trace = true := by
      obtain ⟨memory, rfl, _⟩ := Machine.awake_eq_ok woken
      exact tracing
    have begun : Logged before none [] ((before.received value).withMachine start) :=
      ⟨trace, by simp [trail_received], .woken woken .rest, fun _ => (Machine.awake_steps woken).symm,
        fun broken => (not_breaks_none broken).elim⟩
    obtain ⟨count, last, passes, closes⟩ := Round.ends_iff.mp ran
    obtain ⟨still, entries, through⟩ := passes_logged passes trace (Machine.awake_suspension woken)
    obtain ⟨more, final⟩ := round_logged through.tracing still closes
    rw [Outcome.raised?_map] at final
    exact ⟨_, begun.trans (through.trans final)⟩

theorem closed_logs : Closed fun _ call => Logs call where
  pure := .pure
  throw := fun protocol => .throw (by rw [protocol]; exact nofun)
  look := .get_bind
  bind := .bind
  resume := resume_logs

theorem Served.logged {inputs left outputs : List Int} {outcome : Except Fault Unit}
    (served : Served before inputs outcome left outputs after) (tracing : before.machine.trace = true) :
    ∃ entries, Logged before (Outcome.raised? outcome) entries after := by
  induction served with
  | halted stopped => exact ⟨[], .still tracing not_breaks_none⟩
  | drained asks => exact ⟨[], .still tracing (not_breaks_of_kind nofun)⟩
  | inputFails _ fails | outputFails _ fails => exact resume_logs _ tracing fails
  | input _ ends _ ih | output _ ends _ ih =>
    obtain ⟨entries, first⟩ := resume_logs _ tracing ends
    obtain ⟨more, rest⟩ := ih first.tracing
    exact ⟨entries ++ more, first.trans rest⟩

/-- What an action raised. A drive that fails is answered with what it raised. -/
def Action.raised? : Except Fault Answer → Option Fault
  | .error fault | .ok (.drove (.error fault) _) => some fault
  | .ok _ => none

private theorem driven_logged {inputs : List Int} {outcome : Except Fault Answer}
    (tracing : before.machine.trace = true) (ends : (driven inputs).Ends before outcome after) :
    ∃ entries, Logged before (Action.raised? outcome) entries after := by
  obtain ⟨bound, answered⟩ := ends
  obtain ⟨⟨reply, exchange⟩, found, same⟩ := Option.map_eq_some_iff.mp answered
  cases same
  have raised : Action.raised? (.ok (.drove reply exchange.outputs.toList)) = Outcome.raised? reply := by
    cases reply <;> rfl
  rw [raised]
  rcases (Exchange.ends_drive_iff_served rfl).mp ⟨bound, found⟩ with ⟨fault, session, rfl, fails, rfl⟩ |
    ⟨suspension, middle, left, outputs, session, resumed, served, rfl⟩
  · exact resume_logs none tracing fails
  · obtain ⟨entries, first⟩ := resume_logs none tracing resumed
    obtain ⟨more, rest⟩ := served.logged first.tracing
    exact ⟨entries ++ more, first.trans rest⟩

theorem Logs.answered {α : Type} {call : Call Session α} (logs : Logs call) {answer : α → Answer}
    (plain : ∀ value, Action.raised? (.ok (answer value)) = none) {outcome : Except Fault Answer}
    (tracing : before.machine.trace = true) (ends : (answer <$> call).Ends before outcome after) :
    ∃ entries, Logged before (Action.raised? outcome) entries after := by
  obtain ⟨bound, answered⟩ := ends
  rw [Call.map_apply] at answered
  obtain ⟨⟨reply, left⟩, found, same⟩ := Option.map_eq_some_iff.mp answered
  cases same
  have logged := logs tracing ⟨bound, found⟩
  cases reply with
  | error fault => exact logged
  | ok value =>
    rw [Outcome.map_ok, plain]
    exact logged

private theorem perform_logged {action : Action} (runs : action.Runs) {outcome : Except Fault Answer}
    (tracing : before.machine.trace = true) (ends : action.perform.Ends before outcome after) :
    ∃ entries, Logged before (Action.raised? outcome) entries after := by
  cases action with
  | access what => exact (runs what rfl).elim
  | resume value => exact (resume_logs value).answered (fun _ => rfl) tracing ends
  | step value => exact (closed_logs.step value).answered (fun _ => rfl) tracing ends
  | stepRead count => exact Logs.answered (closed_logs.stepRead count) (fun _ => rfl) tracing ends
  | stepN values count => exact (closed_logs.stepN values count).answered (fun _ => rfl) tracing ends
  | waitForInput => exact Logs.answered closed_logs.waitForInput (fun _ => rfl) tracing ends
  | drive inputs => exact driven_logged tracing ends

/-- What an access does to a session, unless it performs an instruction: it may change the memory,
the registers or the limit. -/
theorem access_cases {what : Access} {outcome : Except Fault Answer}
    (ends : what.perform.Ends before outcome after) :
    (∃ machine, after = before.withMachine machine ∧ machine.suspension = before.machine.suspension ∧
      machine.steps = before.machine.steps ∧ machine.trace = before.machine.trace) ∨
    ∃ instruction effect, what = .execute instruction ∧ after = before.apply effect := by
  obtain ⟨bound, answered⟩ := ends
  cases what with
  | dump | setPc | setBase | setLimit =>
    cases answered
    exact .inl ⟨_, rfl, rfl, rfl, rfl⟩
  | read address =>
    simp only [Access.perform, Call.bind_apply, Call.get_apply, Call.ofExcept] at answered
    cases found : before.machine.memory.read address <;> rw [found] at answered <;> cases answered <;>
      exact .inl ⟨before.machine, rfl, rfl, rfl, rfl⟩
  | store address value =>
    rw [Access.perform, Call.map_apply, store_apply] at answered
    cases found : before.machine.memory.write address value with
    | error fault =>
      rw [found] at answered
      cases answered
      exact .inl ⟨before.machine, rfl, rfl, rfl, rfl⟩
    | ok memory =>
      rw [found] at answered
      cases answered
      exact .inl ⟨_, rfl, rfl, rfl, rfl⟩
  | execute instruction =>
    simp only [Access.perform, execute] at answered
    cases found : instruction.effect before.machine with
    | error fault =>
      rw [found] at answered
      cases answered
      exact .inl ⟨before.machine, rfl, rfl, rfl, rfl⟩
    | ok effect =>
      rw [found] at answered
      cases answered
      exact .inr ⟨instruction, effect, rfl, rfl⟩

private theorem access_unlogged {what : Access} {outcome : Except Fault Answer}
    (ends : what.perform.Ends before outcome after) : after.trail = before.trail ∧
      after.machine.steps = before.machine.steps ∧ after.machine.trace = before.machine.trace := by
  rcases access_cases ends with ⟨machine, rfl, _, steps, trace⟩ | ⟨_, effect, _, rfl⟩
  · exact ⟨rfl, steps, trace⟩
  · have noted := trail_noteEffect before effect
    exact ⟨noted, by cases effect <;> rfl, Machine.apply_trace before.machine effect⟩

private theorem history_tracing {actions : List Action} {observations : List Observation}
    (history : History before actions observations after) (tracing : before.machine.trace = true) :
    after.machine.trace = true := by
  refine history.preserves (fun session => session.machine.trace = true) ?_ tracing
  intro action _ session outcome left tracing ends
  by_cases runs : action.Runs
  · obtain ⟨_, logged⟩ := perform_logged runs tracing ends
    exact logged.tracing
  · cases action with
    | access what => exact (access_unlogged ends).2.2.trans tracing
    | _ => exact (runs nofun).elim

def halts (session : Session) : List Nat := session.picked Event.halted?

/-- The halt was reported once if the machine has halted, with all the steps that it counts. -/
def HaltTold (session : Session) : Prop :=
  session.halts = if session.machine.suspension = some .complete then [session.machine.steps] else []

private theorem halts_noteEffect (session : Session) (effect : Effect) : (session.noteEffect effect).halts =
    session.halts ++ if effect = .halt then [session.machine.steps + 1] else [] := by
  cases effect with
  | emit | halt => exact picked_note session _
  | _ => exact (List.append_nil _).symm

theorem round_told {reply : Except Fault (Option Suspension)} (running : before.machine.suspension = none)
    (told : before.halts = []) (went : round before = (reply, after)) : HaltTold after := by
  have silent (instruction : Instruction) : (before.traced instruction).halts = [] :=
    (picked_traced (fun _ _ _ => rfl) before instruction).trans told
  rw [round_eq] at went
  cases fetched : before.machine.fetch with
  | error fault =>
    rw [fetched] at went
    cases went
    simp [HaltTold, running, told]
  | ok instruction =>
    cases found : instruction.effect before.machine with
    | error fault =>
      simp only [fetched, found] at went
      cases went
      simp [HaltTold, traced_machine, running, silent]
    | ok effect =>
      simp only [fetched, found] at went
      cases went
      have noted := halts_noteEffect (before.traced instruction) effect
      rw [silent, traced_machine] at noted
      refine noted.trans ?_
      cases effect <;> simp [withMachine, Machine.perform, Machine.apply, running]

private theorem resume_told {value : Option Int} {outcome : Except Fault Suspension} (told : HaltTold before)
    (ends : (resume value).Ends before outcome after) : HaltTold after := by
  rcases ends_resume.mp ends with ⟨fault, _, rfl, rfl⟩ | ⟨start, woken, ran⟩
  · exact told
  · have begun : before.halts = [] := by
      have going : before.machine.suspension ≠ some .complete := by
        intro halted
        simp only [Machine.awake, halted] at woken
        cases woken
      exact told.trans (if_neg going)
    obtain ⟨count, last, passes, closes⟩ := Round.ends_iff.mp ran
    have kept {session next : Session} (holds : session.machine.suspension = none ∧ session.halts = [])
        (went : round session = (.ok none, next)) : next.machine.suspension = none ∧ next.halts = [] := by
      have still := (round_emits holds.1 went).1
      have told := round_told holds.1 holds.2 went
      rw [HaltTold, still] at told
      exact ⟨still, told⟩
    have waking := (picked_received (fun _ => rfl) before value).trans begun
    obtain ⟨still, silent⟩ := passes.preserves kept ⟨Machine.awake_suspension woken, waking⟩
    exact round_told still silent closes

/-- Unless the host performs a halt by hand, every halt is told. -/
theorem history_told {actions : List Action} {observations : List Observation}
    (history : History before actions observations after)
    (given : ∀ instruction, .access (.execute instruction) ∉ actions) (told : HaltTold before) :
    HaltTold after := by
  refine history.preserves HaltTold ?_ told
  intro action member session outcome left told ends
  by_cases runs : action.Runs
  · exact runs.preserves resume_told told ends
  · cases action with
    | access what =>
      rcases access_cases ends with ⟨machine, rfl, stopped, steps, _⟩ | ⟨instruction, _, rfl, _⟩
      · change session.halts = if machine.suspension = some .complete then [machine.steps] else []
        rw [stopped, steps]
        exact told
      · exact (given instruction member).elim
    | _ => exact (runs nofun).elim

/-- Whatever is done with a program, tracing it makes no difference but for the trace. The entries of
one call are the instructions that it decoded, in order, each with the registers of the machine that
was about to perform it. They are as many as the steps that the call counts, and one more exactly
if it raised what the last of them failed with. The halt is told once, with the steps at the end. -/
theorem trace_tells_every_step (words : List Int) (limit : Option Int) :
    (∀ actions observations quiet, History (load words false limit) actions observations quiet ↔
      ∃ loud, History (load words true limit) actions observations loud ∧ quiet = loud.quiet ∧
        quiet.lines = (loud.journal.toList.filter (!·.isTrace)).filterMap Event.line?) ∧
    (∀ actions observations session, History (load words true limit) actions observations session →
      ∀ (action : Action) outcome after, action.perform.Ends session outcome after →
        ∃ entries, after.trail = session.trail ++ entries ∧
          (action.Runs → session.machine.Decodes entries after.machine) ∧
          (¬ action.Runs → entries = []) ∧
          (¬ (action.Runs ∧ Breaks (Action.raised? outcome) after) →
            session.machine.steps + entries.length = after.machine.steps) ∧
          (action.Runs ∧ Breaks (Action.raised? outcome) after →
            session.machine.steps + entries.length = after.machine.steps + 1)) ∧
    ∀ trace actions observations after, History (load words trace limit) actions observations after →
      (∀ instruction, .access (.execute instruction) ∉ actions) →
      after.halts = if after.machine.suspension = some .complete then [after.machine.steps] else [] := by
  refine ⟨fun actions observations quiet => ?_, fun actions observations session history => ?_,
    fun trace actions observations after history given => history_told history given rfl⟩
  · have same : load words false limit = (load words true limit).quiet := rfl
    rw [same, history_quiet_iff]
    constructor
    · rintro ⟨loud, history, rfl⟩
      exact ⟨loud, history, rfl, loud.lines_quiet⟩
    · rintro ⟨loud, history, silent, _⟩
      exact ⟨loud, history, silent⟩
  · intro action outcome after ends
    have tracing := history_tracing history rfl
    by_cases runs : action.Runs
    · obtain ⟨entries, logged⟩ := perform_logged runs tracing ends
      exact ⟨entries, logged.trail, fun _ => logged.decodes, fun rests => (rests runs).elim,
        fun unbroken => logged.counts fun breaks => unbroken ⟨runs, breaks⟩, fun broken => logged.exceeds broken.2⟩
    · cases action with
      | access what =>
        obtain ⟨same, steps, _⟩ := access_unlogged ends
        refine ⟨[], ?_, fun impossible => (runs impossible).elim, fun _ => rfl, fun _ => steps.symm,
          fun broken => (runs broken.1).elim⟩
        rw [same, List.append_nil]
      | _ => exact (runs nofun).elim

/-- The last addition writes to no cell until the host mends it. -/
theorem trace_tells_every_step_of_mended : ∃ session after observations entries final,
    History (load [3, 9, 1101, 1, 1, -1, 99] true none) [.resume none] observations session ∧
    (resume (some 5)).Ends session (.error (.negativeAddress (-1))) after ∧
    after.trail = session.trail ++ entries ∧ entries.length = 1 ∧ session.machine.Decodes entries after.machine ∧
    (∃ observations, History (load [3, 9, 1101, 1, 1, -1, 99] true none)
      [.resume none, .resume (some 5), .access (.store 5 8), .resume none] observations final) ∧
    final.halts = [3] := by
  have asks : History (load [3, 9, 1101, 1, 1, -1, 99] true none) [.resume none] _ _ := .next ⟨9, rfl⟩ .start
  have mended : History (load [3, 9, 1101, 1, 1, -1, 99] true none)
      [.resume none, .resume (some 5), .access (.store 5 8), .resume none] _ _ :=
    .next ⟨9, rfl⟩ (.next ⟨9, rfl⟩ (.next ⟨9, rfl⟩ (.next ⟨9, rfl⟩ .start)))
  obtain ⟨-, logged, told⟩ := trace_tells_every_step [3, 9, 1101, 1, 1, -1, 99] none
  obtain ⟨entries, trail, decodes, -, -, exceeds⟩ := logged _ _ _ asks (.resume (some 5)) _ _ ⟨9, rfl⟩
  have exceeded : 1 + entries.length = 1 + 1 := exceeds ⟨nofun, _, rfl, rfl, _, rfl, rfl⟩
  have halted := told true _ _ _ mended (by simp)
  exact ⟨_, _, _, entries, _, asks, ⟨9, rfl⟩, trail, by omega, decodes nofun, ⟨_, mended⟩, halted.trans rfl⟩

end Session
end Intcode
