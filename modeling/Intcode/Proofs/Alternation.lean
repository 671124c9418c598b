import Mathlib.Data.List.Basic
import Intcode.Proofs.Dropping
import Intcode.Proofs.HostViews
import Intcode.Proofs.OpenLoop
import Intcode.Proofs.Protocol

/-! Stepping a machine through its inputs, one call for each, set against driving it on all of
them. The calls succeed, and answer with the words that the drive delivers, where the drive takes
and delivers words in turn. -/

namespace Intcode

open Session (Resumed)

/-- A word that a host and its machine pass to each other. -/
inductive Passed where
  | took (word : Int)
  | gave (word : Int)
deriving DecidableEq, Repr

/-- Every word taken is followed by exactly one word given. -/
inductive Alternates : List Passed → Prop where
  | none : Alternates []
  | pair (rest : Alternates passed) : Alternates (.took word :: .gave answer :: passed)

def Passed.taken? : Passed → Option Int
  | took word => some word
  | gave _ => none

def Passed.given? : Passed → Option Int
  | took _ => none
  | gave word => some word

/-- The host together with the words that passed, in order. -/
def Host.recorded {σ : Type} (host : Host σ) : Host (σ × List Passed) where
  session state := host.session state.1
  restore session state := (host.restore session state.1, state.2)
  take := do
    let word ← Call.onPart Prod.fst (fun inner state => (inner, state.2)) host.take
    modify fun state => (state.1, state.2 ++ [.took word])
    return word
  deliver word := do
    Call.onPart Prod.fst (fun inner state => (inner, state.2)) (host.deliver word)
    modify fun state => (state.1, state.2 ++ [.gave word])

/-- Keeping a record makes no difference to a host. -/
theorem Host.recorded_seenAs {σ : Type} (host : Host σ) : host.recorded.SeenAs Prod.fst host where
  session _ := rfl
  restore _ _ := rfl
  take := by
    have noted (word : Int) : (do
        modify fun state => (state.1, state.2 ++ [.took word])
        return word : Call (σ × List Passed) Int).SeenAs Prod.fst (pure word) := fun _ _ => rfl
    have went := (port_seenAs host.take).bind noted
    rwa [bind_pure] at went
  deliver word := by
    have noted : (modify fun state => (state.1, state.2 ++ [.gave word]) :
        Call (σ × List Passed) Unit).SeenAs Prod.fst (pure ()) := fun _ _ => rfl
    have went := (port_seenAs (host.deliver word)).bind fun _ => noted
    rwa [bind_pure] at went

namespace Session

/-- A suspended session is resumed until it halts, and these words pass meanwhile. -/
inductive Dialogue : Session → List Passed → Session → Prop where
  | halted (stopped : session.machine.suspension = some .complete) : Dialogue session [] session
  | took (asks : before.Awaits)
    (ends : (resume (some word)).Ends before (.ok suspension) middle)
    (dialogue : Dialogue middle passed after) : Dialogue before (.took word :: passed) after
  | gave (emits : before.machine.suspension = some (.producedOutput word))
    (ends : (resume none).Ends before (.ok suspension) middle)
    (dialogue : Dialogue middle passed after) : Dialogue before (.gave word :: passed) after

structure StepCall where
  value : Int
  given : Option Int
  done : Bool
  before : Session
  after : Session

/-- Calls of `step` that succeeded one after the other. -/
inductive StepCalls : Session → List StepCall → Session → Prop where
  | none : StepCalls session [] session
  | next (ends : (step value).Ends before (.ok (given, done)) middle)
    (calls : StepCalls middle rest after) :
    StepCalls before (⟨value, given, done, before, middle⟩ :: rest) after

/-- The call met a machine that awaited its word, consumed that word and no other, and left a
machine that awaits the next word or has halted, as it answered. -/
structure StepCall.Proper (call : StepCall) : Prop where
  awaits : call.before.Awaits
  stands : if call.done then call.after.machine.suspension = some .complete else call.after.Awaits
  took : Resumed call.before [call.value] call.given.toList call.after
  keeps : call.after.lost = call.before.lost
  silent : call.given = none → call.done = true

variable {before middle after : Session} {value : Int} {given : Option Int} {done : Bool}

theorem Stepped.resumed (stepped : Stepped before value given done after) (waits : before.Awaits) :
    Resumed before [value] given.toList after := by
  obtain ⟨address, asks⟩ := waits
  cases stepped with
  | silent halts => exact .of_fed asks halts
  | halted emits ends | asking emits ends =>
    have went := (Resumed.of_fed asks emits).trans (.of_none ends)
    rw [List.append_nil] at went
    exact went

theorem Stepped.ends (stepped : Stepped before value given done after) :
    (step value).Ends before (.ok (given, done)) after := by
  cases stepped with
  | silent halts =>
    obtain ⟨bound, fed⟩ := halts
    refine ⟨bound, ?_⟩
    rw [step, Call.bind_apply, fed]
    rfl
  | halted emits ends | asking emits ends =>
    obtain ⟨bound, fed⟩ := emits
    obtain ⟨bound', unfed⟩ := ends
    refine ⟨max bound bound', ?_⟩
    rw [step, Call.bind_apply, steady_resume _ (Nat.le_max_left bound bound') fed]
    simp only [Call.bind_apply, steady_resume _ (Nat.le_max_right bound bound') unfed]
    rfl

theorem Stepped.proper (stepped : Stepped before value given done after) (waits : before.Awaits) :
    StepCall.Proper ⟨value, given, done, before, after⟩ where
  awaits := waits
  stands := by
    rcases stepped.rests with ⟨rfl, halted⟩ | ⟨rfl, awaits, _⟩
    · exact halted
    · exact awaits
  took := stepped.resumed waits
  keeps := (stepped.resumed waits).lost_eq
  silent absent := by
    rcases stepped.rests with ⟨halted, _⟩ | ⟨_, _, present⟩
    · exact halted
    · exact (present absent).elim

/-- The words that the calls supplied. -/
def supplied (calls : List StepCall) : List Int := calls.map (·.value)

def answered (calls : List StepCall) : List Int := calls.filterMap (·.given)

private theorem answered_cons (call : StepCall) (rest : List StepCall) :
    answered (call :: rest) = call.given.toList ++ answered rest := by
  unfold answered
  cases given : call.given <;> simp [given]

/-- Each call leaves a machine that the next one can step, as long as none halts it before. -/
theorem StepCalls.proper {calls : List StepCall} (went : StepCalls before calls after)
    (waits : before.Awaits) (going : ∀ call ∈ calls.dropLast, call.done = false) :
    (∀ call ∈ calls, call.Proper) ∧ Resumed before (supplied calls) (answered calls) after := by
  induction went with
  | none => exact ⟨by simp, .rest⟩
  | @next value before given done middle rest after ends calls ih =>
    have proper := (stepped ends).proper waits
    rw [answered_cons]
    cases rest with
    | nil =>
      cases calls
      refine ⟨by simpa using proper, ?_⟩
      simpa [supplied, answered] using proper.took
    | cons second more =>
      rw [List.dropLast_cons_cons] at going
      obtain ⟨first, later⟩ := List.forall_mem_cons.mp going
      have awaits := proper.stands
      simp only [show done = false from first] at awaits
      obtain ⟨each, resumed⟩ := ih awaits later
      exact ⟨List.forall_mem_cons.mpr ⟨proper, each⟩, proper.took.trans resumed⟩

theorem StepCalls.last {calls : List StepCall} (went : StepCalls before calls after) {last : StepCall}
    (closing : calls.getLast? = some last) : last.after = after := by
  induction went with
  | none => cases closing
  | next ends went ih =>
    cases went with
    | none =>
      cases closing
      rfl
    | next ends' went =>
      rw [List.getLast?_cons_cons] at closing
      exact ih closing

theorem Dialogue.rests {passed : List Passed} (dialogue : Dialogue before passed after)
    (alternates : Alternates passed) :
    (passed = [] ∧ before.machine.suspension = some .complete) ∨ passed ≠ [] ∧ before.Awaits := by
  cases alternates with
  | none =>
    cases dialogue with
    | halted stopped => exact .inl ⟨rfl, stopped⟩
  | pair rest =>
    cases dialogue with
    | took asks ends dialogue => exact .inr ⟨nofun, asks⟩

/-- A word taken and the word given for it are one step. -/
theorem Dialogue.stepped {passed : List Passed} {word answer : Int} (alternates : Alternates passed)
    (dialogue : Dialogue before (.took word :: .gave answer :: passed) after) :
    ∃ middle, Dialogue middle passed after ∧ Stepped before word (some answer) passed.isEmpty middle := by
  cases dialogue with
  | took asks fed dialogue =>
    cases dialogue with
    | gave emits unfed dialogue =>
      have stopped := (resume_emits fed).1
      rw [emits] at stopped
      cases stopped
      have stands := (resume_emits unfed).1
      refine ⟨_, dialogue, ?_⟩
      rcases dialogue.rests alternates with ⟨rfl, halts⟩ | ⟨more, address, waits⟩
      · rw [halts] at stands
        cases stands
        exact .halted fed unfed
      · rw [waits] at stands
        cases stands
        rw [List.isEmpty_eq_false_iff.mpr more]
        exact .asking fed unfed

/-- A dialogue that alternates is a sequence of steps, and only the last can halt the machine. -/
theorem Dialogue.calls {passed : List Passed} (dialogue : Dialogue before passed after)
    (alternates : Alternates passed) :
    ∃ calls, StepCalls before calls after ∧ supplied calls = passed.filterMap Passed.taken? ∧
      calls.map (·.given) = (passed.filterMap Passed.given?).map some ∧
      ∀ call ∈ calls.dropLast, call.done = false := by
  induction alternates generalizing before with
  | none =>
    cases dialogue with
    | halted stopped => exact ⟨[], .none, rfl, rfl, by simp⟩
  | @pair passed word answer rest ih =>
    obtain ⟨middle, dialogue, stepped⟩ := dialogue.stepped rest
    obtain ⟨calls, went, taken, given, going⟩ := ih dialogue
    refine ⟨_, .next stepped.ends went, ?_, ?_, ?_⟩
    · simpa [supplied, Passed.taken?, List.filterMap_cons] using taken
    · simpa [Passed.given?, List.filterMap_cons] using given
    · cases rest with
      | none =>
        have nothing : calls = [] := List.map_eq_nil_iff.mp taken
        simp [nothing]
      | pair rest =>
        cases went with
        | none => cases taken
        | next ends went =>
          rw [List.dropLast_cons_cons]
          exact List.forall_mem_cons.mpr ⟨rfl, going⟩

end Session

namespace Exchange

open Session (Dialogue)

variable {start after : Exchange × List Passed} {next : Suspension}

private theorem recorded_take {bound : Nat} {word : Int} (opened : start.1.closed = false)
    (took : host.recorded.take bound start = some (.ok word, after)) :
    ∃ rest, start.1.inputs = word :: rest ∧
      after = ({ start.1 with inputs := rest }, start.2 ++ [.took word]) := by
  obtain ⟨⟨session, inputs, outputs, closed⟩, record⟩ := start
  cases opened
  cases inputs with
  | nil => cases took
  | cons word rest =>
    cases took
    exact ⟨rest, rfl, rfl⟩

private theorem recorded_deliver {bound : Nat} {word : Int} (opened : start.1.closed = false) {done : Unit}
    (gave : host.recorded.deliver word bound start = some (.ok done, after)) :
    after = ({ start.1 with outputs := start.1.outputs.push word }, start.2 ++ [.gave word]) := by
  obtain ⟨⟨session, inputs, outputs, closed⟩, record⟩ := start
  cases opened
  cases gave
  rfl

private theorem ends_drive_of_recorded {exchange : Exchange} {outcome : Except Fault Unit}
    (ends : host.recorded.drive.Ends (exchange, []) outcome after) : drive.Ends exchange outcome after.1 := by
  rw [← host_drive]
  exact host.recorded_seenAs.drive.ends_iff.mpr ⟨after, ends, rfl⟩

/-- What is recorded of a service that halts is the dialogue of its session. -/
theorem dialogue_of_recorded {rounds : Nat} {suspension : Suspension}
    (ends : (host.recorded.serveAll rounds suspension).Ends start (.ok ()) after)
    (opened : start.1.closed = false) (stopped : start.1.session.machine.suspension = some suspension) :
    ∃ passed, Dialogue start.1.session passed after.1.session ∧ after.2 = start.2 ++ passed ∧
      start.1.inputs = passed.filterMap Passed.taken? ++ after.1.inputs ∧
      after.1.outputs.toList = start.1.outputs.toList ++ passed.filterMap Passed.given? := by
  -- A round passes one word, which stands before all that the rounds after it pass.
  induction rounds generalizing start suspension with
  | zero =>
    cases suspension with
    | complete =>
      obtain ⟨_, rfl⟩ := Call.ends_pure.mp ends
      exact ⟨[], .halted stopped, by simp, by simp, by simp⟩
    | awaitingInput address | producedOutput word =>
      obtain ⟨bound, impossible⟩ := ends
      cases impossible
  | succ rounds ih =>
    cases suspension with
    | complete =>
      obtain ⟨_, rfl⟩ := Call.ends_pure.mp ends
      exact ⟨[], .halted stopped, by simp, by simp, by simp⟩
    | awaitingInput address =>
      obtain ⟨next, middle, served, ends⟩ := ends.of_bind_ok
      obtain ⟨word, between, ⟨bound, took⟩, acted⟩ := served.of_bind_ok
      obtain ⟨rest, supply, rfl⟩ := recorded_take opened took
      obtain ⟨session, resumed, rfl⟩ := Call.ends_onPart.mp acted
      obtain ⟨passed, dialogue, record, inputs, outputs⟩ := ih ends opened (Session.resume_emits resumed).1
      refine ⟨.took word :: passed, .took ⟨address, stopped⟩ resumed dialogue, ?_, ?_, ?_⟩
      · rw [record]
        simp [Host.recorded]
      · rw [supply]
        simpa [Passed.taken?, Host.recorded, host] using inputs
      · simpa [List.filterMap_cons, Passed.given?, Host.recorded, host] using outputs
    | producedOutput word =>
      obtain ⟨next, middle, served, ends⟩ := ends.of_bind_ok
      obtain ⟨_, between, ⟨bound, gave⟩, acted⟩ := served.of_bind_ok
      obtain rfl := recorded_deliver opened gave
      obtain ⟨session, resumed, rfl⟩ := Call.ends_onPart.mp acted
      obtain ⟨passed, dialogue, record, inputs, outputs⟩ := ih ends opened (Session.resume_emits resumed).1
      refine ⟨.gave word :: passed, .gave stopped resumed dialogue, ?_, ?_, ?_⟩
      · rw [record]
        simp [Host.recorded]
      · simpa [List.filterMap_cons, Passed.taken?, Host.recorded, host] using inputs
      · rw [outputs]
        simp [Passed.given?, Host.recorded, host]

end Exchange

open Session (StepCalls supplied answered)

/-- What waiting for the first request does to a fresh session is what a drive begins with. -/
theorem Program.ends_wait {program : Program} {trace : Bool} {limit : Option Int} {start : Session}
    (asks : Session.waitForInput.Ends (program.start trace limit) (.ok true) start) :
    ∃ address, (Session.resume none).Ends (program.start trace limit) (.ok (.awaitingInput address)) start := by
  rw [Session.waitForInput, Call.ends_get_bind] at asks
  obtain ⟨suspension, middle, resumed, ends⟩ := asks.of_bind_ok
  cases suspension with
  | producedOutput word => cases (Call.ends_throw.mp ends).1
  | complete => cases (Call.ends_pure.mp ends).1
  | awaitingInput address =>
    obtain ⟨_, rfl⟩ := Call.ends_pure.mp ends
    exact ⟨address, resumed⟩

/-- Where a program asks for input first, its inputs may be stepped through one at a time. If all
the calls succeed and none but the last halts, each consumes its word, the machine awaits a word
before each, and driving the program on all the words delivers what the calls answered with.
Where a drive takes all of its words and gives one for each before it takes the next, all the
calls succeed with those answers. -/
theorem stepping_agrees_with_driving {program : Program} {trace : Bool} {limit : Option Int} {start : Session}
    (asks : Session.waitForInput.Ends (program.start trace limit) (.ok true) start) :
    (∀ calls after, calls ≠ [] → StepCalls start calls after →
      (∀ call ∈ calls.dropLast, call.done = false) →
      (∀ call ∈ calls, call.Proper) ∧
      (∀ call ∈ calls.dropLast, call.given ≠ none) ∧
      ((∃ last, calls.getLast? = some last ∧ last.done = true) → ∃ final,
        Exchange.collect.Ends (program.exchange (supplied calls) trace limit) (.ok (answered calls)) final ∧
        final.session = after ∧ final.inputs = [])) ∧
    ∀ values record final, values ≠ [] →
      Exchange.host.recorded.drive.Ends (program.exchange values trace limit, []) (.ok ()) (final, record) →
      final.inputs = [] → Alternates record →
      Exchange.drive.Ends (program.exchange values trace limit) (.ok ()) final ∧
      ∃ calls, StepCalls start calls final.session ∧ (∀ call ∈ calls.dropLast, call.done = false) ∧
        supplied calls = values ∧ calls.map (·.given) = final.outputs.toList.map some := by
  obtain ⟨address, resumed⟩ := program.ends_wait asks
  have waits : start.Awaits := ⟨address, (Session.resume_emits resumed).1⟩
  refine ⟨fun calls after _ went going => ?_, fun values record final _ ends whole alternates => ?_⟩
  · obtain ⟨proper, through⟩ := went.proper waits going
    refine ⟨proper, fun call member absent => ?_, fun ⟨last, closing, done⟩ => ?_⟩
    · have halted := (proper call (List.dropLast_subset calls member)).silent absent
      rw [going call member] at halted
      cases halted
    · have halts := (proper last (List.mem_of_getLast? closing)).stands
      rw [if_pos done, went.last closing] at halts
      have drives := ((Resumed.of_none resumed).trans through).ends_drive rfl (.halted halts)
      exact ⟨_, Exchange.ends_collect_ok.mpr ⟨drives, rfl⟩, rfl, rfl⟩
  · refine ⟨Exchange.ends_drive_of_recorded ends, ?_⟩
    obtain ⟨bound, answered⟩ := ends
    change (Exchange.host.recorded.act (Session.resume none) >>= Exchange.host.recorded.serveAll bound)
      bound _ = _ at answered
    obtain ⟨suspension, middle, acted, served⟩ := Call.Ends.of_bind_ok ⟨bound, answered⟩
    obtain ⟨session, resumed', rfl⟩ := Call.ends_onPart.mp acted
    obtain ⟨same, rfl⟩ := resumed.unique (Session.steady_resume none) resumed'
    cases same
    obtain ⟨passed, dialogue, rfl, taken, given⟩ :=
      Exchange.dialogue_of_recorded served rfl (Session.resume_emits resumed).1
    obtain ⟨calls, went, words, answers, going⟩ := dialogue.calls alternates
    refine ⟨calls, went, going, ?_, ?_⟩
    · rw [words]
      rw [whole, List.append_nil] at taken
      exact taken.symm
    · rw [answers, given]
      rfl

/-- A program that echoes two words is stepped through both of them, and a drive delivers the same. -/
theorem stepping_agrees_with_driving_echo : ∃ start calls final,
    Session.waitForInput.Ends ((Program.mk [3, 15, 4, 15, 3, 15, 4, 15, 99]).start false none) (.ok true) start ∧
    StepCalls start calls final.session ∧ supplied calls = [5, 6] ∧ (∀ call ∈ calls, call.Proper) ∧
    Exchange.drive.Ends ((Program.mk [3, 15, 4, 15, 3, 15, 4, 15, 99]).exchange [5, 6] false none) (.ok ()) final ∧
    calls.map (·.given) = [some 5, some 6] := by
  obtain ⟨start, asks, _⟩ : ∃ start, Session.waitForInput.Ends
      ((Program.mk [3, 15, 4, 15, 3, 15, 4, 15, 99]).start false none) (.ok true) start ∧ () = () :=
    Call.ends_of_view (fun _ : Session => ()) 9 (by decide +kernel)
  obtain ⟨⟨final, record⟩, ends, seen⟩ : ∃ after, Exchange.host.recorded.drive.Ends
      ((Program.mk [3, 15, 4, 15, 3, 15, 4, 15, 99]).exchange [5, 6] false none, []) (.ok ()) after ∧
      (after.1.inputs, after.1.outputs.toList, after.2) =
        ([], [5, 6], [.took 5, .gave 5, .took 6, .gave 6]) :=
    Call.ends_of_view (fun after : Exchange × List Passed => (after.1.inputs, after.1.outputs.toList, after.2))
      9 (by decide +kernel)
  simp only [Prod.mk.injEq] at seen
  obtain ⟨whole, outputs, rfl⟩ := seen
  obtain ⟨forward, converse⟩ := stepping_agrees_with_driving asks
  obtain ⟨drives, calls, went, going, words, answers⟩ :=
    converse [5, 6] _ final (by decide) ends whole (.pair (.pair .none))
  rw [outputs] at answers
  have some : calls ≠ [] := by
    rintro rfl
    cases words
  exact ⟨start, calls, final, asks, went, words, (forward calls _ some went going).1, drives, answers⟩

end Intcode
