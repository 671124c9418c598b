import Intcode.Proofs.Priming

/-! What a signal meets on its way through a chain. An amplifier that waits after it was told
its phase consumes the signal and emits nothing but the next one. An amplifier that emits a
word at once never sees the signal: the word is lost, and so is the signal that it was given
instead of one. -/

namespace Intcode.Amplifier

open Session (Awaits Accounted Served Stepped)

/-- On its phase and a signal the program emits just this word before it halts or asks for
more. -/
def Amplifies (program : Program) (phase signal output : Int) : Prop :=
  ∃ outcome after, Exchange.drive.Ends (program.exchange [phase, signal] false none) outcome after ∧
    (outcome = .ok () ∨ outcome = .error .inputDrained) ∧ after.inputs = [] ∧
      after.outputs.toList = [output]

/-- The signal is amplified for one phase after the other. -/
inductive Amplified (program : Program) : Int → List Int → Int → Prop where
  | all : Amplified program signal [] signal
  | next (amplifies : Amplifies program phase signal output)
    (amplified : Amplified program output phases result) :
    Amplified program signal (phase :: phases) result

/-- An amplifier of a chain: what it was told and given, what it answered, and where it stood
before and after that. -/
structure Link where
  phase : Int
  signal : Int
  output : Int
  primed : Session
  left : Session

/-- The amplifier passed its signal on, and halted or asks for the next one. -/
structure Link.Works (program : Program) (link : Link) : Prop where
  primed : Primed program link.phase link.primed
  steps : ∃ done, (Session.step link.signal).Ends link.primed (.ok (some link.output, done)) link.left
  rests : link.left.machine.suspension = some .complete ∨ link.left.Awaits

/-- From its start the amplifier consumed its phase and its signal, and emitted its output. -/
def Link.Faithful (program : Program) (link : Link) : Prop :=
  Accounted (program.start false none) [link.phase, link.signal] [link.output] link.left

/-- From its start the amplifier consumed its phase and emitted a word before its output. -/
def Link.Lossy (program : Program) (link : Link) : Prop :=
  ∃ lost, Accounted (program.start false none) [link.phase] [lost, link.output] link.left

variable {σ : Type} {program : Program} {phase signal output other : Int} {phases : List Int}
  {result : Int}

theorem Amplifies.unique (amplifies : Amplifies program phase signal output)
    (again : Amplifies program phase signal other) : other = output := by
  obtain ⟨_, _, ends, _, _, outputs⟩ := amplifies
  obtain ⟨_, _, ends', _, _, outputs'⟩ := again
  obtain ⟨_, rfl⟩ := ends.unique Exchange.steady_drive ends'
  rw [outputs] at outputs'
  cases outputs'
  rfl

private theorem amplified_cons_iff : Amplified program signal (phase :: phases) result ↔
    ∃ output, Amplifies program phase signal output ∧ Amplified program output phases result := by
  constructor
  · intro amplified
    cases amplified with
    | next amplifies rest => exact ⟨_, amplifies, rest⟩
  · intro ⟨output, amplifies, rest⟩
    exact .next amplifies rest

namespace Link.Works

variable {link : Link}

private theorem awaits_or_emits (works : link.Works program) :
    link.primed.Awaits ∨ ∃ lost, link.primed.machine.suspension = some (.producedOutput lost) := by
  obtain ⟨suspension, stopped⟩ : ∃ suspension, link.primed.machine.suspension = some suspension := by
    obtain ⟨_, told⟩ := works.primed
    exact ⟨_, (Session.resume_emits told).1⟩
  cases suspension with
  | awaitingInput address => exact .inl ⟨address, stopped⟩
  | producedOutput lost => exact .inr ⟨lost, stopped⟩
  | complete =>
    obtain ⟨done, steps⟩ := works.steps
    obtain ⟨_, _, fed, _⟩ := steps.of_bind_ok
    rcases Session.ends_resume.mp fed with ⟨_, _, impossible, _⟩ | ⟨start, woken, _⟩
    · cases impossible
    · simp only [Machine.awake, stopped] at woken
      cases woken

theorem accounted (works : link.Works program) : Accounted (program.start false none)
    (link.phase :: Session.consumed link.primed.machine.suspension link.signal)
    (link.primed.standing ++ [link.output]) link.left := by
  obtain ⟨done, steps⟩ := works.steps
  exact works.primed.accounted.trans (Session.step_accounted steps)

theorem faithful (works : link.Works program) (waits : link.primed.Awaits) : link.Faithful program := by
  have accounted := works.accounted
  obtain ⟨address, asks⟩ := waits
  rw [Session.standing_of_stopped asks, asks] at accounted
  exact accounted

private theorem lossy (works : link.Works program) (waits : ¬ link.primed.Awaits) : link.Lossy program := by
  have accounted := works.accounted
  rcases works.awaits_or_emits with asks | ⟨lost, emits⟩
  · exact (waits asks).elim
  · rw [Session.standing_of_stopped emits, emits] at accounted
    exact ⟨lost, accounted⟩

theorem amplifies (works : link.Works program) (waits : link.primed.Awaits) :
    Amplifies program link.phase link.signal link.output := by
  obtain ⟨done, steps⟩ := works.steps
  have drives {outcome : Except Fault Unit} (rest : Served link.left [] outcome [] [] link.left) :
      Exchange.drive.Ends (program.exchange [link.phase, link.signal] false none) outcome
        ((program.exchange [link.phase, link.signal] false none).advanced [] [link.output] link.left) :=
    works.primed.ends_drive_iff.mpr ⟨_, _, _, (Session.stepped steps).served waits rest, rfl⟩
  rcases works.rests with halted | ⟨address, asks⟩
  · exact ⟨_, _, drives (.halted halted), .inl rfl, rfl, rfl⟩
  · exact ⟨_, _, drives (.drained asks), .inr rfl, rfl, rfl⟩

/-- An amplifier that emitted a word before its output emits both on any two inputs. -/
theorem not_amplifies (works : link.Works program) (waits : ¬ link.primed.Awaits) :
    ¬ Amplifies program link.phase link.signal other := by
  intro ⟨outcome, after, ends, _, _, single⟩
  obtain ⟨left, outputs, final, served, rfl⟩ := works.primed.ends_drive_iff.mp ends
  rcases works.awaits_or_emits with asks | ⟨lost, emits⟩
  · exact waits asks
  have idle (address : Int) : link.primed.machine.suspension ≠ some (.awaitingInput address) :=
    fun asks => waits ⟨address, asks⟩
  obtain ⟨second, middle, plain⟩ : ∃ second middle,
      (Session.resume none).Ends link.primed (.ok (.producedOutput second)) middle := by
    obtain ⟨done, steps⟩ := works.steps
    have alike := Machine.awake_of_idle idle (some link.signal)
    cases Session.stepped steps with
    | halted fed _ | asking fed _ =>
      obtain ⟨middle, plain, _⟩ := Session.ends_resume_alike rfl alike.symm fed
      exact ⟨_, middle, plain⟩
  obtain ⟨rest, rfl, onward⟩ := (Session.served_output_iff emits plain).mp served
  obtain ⟨more, rfl⟩ := onward.delivers (Session.resume_emits plain).1
  simp [Exchange.advanced, Program.exchange] at single

end Link.Works

private theorem ends_relay {sessions : List Session} {before after : σ}
    (primed : List.Forall₂ (Primed program) phases sessions)
    (ends : (relay signal sessions).Ends before (.ok result) after) :
    ∃ links : List Link, links.map (·.phase) = phases ∧
      signal :: links.map (·.output) = links.map (·.signal) ++ [result] ∧
      ∀ link ∈ links, link.Works program := by
  induction primed generalizing signal before with
  | nil =>
    obtain ⟨same, rfl⟩ := Call.ends_pure.mp ends
    cases same
    exact ⟨[], rfl, rfl, List.forall_mem_nil _⟩
  | @cons phase session phases sessions told _ ih =>
    rw [relay] at ends
    obtain ⟨⟨⟨given, done⟩, left⟩, middle, ran, onward⟩ := ends.of_bind_ok
    cases given with
    | none => cases (Call.ends_throw.mp onward).1
    | some output =>
      obtain ⟨reply, own, steps, made, rfl⟩ := Call.ends_onOwn.mp ran
      cases reply with
      | error fault => cases made
      | ok answer =>
        cases made
        obtain ⟨links, rfl, signals, works⟩ := ih onward
        have rests : left.machine.suspension = some .complete ∨ left.Awaits := by
          rcases (Session.stepped steps).rests with ⟨_, halted⟩ | ⟨_, asks, _⟩
          · exact .inl halted
          · exact .inr asks
        refine ⟨⟨phase, signal, output, session, left⟩ :: links, rfl, congrArg (signal :: ·) signals, ?_⟩
        intro link member
        rcases List.mem_cons.mp member with rfl | member
        · exact ⟨told, ⟨done, steps⟩, rests⟩
        · exact works link member

/-- A signal is amplified by all of the programs in turn just if no amplifier of the chain
emitted anything before it was given its signal. -/
theorem amplified_iff {links : List Link} (works : ∀ link ∈ links, link.Works program)
    (signals : signal :: links.map (·.output) = links.map (·.signal) ++ [result]) :
    Amplified program signal (links.map (·.phase)) result ↔ ∀ link ∈ links, link.primed.Awaits := by
  induction links generalizing signal with
  | nil =>
    cases signals
    exact ⟨fun _ => List.forall_mem_nil _, fun _ => .all⟩
  | cons link links ih =>
    have works' := List.forall_mem_cons.mp works
    obtain ⟨rfl, onward⟩ := List.cons.inj signals
    rw [List.map_cons, amplified_cons_iff, List.forall_mem_cons]
    constructor
    · intro ⟨output, amplifies, rest⟩
      have waits : link.primed.Awaits := by
        by_contra idle
        exact works'.1.not_amplifies idle amplifies
      cases (works'.1.amplifies waits).unique amplifies
      exact ⟨waits, (ih works'.2 onward).mp rest⟩
    · intro ⟨waits, others⟩
      exact ⟨link.output, works'.1.amplifies waits, (ih works'.2 onward).mpr others⟩

/-- Whenever a chain returns, its links carry the signal from the first to the result. A link
whose amplifier waited for its signal consumed phase and signal and emitted its output alone;
any other lost a word and its signal. The result is the signal amplified for each phase in turn
if and only if there is no other. -/
theorem chain_amplifies_iff {before after : σ}
    (ends : (chain program phases signal).Ends before (.ok result) after) :
    ∃ links : List Link, links.map (·.phase) = phases ∧
      signal :: links.map (·.output) = links.map (·.signal) ++ [result] ∧
      (∀ link ∈ links, link.Works program ∧
        (link.primed.Awaits ∧ link.Faithful program ∨ ¬ link.primed.Awaits ∧ link.Lossy program)) ∧
      (Amplified program signal phases result ↔ ∀ link ∈ links, link.primed.Awaits) := by
  obtain ⟨sessions, middle, told, relays⟩ := ends.of_bind_ok
  obtain ⟨primed, _⟩ := Call.ends_mapM primed_of_ends told
  obtain ⟨links, rfl, signals, works⟩ := ends_relay primed relays
  refine ⟨links, rfl, signals, fun link member => ⟨works link member, ?_⟩, amplified_iff works signals⟩
  by_cases waits : link.primed.Awaits
  · exact .inl ⟨waits, (works link member).faithful waits⟩
  · exact .inr ⟨waits, (works link member).lossy waits⟩

/-- Each of two amplifiers appends its phase to the decimal digits of the signal. -/
theorem chain_amplifies_digits :
    ∃ links : List Link,
      (chain ⟨[3, 15, 3, 16, 1002, 16, 10, 16, 1, 16, 15, 15, 4, 15, 99]⟩ [4, 3] 0 : Call Unit Int).Ends ()
        (.ok 43) () ∧
      links.map (·.phase) = [4, 3] ∧ 0 :: links.map (·.output) = links.map (·.signal) ++ [43] ∧
      ∀ link ∈ links, link.Faithful ⟨[3, 15, 3, 16, 1002, 16, 10, 16, 1, 16, 15, 15, 4, 15, 99]⟩ := by
  have ends : (chain ⟨[3, 15, 3, 16, 1002, 16, 10, 16, 1, 16, 15, 15, 4, 15, 99]⟩ [4, 3] 0 :
      Call Unit Int).Ends () (.ok 43) () := ⟨9, by decide +kernel⟩
  have amplifies (phase signal output : Int) (answered : (Exchange.drive 9 ((Program.mk
      [3, 15, 3, 16, 1002, 16, 10, 16, 1, 16, 15, 15, 4, 15, 99]).exchange [phase, signal] false none)).map
      (Prod.map id fun after : Exchange => (after.inputs, after.outputs.toList)) =
        some (.ok (), ([], [output]))) :
      Amplifies ⟨[3, 15, 3, 16, 1002, 16, 10, 16, 1, 16, 15, 15, 4, 15, 99]⟩ phase signal output := by
    obtain ⟨after, drives, seen⟩ := Call.ends_of_view _ 9 answered
    obtain ⟨inputs, outputs⟩ := Prod.mk.inj seen
    exact ⟨.ok (), after, drives, .inl rfl, inputs, outputs⟩
  obtain ⟨links, phases, signals, works, amplified⟩ := chain_amplifies_iff ends
  have waits := amplified.mp (.next (amplifies 4 0 4 (by decide +kernel))
    (.next (amplifies 3 4 43 (by decide +kernel)) .all))
  refine ⟨links, ends, phases, signals, fun link member => ?_⟩
  rcases (works link member).2 with ⟨_, faithful⟩ | ⟨idle, _⟩
  · exact faithful
  · exact (idle (waits link member)).elim

/-- An amplifier that emits a word as soon as it knows its phase never gets its signal. The word
is lost, the next one is the result, and the program alone does not map the signal to it. -/
theorem chain_loses_word :
    (chain ⟨[3, 10, 104, 7, 104, 8, 99]⟩ [0] 5 : Call Unit Int).Ends () (.ok 8) () ∧
    ¬ Amplified ⟨[3, 10, 104, 7, 104, 8, 99]⟩ 5 [0] 8 ∧
    ∃ link : Link, link.phase = 0 ∧ link.signal = 5 ∧ link.output = 8 ∧
      link.Works ⟨[3, 10, 104, 7, 104, 8, 99]⟩ ∧
      Accounted ((Program.mk [3, 10, 104, 7, 104, 8, 99]).start false none) [0] [7, 8] link.left := by
  obtain ⟨primed, left, told, steps, stands, rests⟩ : ∃ primed left,
      Primed ⟨[3, 10, 104, 7, 104, 8, 99]⟩ 0 primed ∧
      (Session.step 5).Ends primed (.ok (some 8, true)) left ∧
      primed.machine.suspension = some (.producedOutput 7) ∧ left.machine.suspension = some .complete :=
    ⟨_, _, .told ⟨9, rfl⟩ ⟨9, rfl⟩, ⟨9, rfl⟩, rfl, rfl⟩
  have works : Link.Works ⟨[3, 10, 104, 7, 104, 8, 99]⟩ ⟨0, 5, 8, primed, left⟩ :=
    ⟨told, ⟨true, steps⟩, .inl rests⟩
  have idle : ¬ primed.Awaits := by
    intro ⟨address, asks⟩
    rw [stands] at asks
    cases asks
  refine ⟨⟨9, by decide +kernel⟩, fun amplified => ?_, ⟨0, 5, 8, primed, left⟩, rfl, rfl, rfl, works, ?_⟩
  · obtain ⟨output, amplifies, _⟩ := amplified_cons_iff.mp amplified
    exact works.not_amplifies idle amplifies
  · have accounted := works.accounted
    rw [Session.standing_of_stopped stands, stands] at accounted
    exact accounted

end Intcode.Amplifier
