import Intcode.Proofs.Budget
import Intcode.Proofs.CommandRuns
import Intcode.Proofs.Patching
import Intcode.Proofs.SettingsErrors

/-! The step limit of the settings binds a program that the command drives. An evaluation is not
told of it: it runs on, and prints its word however many instructions that takes. -/

namespace Intcode

private theorem Session.limited_of_resume {session after : Session} {value : Option Int} {limit pc : Int}
    (ends : (resume value).Ends session (.error (.stepLimit limit pc)) after) :
    session.machine.stepLimit = some limit := by
  rcases ends_resume.mp ends with ⟨fault, refused, same, _⟩ | ⟨start, woken, ran⟩
  · cases same
    cases refused_of_awake refused
  · obtain ⟨memory, rfl, _⟩ := Machine.awake_eq_ok woken
    obtain ⟨count, last, passes, closes⟩ := Round.ends_iff.mp ran
    obtain ⟨failed, _⟩ := Machine.round_fails_iff.mp (closes_machine closes)
    obtain ⟨limited, _, _⟩ := Machine.advance_eq_stepLimit_iff.mp failed
    have goes {before next : Session} (kept : before.machine.stepLimit = some limit → session.machine.stepLimit = some limit)
        (went : round before = (.ok none, next)) :
        next.machine.stepLimit = some limit → session.machine.stepLimit = some limit := by
      intro limited
      rw [(Machine.advance_counts (advance_of_round went)).2.1] at limited
      exact kept limited
    exact passes.preserves goes id limited

/-- Before an evaluation is run: two words are stored, and the ports are closed. -/
def Exchange.patched (exchange : Exchange) (noun verb : Int) : Exchange :=
  { exchange with closed := true, session := (exchange.session.stored 1 noun).stored 2 verb }

namespace CommandLine

/-- The run that the command starts, were there no limit. -/
def unlimited (options : Options) (settings : Settings) (program : Program) (words : List Int) : Exchange :=
  match options.patches with
  | none => program.exchange words settings.trace none
  | some (noun, verb) => (program.exchange [] false none).patched noun verb

section Starting

variable {directory : Directory} {arguments : List String} {options : Options} {settings : Settings}
  {program : Program} {words : List Int} {limit : Int}

private theorem unlimited_driven (plain : options.patches = none) :
    unlimited options settings program words = program.exchange words settings.trace none := by
  simp only [unlimited, plain]

theorem unlimited_evaluated {noun verb : Int} (patched : options.patches = some (noun, verb)) :
    unlimited options settings program words = (program.exchange [] false none).patched noun verb := by
  simp only [unlimited, patched]

private theorem driven_exceeds {inputs : List Int} {trace : Bool} {reached : Exchange}
    (passes : Round.Passes Exchange.turn limit.toNat (program.exchange inputs trace none) reached) :
    Exchange.drive.Ends (program.exchange inputs trace (some limit))
      (.error (.stepLimit limit reached.session.machine.pc)) (reached.limited (some limit)) := by
  have underway := Exchange.underway_exchange program inputs trace none
  have delivered := passes.preserves (fun underway went => Exchange.Underway.turn underway went) underway
  have reaches : Exchange.Reaches (program.exchange inputs trace none) limit.toNat reached :=
    ⟨passes, (Exchange.passes_counts passes).1, delivered.delivered⟩
  exact (Exchange.ends_drive_of_running rfl).mpr (reaches.ends_exhausted rfl rfl)

private theorem driven_within {inputs : List Int} {trace : Bool} {reply : Except Fault Unit} {after : Exchange}
    (positive : 0 < limit)
    (ends : Exchange.drive.Ends (program.exchange inputs trace (some limit)) reply after) :
    after.session.machine.steps ≤ limit := by
  obtain ⟨bound, answered⟩ := ends
  have acts : (Session.Action.drive inputs).perform.Ends (program.start trace (some limit))
      (.ok (.drove reply after.outputs.toList)) after.session :=
    ⟨bound, Option.map_eq_some_iff.mpr ⟨(reply, after), answered, rfl⟩⟩
  have fresh : (program.start trace (some limit)).machine.Within limit := ⟨rfl, Int.le_of_lt positive⟩
  exact (Session.history_within fresh (by simp) (.next acts .start)).kept

private theorem evaluated_within {noun verb : Int} {trace : Bool} {reply : Except Fault Int} {after : Exchange}
    (ends : (Exchange.evaluate noun verb).Ends (program.exchange [] trace none) reply after)
    (fits : ¬ ∃ reached, Round.Passes Exchange.turn limit.toNat
      ((program.exchange [] trace none).patched noun verb) reached) :
    after.session.machine.steps ≤ limit := by
  obtain ⟨stopped, session, resumed, _, rfl⟩ := Exchange.ends_evaluate.mp ends
  obtain ⟨count, last, passes, closes⟩ := Round.ends_iff.mp ((Session.ends_resume_of_running rfl).mp resumed)
  have few : count < limit.toNat := by
    apply Nat.not_le.mp
    intro enough
    obtain ⟨more, rfl⟩ := Nat.exists_eq_add_of_le enough
    obtain ⟨reached, first, _⟩ := passes.split
    exact fits ⟨_, Exchange.passes_turn first ((program.exchange [] trace none).patched noun verb)⟩
  have steps : last.machine.steps = 0 + count := Machine.passes_steps (Session.passes_machine passes)
  have final : session.machine.steps ≤ last.machine.steps + 1 := by
    cases stopped with
    | error fault =>
      obtain ⟨_, left⟩ := Machine.round_fails_iff.mp (Session.closes_machine closes)
      rw [left]
      exact Nat.le_succ _
    | ok suspension =>
      exact Nat.le_of_eq (Machine.advance_counts (Session.advance_of_round (Round.closes_ok.mp closes))).1
  change (session.machine.steps : Int) ≤ limit
  omega

private theorem evaluated_unlimited {noun verb pc : Int} {trace : Bool} {after : Exchange}
    (ends : (Exchange.evaluate noun verb).Ends (program.exchange [] trace none)
      (.error (.stepLimit limit pc)) after) : False := by
  obtain ⟨stopped, session, resumed, same, _⟩ := Exchange.ends_evaluate.mp ends
  rcases stopped with fault | _ | _ | _ <;> cases same
  cases Session.limited_of_resume resumed

theorem Starts.evaluation_unlimited (starts : Starts directory arguments options settings program words)
    {noun verb pc : Int} (patched : options.patches = some (noun, verb)) {outcome : Outcome}
    (ends : Ends directory arguments outcome) : outcome.escape ≠ some (.fault (.stepLimit limit pc)) := by
  intro escapes
  obtain ⟨reply, after, ran, rfl⟩ := starts.ends_iff.mp ends
  cases ran with
  | driven plain =>
    rw [plain] at patched
    cases patched
  | @evaluated _ _ reply _ _ evaluation =>
    cases reply with
    | ok value => cases escapes
    | error fault =>
      cases escapes
      exact evaluated_unlimited evaluation

theorem Starts.drive_limited (starts : Starts directory arguments options settings program words)
    (limited : settings.stepLimit = some limit) (plain : options.patches = none) {reached : Exchange}
    (passes : Round.Passes Exchange.turn limit.toNat (program.exchange words settings.trace none) reached)
    {outcome : Outcome} : Ends directory arguments outcome ↔
      outcome = (prepare directory options settings).finish (reached.limited (some limit)) options.patches.isNone
        [] "" (some (.fault (.stepLimit limit reached.session.machine.pc))) := by
  have exceeds := driven_exceeds passes
  rw [← limited] at exceeds ⊢
  rw [starts.ends_iff]
  constructor
  · intro ⟨reply, after, ran, told⟩
    cases ran with
    | evaluated patched =>
      rw [plain] at patched
      cases patched
    | driven _ ends =>
      obtain ⟨rfl, rfl⟩ := ends.unique Exchange.steady_drive exceeds
      exact told
  · intro told
    exact ⟨_, _, .driven plain exceeds, told⟩

/-- The command keeps to the limit: a run that goes on after as many instructions is stopped there
and reported, with nothing printed but what it emitted until then, and no run performs more. -/
structure KeepsLimit (directory : Directory) (arguments : List String) (options : Options)
    (settings : Settings) (program : Program) (words : List Int) (limit : Int) : Prop where
  stops : ∀ reached,
    Round.Passes Exchange.turn limit.toNat (unlimited options settings program words) reached →
    ∀ outcome, Ends directory arguments outcome ↔
      outcome = (prepare directory options settings).finish (reached.limited (some limit))
        options.patches.isNone [] "" (some (.fault (.stepLimit limit reached.session.machine.pc)))
  within : ∀ reply after, Ran options settings program words reply after →
    after.session.machine.steps ≤ limit

/-- The command keeps to the limit of its settings if and only if it drives the program, or the
evaluation would be over within the limit anyway. -/
theorem keepsLimit_iff (starts : Starts directory arguments options settings program words)
    (limited : settings.stepLimit = some limit) :
    KeepsLimit directory arguments options settings program words limit ↔
      options.patches = none ∨ ¬ ∃ reached, Round.Passes Exchange.turn limit.toNat
        (unlimited options settings program words) reached := by
  cases mode : options.patches with
  | none =>
    refine ⟨fun _ => .inl rfl, fun _ => ⟨fun reached passes outcome => ?_, fun reply after ran => ?_⟩⟩
    · rw [unlimited_driven mode] at passes
      exact starts.drive_limited limited mode passes
    · cases ran with
      | evaluated patched =>
        rw [mode] at patched
        cases patched
      | driven _ ends =>
        rw [limited] at ends
        exact driven_within (Settings.load_positive starts.loaded limited) ends
  | some patch =>
    obtain ⟨noun, verb⟩ := patch
    rw [unlimited_evaluated mode]
    constructor
    · intro keeps
      refine .inr fun ⟨reached, passes⟩ => ?_
      rw [← unlimited_evaluated mode] at passes
      exact starts.evaluation_unlimited mode ((keeps.stops reached passes _).mpr rfl) rfl
    · rintro (impossible | fits)
      · cases impossible
      · refine ⟨fun reached passes => ?_, fun reply after ran => ?_⟩
        · rw [unlimited_evaluated mode] at passes
          exact (fits ⟨reached, passes⟩).elim
        · cases ran with
          | driven plain =>
            rw [mode] at plain
            cases plain
          | evaluated patched ends =>
            rw [mode] at patched
            cases patched
            exact evaluated_within ends fits

end Starting

section Instances

/-- An echo that never ends, and settings that allow it four instructions. -/
def echoing : Directory :=
  ⟨⟨[("prog.txt", .file "3,20,4,20,1105,1,0"), ("cfg.yaml", .file "step_limit: 4\n")]⟩⟩

/-- The echo is stopped as it is about to deliver its second word. -/
theorem keepsLimit_of_echo : ∃ outcome,
    Ends echoing ["prog.txt", "--input=5,6", "--config=cfg.yaml"] outcome ∧
    outcome.told = (1, "5\n", some (.fault (.stepLimit 4 2))) ∧
    KeepsLimit echoing ["prog.txt", "--input=5,6", "--config=cfg.yaml"]
      { program := some "prog.txt", input := .text "5,6", config := .text "cfg.yaml" } { stepLimit := some 4 }
      ⟨[3, 20, 4, 20, 1105, 1, 0]⟩ [5, 6] 4 := by
  obtain ⟨outcome, ends, told⟩ : ∃ outcome,
      Ends echoing ["prog.txt", "--input=5,6", "--config=cfg.yaml"] outcome ∧
      outcome.told = (1, "5\n", some (.fault (.stepLimit 4 2))) := ends_of_told 9 (by decide +kernel)
  refine ⟨outcome, ends, told, (keepsLimit_iff ?_ rfl).mpr (.inl rfl)⟩
  exact
    { parsed := by decide +kernel
      loaded := by decide +kernel
      writable := by decide +kernel
      reads := ⟨{ names := ["prog.txt"] }, "3,20,4,20,1105,1,0", by decide +kernel⟩ }

/-- A sum, and settings that allow it one instruction. -/
def summing : Directory :=
  ⟨⟨[("prog.txt", .file "1,0,0,0,99"), ("cfg.yaml", .file "step_limit: 1\n")]⟩⟩

def zeros : Options :=
  { program := some "prog.txt", noun := some 0, verb := some 0, config := .text "cfg.yaml" }

/-- Evaluating the sum takes two instructions. The command prints it all the same, and succeeds. -/
theorem evaluation_exceeds_limit :
    Starts summing ["prog.txt", "--noun", "0", "--verb", "0", "--config", "cfg.yaml"] zeros
      { stepLimit := some 1 } ⟨[1, 0, 0, 0, 99]⟩ [] ∧
    (∃ reached, Round.Passes Exchange.turn 1
      (unlimited zeros { stepLimit := some 1 } ⟨[1, 0, 0, 0, 99]⟩ []) reached) ∧
    (∃ outcome, Ends summing ["prog.txt", "--noun", "0", "--verb", "0", "--config", "cfg.yaml"] outcome ∧
      outcome.told = (0, "2\n", none)) ∧
    ¬ KeepsLimit summing ["prog.txt", "--noun", "0", "--verb", "0", "--config", "cfg.yaml"] zeros
      { stepLimit := some 1 } ⟨[1, 0, 0, 0, 99]⟩ [] 1 := by
  have ended : ∃ outcome,
      Ends summing ["prog.txt", "--noun", "0", "--verb", "0", "--config", "cfg.yaml"] outcome ∧
      outcome.told = (0, "2\n", none) := ends_of_told 9 (by decide +kernel)
  refine ⟨?_, ⟨_, .next rfl .rest⟩, ended, fun keeps => ?_⟩
  · exact
      { parsed := by decide +kernel
        loaded := by decide +kernel
        writable := by decide +kernel
        reads := ⟨{ names := ["prog.txt"] }, "1,0,0,0,99", by decide +kernel⟩ }
  · obtain ⟨outcome, ends, told⟩ := ended
    rw [(keeps.stops _ (.next rfl .rest) outcome).mp ends] at told
    cases told

end Instances
end CommandLine
end Intcode
