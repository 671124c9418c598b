import Intcode.CommandLine
import Intcode.Proofs.Driving

/-! What the command runs. Once the arguments, the settings, the log and the program are accepted,
it drives the program on the input words, or evaluates it if a noun or a verb is given. What the
command then ends with is what the run ended with, told by an exit code and lines. -/

namespace Intcode.CommandLine

/-- The command ends so, given enough time. -/
def Ends (directory : Directory) (arguments : List String) (outcome : Outcome) : Prop :=
  ∃ bound, run directory arguments bound = some outcome

def Outcome.told (outcome : Outcome) : Nat × String × Option Escape :=
  (outcome.exit, outcome.output, outcome.escape)

theorem ends_of_told {directory : Directory} {arguments : List String} {told : Nat × String × Option Escape}
    (bound : Nat) (ended : (run directory arguments bound).map Outcome.told = some told) :
    ∃ outcome, Ends directory arguments outcome ∧ outcome.told = told := by
  obtain ⟨outcome, found, same⟩ := Option.map_eq_some_iff.mp ended
  exact ⟨outcome, ⟨bound, found⟩, same⟩

/-- The arguments and the settings are accepted, and the log can be written. -/
structure Accepts (directory : Directory) (arguments : List String) (options : Options)
    (settings : Settings) : Prop where
  parsed : Options.parse arguments = .ok options
  loaded : Settings.load directory (settingsValue options.config) = .ok settings
  writable : directory.obstacle? (Location.ofPath (logPath options settings)) = none

/-- There also are a program and input words that can be read. -/
structure Starts (directory : Directory) (arguments : List String) (options : Options)
    (settings : Settings) (program : Program) (words : List Int) : Prop
    extends Accepts directory arguments options settings where
  reads : ∃ place content,
    (prepare directory options settings).directory.findShown (options.program.getD "") =
      .entry place (.file content) ∧
    readRun (String.ofList (Document.unifyBreaks content.toList)) options.input = .ok (program, words)

/-- How the run ended that the command started: where it left the program, and the word that it
answered with if it was an evaluation. -/
inductive Ran (options : Options) (settings : Settings) (program : Program) (words : List Int) :
    Except Fault (Option Int) → Exchange → Prop where
  | driven (plain : options.patches = none)
    (ends : Exchange.drive.Ends (program.exchange words settings.trace settings.stepLimit) reply after) :
    Ran options settings program words (reply.map fun _ => none) after
  | evaluated (patched : options.patches = some (noun, verb))
    (ends : (Exchange.evaluate noun verb).Ends (program.exchange [] false none) reply after) :
    Ran options settings program words (reply.map some) after

/-- What the command makes of a run's end. -/
def Context.conclude (context : Context) (after : Exchange) : Except Fault (Option Int) → Outcome
  | .error fault => context.finish after context.options.patches.isNone [] "" (some (.fault fault))
  | .ok none => context.complete after
  | .ok (some value) => context.finish after false [] (toString value ++ "\n") none

private theorem ends_told {σ α : Type} {call : Call σ α} {state : σ} {tell : Except Fault α × σ → Outcome}
    {outcome : Outcome} : (∃ bound, (call.answer bound state).map tell = some outcome) ↔
      ∃ reply after, call.Ends state reply after ∧ outcome = tell (reply, after) := by
  constructor
  · intro ⟨bound, told⟩
    obtain ⟨⟨reply, after⟩, answered, same⟩ := Option.map_eq_some_iff.mp told
    exact ⟨reply, after, ⟨bound, answered⟩, same.symm⟩
  · intro ⟨reply, after, ⟨bound, answered⟩, same⟩
    exact ⟨bound, Option.map_eq_some_iff.mpr ⟨(reply, after), answered, same.symm⟩⟩

section Starting

variable {directory : Directory} {arguments : List String} {options : Options} {settings : Settings}
  {program : Program} {words : List Int}

theorem Accepts.run_eq (accepts : Accepts directory arguments options settings) (bound : Nat) :
    run directory arguments bound = (prepare directory options settings).run bound := by
  have writable : directory.obstacle? (prepare directory options settings).logfile = none := accepts.writable
  simp only [run, accepts.parsed, accepts.loaded, writable]

theorem Starts.run_eq (starts : Starts directory arguments options settings program words) (bound : Nat) :
    run directory arguments bound =
      match options.patches with
      | none => (prepare directory options settings).drive program words bound
      | some (noun, verb) => (prepare directory options settings).evaluate program noun verb bound := by
  obtain ⟨place, content, found, read⟩ := starts.reads
  have same : (prepare directory options settings).options = options := rfl
  rw [starts.toAccepts.run_eq]
  cases mode : options.patches <;> simp only [Context.run, same, found, read, mode]

theorem Starts.ends_iff (starts : Starts directory arguments options settings program words)
    {outcome : Outcome} : Ends directory arguments outcome ↔
      ∃ reply after, Ran options settings program words reply after ∧
        outcome = (prepare directory options settings).conclude after reply := by
  have failing : (prepare directory options settings).options = options := rfl
  unfold Ends
  simp only [starts.run_eq]
  cases mode : options.patches with
  | none =>
    refine ends_told.trans ⟨?_, ?_⟩
    · intro ⟨reply, after, ends, told⟩
      refine ⟨_, after, .driven mode ends, told.trans ?_⟩
      cases reply <;> simp only [Except.map, Context.conclude, failing, mode, Option.isNone_none]
    · intro ⟨_, after, ran, told⟩
      cases ran with
      | evaluated patched => rw [mode] at patched; cases patched
      | @driven reply _ _ ends =>
        refine ⟨reply, after, ends, told.trans ?_⟩
        cases reply <;> simp only [Except.map, Context.conclude, failing, mode, Option.isNone_none]
  | some patch =>
    refine ends_told.trans ⟨?_, ?_⟩
    · intro ⟨reply, after, ends, told⟩
      refine ⟨_, after, .evaluated mode ends, told.trans ?_⟩
      cases reply <;> simp only [Except.map, Context.conclude, failing, mode, Option.isNone_some]
    · intro ⟨_, after, ran, told⟩
      cases ran with
      | driven plain => rw [mode] at plain; cases plain
      | @evaluated _ _ reply _ patched ends =>
        rw [mode] at patched
        cases patched
        refine ⟨reply, after, ends, told.trans ?_⟩
        cases reply <;> simp only [Except.map, Context.conclude, failing, mode, Option.isNone_some]

end Starting
end Intcode.CommandLine
