import Intcode.Exchange.Ports
import Intcode.Program.Source
import Intcode.Proofs.CommandRuns
import Intcode.Proofs.Decimals
import Intcode.Proofs.Delivery
import Intcode.Proofs.HostViews
import Intcode.Proofs.LineBreaks
import Intcode.Proofs.OtherFiles
import Intcode.Proofs.Protocol

/-! The ways to run a program text under settings agree. Whether the outputs are collected, printed
to a port or printed by the command, it is one run, and it delivers the same words before it halts
or fails. -/

namespace Intcode

def printedLines (words : List Int) : String := String.join (words.map fun word => toString word ++ "\n")

private theorem printedLines_concat (words : List Int) (word : Int) :
    printedLines (words ++ [word]) = printedLines words ++ toString word ++ "\n" := by
  simp [printedLines, String.append_assoc]

namespace Exchange

/-- The exchange between ports that list its inputs and print its outputs. -/
def printed (exchange : Exchange) : Wired where
  session := exchange.session
  source := if exchange.closed then .refusing else .listed exchange.inputs
  sink := if exchange.closed then .refusing else .printed (printedLines exchange.outputs.toList)

private theorem printed_seenAs : host.SeenAs printed Wired.host where
  session _ := rfl
  restore _ _ := rfl
  take := by
    intro bound ⟨session, inputs, outputs, closed⟩
    cases closed with
    | true => rfl
    | false => cases inputs <;> rfl
  deliver := by
    intro value bound ⟨session, inputs, outputs, closed⟩
    cases closed with
    | true => rfl
    | false =>
      have lines := printedLines_concat outputs.toList value
      rw [← Array.toList_push] at lines
      change some (Except.ok (), ({ session, inputs, outputs := outputs.push value, closed := false } : Exchange).printed) = _
      unfold printed
      simp only [lines]
      rfl

end Exchange

namespace CommandLine

section Silent

variable {context : Context} {after : Exchange} {extra : List String} {escape : Option Escape}

private theorem shown_outputs (event : Event) :
    shown true false event = (event.word?.map fun word => toString word ++ "\n").getD "" := by
  unfold shown
  generalize event.line? = line
  cases event <;> cases line <;> rfl

private theorem join_shown (events : List Event) :
    String.join (events.map (shown true false)) = printedLines (events.filterMap Event.word?) := by
  induction events with
  | nil => rfl
  | cons event rest ih =>
    rw [List.map_cons, String.join_cons, ih, shown_outputs]
    cases word : event.word? <;> simp [word, printedLines]

theorem told_finish (silent : context.console = false) :
    (context.finish after true extra "" escape).told =
      (if escape.isSome then 1 else 0, printedLines after.session.emitted, escape) := by
  have printed := join_shown after.session.journal.toList
  simp only [Context.finish, Outcome.told, silent, printed, Session.emitted]
  simp

private theorem told_complete (silent : context.console = false) :
    (context.complete after).told = (0, printedLines after.session.emitted, none) := by
  simp only [Context.complete]
  split
  · split
    · exact told_finish silent
    · -- The dump changes the directory, of which nothing is told.
      change (context.finish after true [_] "" none).told = _
      exact told_finish silent
  · exact told_finish silent

end Silent

/-- The command is given the text in a file, the inputs one by one, and the settings. It is asked to
drive the program and to show no log, and its log goes to another file. -/
structure Stages (directory : Directory) (arguments : List String) (options : Options) (settings : Settings)
    (text : String) (inputs : List Int) : Prop extends Accepts directory arguments options settings where
  plain : options.patches = none
  silent : options.console = false
  given : options.input = .text (",".intercalate (inputs.map toString)) ∨ inputs = [] ∧ options.input = .absent
  short : ∀ input ∈ inputs, Text.Numeral.isTooLong input = false
  stands : ∃ place, directory.findShown (options.program.getD "") = .entry place (.file text) ∧
    place.text ≠ (Location.ofPath (logPath options settings)).text

namespace Stages

variable {directory : Directory} {arguments : List String} {options : Options} {settings : Settings}
  {text : String} {inputs : List Int} (stages : Stages directory arguments options settings text inputs)
include stages

private theorem givenWords_eq : givenWords options.input = .ok inputs := by
  rcases stages.given with given | ⟨rfl, given⟩
  · rw [given, givenWords, inputWords_intercalate stages.short]
    rfl
  · rw [given]
    rfl

theorem found : ∃ place, (prepare directory options settings).directory.findShown (options.program.getD "") =
    .entry place (.file text) := by
  obtain ⟨place, found, apart⟩ := stages.stands
  exact ⟨place, Directory.findShown_write stages.writable apart found⟩

theorem starts {program : Program} (parsed : Program.parse text = .ok program) :
    Starts directory arguments options settings program inputs where
  toAccepts := stages.toAccepts
  reads := by
    obtain ⟨place, found⟩ := stages.found
    refine ⟨place, text, found, ?_⟩
    rw [readRun, Program.parse_unifyBreaks.mpr parsed, stages.givenWords_eq]
    rfl

/-- The command tells how the run ended, and with what it delivered. -/
theorem told_run {program : Program} (parsed : Program.parse text = .ok program) (bound : Nat) :
    (run directory arguments bound).map Outcome.told =
      (Exchange.drive bound (program.exchange inputs settings.trace settings.stepLimit)).map
        fun (outcome, after) =>
          match outcome with
          | .ok () => (0, printedLines after.outputs.toList, none)
          | .error fault => (1, printedLines after.outputs.toList, some (.fault fault)) := by
  have silent : (prepare directory options settings).console = false := by
    rw [Context.console, show (prepare directory options settings).options.console = false from stages.silent,
      Bool.and_false]
  rw [(stages.starts parsed).run_eq, stages.plain]
  simp only [Context.drive, Call.answer, Option.map_map]
  refine Option.map_congr fun ended answered => ?_
  obtain ⟨outcome, after⟩ := ended
  have delivered := (Exchange.drive_delivers ⟨bound, answered⟩).2
  rw [delivered]
  cases outcome with
  | ok done => exact told_complete silent
  | error fault => exact told_finish silent

theorem told_invalid {error : InvalidWord} (invalid : Program.parse text = .error error) (bound : Nat) :
    ∃ other, Program.parse (String.ofList (Document.unifyBreaks text.toList)) = .error other ∧
      (run directory arguments bound).map Outcome.told =
        some (2, "Bad program or input: " ++ other.message ++ "\n", none) := by
  cases parsed : Program.parse (String.ofList (Document.unifyBreaks text.toList)) with
  | ok program =>
    rw [Program.parse_unifyBreaks.mp parsed] at invalid
    cases invalid
  | error other =>
    obtain ⟨place, found⟩ := stages.found
    have same : (prepare directory options settings).options = options := rfl
    have unread : readRun (String.ofList (Document.unifyBreaks text.toList)) options.input =
        .error (.text other.message) := by
      rw [readRun, parsed]
      rfl
    refine ⟨other, rfl, ?_⟩
    rw [stages.toAccepts.run_eq]
    simp only [Context.run, same, found, unread]
    rfl

end Stages
end CommandLine

section Running

variable {directory : Directory} {config : Value} {settings : Settings} {text : String} {inputs : List Int}
  {program : Program}

private theorem Exchange.collect_apply (bound : Nat) (exchange : Exchange) :
    collect bound exchange = (drive bound exchange).map
      fun (outcome, after) => (outcome.map fun _ => after.outputs.toList, after) := by
  unfold collect
  rw [Call.bind_apply]
  cases drive bound exchange with
  | none => rfl
  | some result =>
    obtain ⟨outcome, after⟩ := result
    cases outcome <;> rfl

private theorem Program.drive_wired (trace : Bool) (limit : Option Int) (bound : Nat) :
    Wired.host.drive bound (program.wired (.listed inputs) (.printed "") trace limit) =
      (Exchange.drive bound (program.exchange inputs trace limit)).map fun (outcome, after) =>
        (outcome, ⟨after.session, .listed after.inputs, .printed (printedLines after.outputs.toList)⟩) := by
  have seen := Exchange.printed_seenAs.drive bound (program.exchange inputs trace limit)
  rw [Exchange.host_drive] at seen
  refine seen.symm.trans (Option.map_congr fun ended answered => ?_)
  obtain ⟨outcome, after⟩ := ended
  have opened := (Exchange.drive_delivers ⟨bound, answered⟩).1
  simp only [Prod.map, id, Exchange.printed, opened]
  rfl

theorem Supply.ofValue_words (words : List Int) : Supply.ofValue (.list (words.map Value.int)) = .ok ⟨words, none⟩ := by
  have items (words : List Int) : Supply.ofItems (words.map Value.int) = ⟨words, none⟩ := by
    induction words with
    | nil => rfl
    | cons word words ih => rw [List.map_cons, Supply.ofItems, ih]; rfl
  cases words with
  | nil => rfl
  | cons word words => exact congrArg Except.ok (items (word :: words))

private theorem Program.runSource_apply (loaded : Settings.load directory config = .ok settings)
    (parsed : parse text = .ok program) (bound : Nat) :
    (runSource directory text (.ok ⟨inputs, none⟩) config bound).map (·.outcome) =
      (Exchange.drive bound (program.exchange inputs settings.trace settings.stepLimit)).map
        fun (outcome, after) => (outcome.map fun _ => after).mapError .fault := by
  unfold runSource
  rw [loaded, parsed]
  change ((Exchange.drive bound _).map _).map _ = _
  rw [Option.map_map]
  refine Option.map_congr fun ended _ => ?_
  obtain ⟨outcome, after⟩ := ended
  cases outcome with
  | ok done => rfl
  | error fault => cases fault <;> rfl

end Running

/-- Whatever way a text is run under accepted settings, it is one run. If the text is a program, then
within any bound the four ways end together or not at all, with the same fault if there is one, and
with the outputs that were delivered until then, collected or printed one a line. If the text is no
program, none of them runs anything. -/
theorem entry_points_agree {directory : Directory} {config : Value} {settings : Settings} {text : String}
    {inputs : List Int} {arguments : List String} {options : CommandLine.Options}
    (loaded : Settings.load directory config = .ok settings)
    (stages : CommandLine.Stages directory arguments options settings text inputs) :
    (∀ program, Program.parse text = .ok program → ∀ bound,
      let run := Exchange.drive bound (program.exchange inputs settings.trace settings.stepLimit)
      (Program.runSource directory text (Supply.ofValue (.list (inputs.map .int))) config bound).map (·.outcome) =
        run.map (fun (outcome, after) => (outcome.map fun _ => after).mapError .fault) ∧
      Exchange.collect bound (program.exchange inputs settings.trace settings.stepLimit) =
        run.map (fun (outcome, after) => (outcome.map fun _ => after.outputs.toList, after)) ∧
      Wired.host.drive bound (program.wired (.listed inputs) (.printed "") settings.trace settings.stepLimit) =
        run.map (fun (outcome, after) =>
          (outcome, ⟨after.session, .listed after.inputs, .printed (printedLines after.outputs.toList)⟩)) ∧
      (CommandLine.run directory arguments bound).map CommandLine.Outcome.told =
        run.map fun (outcome, after) =>
          match outcome with
          | .ok () => (0, printedLines after.outputs.toList, none)
          | .error fault => (1, printedLines after.outputs.toList, some (.fault fault))) ∧
    ∀ error, Program.parse text = .error error → ∀ bound,
      Program.runSource directory text (Supply.ofValue (.list (inputs.map .int))) config bound =
        some ⟨.error (.program error), []⟩ ∧
      ∃ other, Program.parse (String.ofList (Document.unifyBreaks text.toList)) = .error other ∧
        (CommandLine.run directory arguments bound).map CommandLine.Outcome.told =
          some (2, "Bad program or input: " ++ other.message ++ "\n", none) := by
  rw [Supply.ofValue_words]
  constructor
  · intro program parsed bound run
    exact ⟨Program.runSource_apply loaded parsed bound, Exchange.collect_apply bound _,
      Program.drive_wired settings.trace settings.stepLimit bound, stages.told_run parsed bound⟩
  · intro error invalid bound
    refine ⟨?_, stages.told_invalid invalid bound⟩
    unfold Program.runSource
    rw [loaded, invalid]
    rfl

def echoFiles : Directory :=
  ⟨⟨[("prog.txt", .file "3,20,4,20,\r\n1105,1,0"), ("cfg.yaml", .file "step_limit: 9\n")]⟩⟩

/-- The echo delivers both of its inputs before it fails for want of a third. -/
theorem entry_points_agree_of_echo :
    (Program.runSource echoFiles "3,20,4,20,\r\n1105,1,0" (Supply.ofValue (.list [.int 5, .int (-7)]))
      (.mapping [(.text "step_limit", .int 9)]) 9).map (·.outcome) = some (.error (.fault .inputDrained)) ∧
    (∃ after, Exchange.collect 9 ((Program.mk [3, 20, 4, 20, 1105, 1, 0]).exchange [5, -7] false (some 9)) =
      some (.error .inputDrained, after) ∧ after.outputs.toList = [5, -7]) ∧
    (∃ after, Wired.host.drive 9 ((Program.mk [3, 20, 4, 20, 1105, 1, 0]).wired (.listed [5, -7]) (.printed "")
      false (some 9)) = some (.error .inputDrained, after) ∧ after.sink = .printed "5\n-7\n") ∧
    (CommandLine.run echoFiles ["prog.txt", "--input=5,-7", "--config=cfg.yaml", "--debug"] 9).map
      CommandLine.Outcome.told = some (1, "5\n-7\n", some (.fault .inputDrained)) := by
  have loaded : Settings.load echoFiles (.mapping [(.text "step_limit", .int 9)]) = .ok { stepLimit := some 9 } := by
    decide +kernel
  have stages : CommandLine.Stages echoFiles ["prog.txt", "--input=5,-7", "--config=cfg.yaml", "--debug"]
      { program := some "prog.txt", input := .text "5,-7", config := .text "cfg.yaml", debug := true }
      { stepLimit := some 9 } "3,20,4,20,\r\n1105,1,0" [5, -7] :=
    { parsed := by decide +kernel
      loaded := by decide +kernel
      writable := by decide +kernel
      plain := rfl
      silent := rfl
      given := .inl (by decide +kernel)
      short := by decide +kernel
      stands := ⟨{ names := ["prog.txt"] }, by decide +kernel⟩ }
  have parsed : Program.parse "3,20,4,20,\r\n1105,1,0" = .ok ⟨[3, 20, 4, 20, 1105, 1, 0]⟩ := by decide +kernel
  have ran : (Exchange.drive 9 ((Program.mk [3, 20, 4, 20, 1105, 1, 0]).exchange [5, -7] false (some 9))).map
      (fun (outcome, after) => (outcome, after.outputs.toList)) = some (.error .inputDrained, [5, -7]) := by
    decide +kernel
  obtain ⟨⟨outcome, after⟩, answered, same⟩ := Option.map_eq_some_iff.mp ran
  obtain ⟨rfl, outputs⟩ := Prod.mk.inj same
  obtain ⟨sourced, collected, wired, told⟩ := (entry_points_agree loaded stages).1 _ parsed 9
  rw [answered] at sourced collected wired told
  have lines : printedLines after.outputs.toList = "5\n-7\n" := by
    rw [outputs]
    decide +kernel
  refine ⟨sourced, ⟨after, collected, outputs⟩, ⟨_, wired, congrArg Sink.printed lines⟩, told.trans ?_⟩
  rw [← lines]
  rfl

end Intcode
