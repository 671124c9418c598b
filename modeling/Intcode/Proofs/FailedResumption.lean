import Intcode.Proofs.LongNumbers
import Intcode.Proofs.Running

/-! What a failed resumption leaves behind. It is refused before anything runs and then
changes nothing at all, or its run breaks off between two instructions: the failing one
leaves no trace in the machine, and resuming once more fails in the same way. -/

namespace Intcode.Session

/-- The woken machine completed some instructions, which left it as it is now, and
failed at the next one. The cause is reported unless a number in the report is too long. -/
structure BrokenOff (session : Session) (value : Option Int) (fault : Fault)
    (machine : Machine) : Prop where
  completed : ∃ start count, session.machine.awake value = .ok start ∧
    Round.Passes Machine.round count start machine ∧ machine.steps = start.steps + count
  failing : machine.advance = .error fault
  suspension : machine.suspension = none
  cause : fault.causeKind = .budget ∨ fault.causeKind = .decoding ∨ fault.causeKind = .addressing
  kind : fault.kind = fault.causeKind ∨
    fault.kind = .unwritable ∧ ∃ number ∈ fault.numbers, Text.Numeral.isTooLong number = true

/-- A machine that failed between two instructions fails again however it is resumed. -/
theorem resume_again {session : Session} {fault : Fault} (running : session.machine.suspension = none)
    (failing : session.machine.advance = .error fault) (value : Option Int) :
    ∃ again, again.machine = session.machine ∧ ∀ outcome final,
      (resume value).Ends session outcome final ↔ outcome = .error fault ∧ final = again := by
  have woken := Machine.awake_of_running running value
  have closes : Round.Closes Machine.round
      ((session.received value).withMachine session.machine).machine (.error fault) session.machine :=
    Round.closes_error.mpr (Machine.round_fails_iff.mpr ⟨failing, rfl⟩)
  obtain ⟨again, closed, same⟩ := closes_of_machine closes
  have ends : (resume value).Ends session (.error fault) again :=
    (ends_resume_of_awake woken).mpr (Round.ends_iff.mpr ⟨0, _, .rest, closed⟩)
  refine ⟨again, same, fun outcome final => ⟨fun other => ?_, ?_⟩⟩
  · exact other.unique (steady_resume value) ends
  · rintro ⟨rfl, rfl⟩
    exact ends

/-- A failed resumption changes nothing, or it leaves the machine as the last completed
instruction left it, and then it can be repeated. -/
theorem resume_fails_between_instructions {session after : Session} {value : Option Int}
    {fault : Fault} (failed : (resume value).Ends session (.error fault) after) :
    (Refused session value fault ∧ after = session) ∨
    (BrokenOff session value fault after.machine ∧
      ∀ value', ∃ again, again.machine = after.machine ∧ ∀ outcome final,
        (resume value').Ends after outcome final ↔ outcome = .error fault ∧ final = again) := by
  rcases ends_resume.mp failed with ⟨cause, refused, same, rfl⟩ | ⟨start, woken, ends⟩
  · cases same
    exact Or.inl ⟨refused_of_awake refused, rfl⟩
  · right
    obtain ⟨count, last, passes, closes⟩ := Round.ends_iff.mp ends
    have passed := passes_machine passes
    obtain ⟨failing, same⟩ := Machine.round_fails_iff.mp (closes_machine closes)
    rw [← same] at passed failing
    have running := Machine.passes_suspension passed (Machine.awake_suspension woken)
    refine ⟨⟨⟨start, count, woken, passed, Machine.passes_steps passed⟩, failing, running, ?_, fault.kind_cases⟩,
      resume_again running failing⟩
    rcases after.machine.hasBudget_or_exhausted with budget | ⟨limit, limited, spent⟩
    · exact Or.inr (Machine.advance_fails budget failing)
    · rw [Machine.advance_of_exhausted limited spent] at failing
      cases failing
      exact Or.inl rfl

/-- The awaited word is stored and an addition is completed; the next one writes to no cell. -/
theorem resume_fails_after_addition : ∃ waiting after,
    (resume none).Ends (load [3, 0, 1101, 1, 1, 1, 1101, 1, 1, -1, 99] false none)
      (.ok (.awaitingInput 0)) waiting ∧
    (resume (some 5)).Ends waiting (.error (.negativeAddress (-1))) after ∧
    BrokenOff waiting (some 5) (.negativeAddress (-1)) after.machine ∧
    ∀ value', ∃ again, again.machine = after.machine ∧ ∀ outcome final,
      (resume value').Ends after outcome final ↔
        outcome = .error (.negativeAddress (-1)) ∧ final = again := by
  refine ⟨_, _, ⟨9, rfl⟩, ⟨9, rfl⟩, ?_⟩
  refine (resume_fails_between_instructions ⟨9, rfl⟩).resolve_left ?_
  rintro ⟨refused, -⟩
  cases refused with
  | noCell waiting _ => cases waiting

end Intcode.Session
