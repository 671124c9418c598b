import Intcode.Proofs.Running

/-! The words that a session emits. A resumption emits the word it stops with and no
other, so that resuming again and again yields all the words there are. -/

namespace Intcode

def Event.word? : Event → Option Int
  | emitted value => some value
  | _ => none

def Suspension.words : Suspension → List Int
  | producedOutput value => [value]
  | _ => []

namespace Session

def picked {α : Type} (pick : Event → Option α) (session : Session) : List α :=
  session.journal.toList.filterMap pick

section Picked

variable {α : Type} {pick : Event → Option α}

theorem picked_note (session : Session) (event : Event) :
    (session.note event).picked pick = session.picked pick ++ (pick event).toList := by
  unfold picked note
  rw [Array.toList_push, List.filterMap_append]
  cases found : pick event <;> simp [found]

theorem picked_note_silent (session : Session) {event : Event} (silent : pick event = none) :
    (session.note event).picked pick = session.picked pick := by
  rw [picked_note, silent]
  exact List.append_nil _

theorem picked_received (silent : ∀ word, pick (.dropped word) = none) (session : Session) (value : Option Int) :
    (session.received value).picked pick = session.picked pick := by
  unfold received
  split
  · rfl
  · exact picked_note_silent session (silent _)
  · rfl

theorem picked_traced (silent : ∀ pc base instruction, pick (.fetched pc base instruction) = none)
    (session : Session) (instruction : Instruction) :
    (session.traced instruction).picked pick = session.picked pick := by
  unfold traced
  split
  · exact picked_note_silent session (silent _ _ _)
  · rfl

theorem picked_noteEffect (emits : ∀ word, pick (.emitted word) = none)
    (halts : ∀ steps, pick (.halted steps) = none) (session : Session) (effect : Effect) :
    (session.noteEffect effect).picked pick = session.picked pick := by
  cases effect with
  | emit word => exact picked_note_silent session (emits word)
  | halt => exact picked_note_silent session (halts _)
  | _ => rfl

end Picked

/-- The words emitted so far, in order. -/
def emitted (session : Session) : List Int := session.journal.toList.filterMap Event.word?

@[simp]
theorem emitted_withMachine (session : Session) (machine : Machine) :
    (session.withMachine machine).emitted = session.emitted := rfl

@[simp]
theorem emitted_note (session : Session) (event : Event) :
    (session.note event).emitted = session.emitted ++ event.word?.toList := picked_note session event

theorem emitted_received (session : Session) (value : Option Int) :
    (session.received value).emitted = session.emitted := picked_received (fun _ => rfl) session value

private theorem emitted_traced (session : Session) (instruction : Instruction) :
    (session.traced instruction).emitted = session.emitted := picked_traced (fun _ _ _ => rfl) session instruction

theorem round_emits {session after : Session} {left : Option Suspension}
    (awake : session.machine.suspension = none) (went : round session = (.ok left, after)) :
    after.machine.suspension = left ∧ after.emitted = session.emitted ++ left.toList.flatMap (·.words) := by
  rw [round_eq] at went
  cases fetched : session.machine.fetch with
  | error fault => rw [fetched] at went; cases went
  | ok instruction =>
    cases found : instruction.effect session.machine with
    | error fault => simp only [fetched, found] at went; cases went
    | ok effect =>
      simp only [fetched, found] at went
      cases went
      refine ⟨rfl, ?_⟩
      rw [emitted_withMachine, ← emitted_traced session instruction]
      cases effect <;>
        simp [noteEffect, Machine.perform, Machine.apply, awake, Event.word?, Suspension.words]

theorem round_fails_emits {session after : Session} {fault : Fault}
    (failed : round session = (.error fault, after)) : after.emitted = session.emitted := by
  rw [round_eq] at failed
  cases fetched : session.machine.fetch with
  | error cause =>
    rw [fetched] at failed
    cases failed
    rfl
  | ok instruction =>
    cases found : instruction.effect session.machine with
    | error cause =>
      simp only [fetched, found] at failed
      cases failed
      exact emitted_traced session instruction
    | ok effect =>
      simp only [fetched, found] at failed
      cases failed

private theorem passes_emits {count : Nat} {session after : Session} (awake : session.machine.suspension = none)
    (passes : Round.Passes round count session after) : after.emitted = session.emitted := by
  induction passes with
  | rest => rfl
  | next went _ ih =>
    obtain ⟨stays, emits⟩ := round_emits awake went
    rw [ih stays, emits]
    exact List.append_nil _

theorem resume_emits {value : Option Int} {session after : Session} {suspension : Suspension}
    (ends : (resume value).Ends session (.ok suspension) after) :
    after.machine.suspension = some suspension ∧
      after.emitted = session.emitted ++ suspension.words := by
  rcases ends_resume.mp ends with ⟨fault, _, impossible, _⟩ | ⟨start, woken, ran⟩
  · cases impossible
  · obtain ⟨count, last, passes, closes⟩ := Round.ends_iff.mp ran
    have awake := Machine.awake_suspension woken
    have still := Machine.passes_suspension (passes_machine passes) awake
    obtain ⟨stopped, emits⟩ := round_emits still (Round.closes_ok.mp closes)
    refine ⟨stopped, ?_⟩
    rw [emits, passes_emits awake passes, emitted_withMachine, emitted_received]
    simp

/-- Plain resumptions, one after the other: a word is supplied where the machine awaits
one, and nowhere else. The words supplied and the words emitted are kept in order. -/
inductive Resumed : Session → List Int → List Int → Session → Prop where
  | rest : Resumed session [] [] session
  | unfed (ends : (resume none).Ends before (.ok suspension) middle)
    (resumed : Resumed middle supplied words after) :
    Resumed before supplied (suspension.words ++ words) after
  | fed (awaiting : before.machine.suspension = some (.awaitingInput address))
    (ends : (resume (some value)).Ends before (.ok suspension) middle)
    (resumed : Resumed middle supplied words after) :
    Resumed before (value :: supplied) (suspension.words ++ words) after

/-- Between two sessions these words were consumed and these emitted, and plain
resumptions of the same machine do the same. -/
structure Accounted (before : Session) (consumed words : List Int) (after : Session) : Prop where
  journal : after.emitted = before.emitted ++ words
  plain : ∀ other, other.machine = before.machine →
    ∃ final, Resumed other consumed words final ∧ final.machine = after.machine

namespace Resumed

theorem trans {before middle after : Session} {supplied supplied' words words' : List Int}
    (resumed : Resumed before supplied words middle) (more : Resumed middle supplied' words' after) :
    Resumed before (supplied ++ supplied') (words ++ words') after := by
  induction resumed with
  | rest => exact more
  | unfed ends _ ih =>
    rw [List.append_assoc]
    exact .unfed ends (ih more)
  | fed awaiting ends _ ih =>
    rw [List.append_assoc, List.cons_append]
    exact .fed awaiting ends (ih more)

theorem of_none {before after : Session} {suspension : Suspension}
    (ends : (resume none).Ends before (.ok suspension) after) : Resumed before [] suspension.words after := by
  have once := Resumed.unfed ends .rest
  rwa [List.append_nil] at once

theorem of_fed {before after : Session} {suspension : Suspension} {address value : Int}
    (awaiting : before.machine.suspension = some (.awaitingInput address))
    (ends : (resume (some value)).Ends before (.ok suspension) after) :
    Resumed before [value] suspension.words after := by
  have once := Resumed.fed awaiting ends .rest
  rwa [List.append_nil] at once

end Resumed

namespace Accounted

theorem refl (session : Session) : Accounted session [] [] session where
  journal := (List.append_nil _).symm
  plain other same := ⟨other, .rest, same⟩

theorem trans {before middle after : Session} {consumed consumed' words words' : List Int}
    (first : Accounted before consumed words middle)
    (second : Accounted middle consumed' words' after) :
    Accounted before (consumed ++ consumed') (words ++ words') after where
  journal := by rw [second.journal, first.journal, List.append_assoc]
  plain other same := by
    obtain ⟨between, resumed, reached⟩ := first.plain other same
    obtain ⟨final, more, left⟩ := second.plain between reached
    exact ⟨final, resumed.trans more, left⟩

theorem of_fed {before after : Session} {suspension : Suspension} {address value : Int}
    (awaiting : before.machine.suspension = some (.awaitingInput address))
    (ends : (resume (some value)).Ends before (.ok suspension) after) :
    Accounted before [value] suspension.words after where
  journal := (resume_emits ends).2
  plain other same := by
    obtain ⟨final, resumed, left⟩ := ends_resume_alike same rfl ends
    exact ⟨final, .of_fed (by rw [same]; exact awaiting) resumed, left⟩

theorem of_unfed {before after : Session} {suspension : Suspension} {value : Option Int}
    (idle : ∀ address, before.machine.suspension ≠ some (.awaitingInput address))
    (ends : (resume value).Ends before (.ok suspension) after) :
    Accounted before [] suspension.words after where
  journal := (resume_emits ends).2
  plain other same := by
    obtain ⟨final, resumed, left⟩ := ends_resume_alike same (Machine.awake_of_idle idle value).symm ends
    exact ⟨final, .of_none resumed, left⟩

theorem of_none {before after : Session} {suspension : Suspension}
    (ends : (resume none).Ends before (.ok suspension) after) :
    Accounted before [] suspension.words after := by
  refine of_unfed (fun address awaiting => ?_) ends
  rcases ends_resume.mp ends with ⟨fault, _, impossible, _⟩ | ⟨start, woken, _⟩
  · cases impossible
  · simp only [Machine.awake, awaiting] at woken
    cases woken

end Accounted

theorem Resumed.accounted {before after : Session} {supplied words : List Int}
    (resumed : Resumed before supplied words after) : Accounted before supplied words after := by
  induction resumed with
  | rest => exact .refl _
  | unfed ends _ ih => exact (Accounted.of_none ends).trans ih
  | fed awaiting ends _ ih => exact (Accounted.of_fed awaiting ends).trans ih

end Session
end Intcode
