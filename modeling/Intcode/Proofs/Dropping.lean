import Intcode.Proofs.Emission

/-! Words that are supplied in vain. A resumption drops its word where no word is awaited, and that
is the only way to lose one. So the calls that ask before they supply a word lose none. -/

namespace Intcode

def Event.dropped? : Event → Option Int
  | dropped value => some value
  | _ => none

namespace Session

variable {before after : Session}

def lost (session : Session) : List Int := session.journal.toList.filterMap Event.dropped?

@[simp]
theorem lost_withMachine (session : Session) (machine : Machine) :
    (session.withMachine machine).lost = session.lost := rfl

@[simp]
theorem lost_note (session : Session) (event : Event) :
    (session.note event).lost = session.lost ++ event.dropped?.toList := picked_note session event

/-- The word that a resumption drops. -/
def wasted (met : Option Suspension) (value : Option Int) : List Int :=
  match met with
  | some (.awaitingInput _) => []
  | _ => value.toList

private theorem lost_received (session : Session) (value : Option Int) :
    (session.received value).lost = session.lost ++ wasted session.machine.suspension value := by
  unfold received wasted
  cases session.machine.suspension with
  | none => cases value <;> simp [Event.dropped?]
  | some suspension => cases suspension <;> cases value <;> simp [Event.dropped?]

private theorem lost_traced (session : Session) (instruction : Instruction) :
    (session.traced instruction).lost = session.lost := picked_traced (fun _ _ _ => rfl) session instruction

private theorem lost_noteEffect (session : Session) (effect : Effect) :
    (session.noteEffect effect).lost = session.lost :=
  picked_noteEffect (fun _ => rfl) (fun _ => rfl) session effect

private theorem lost_round (session : Session) : session.round.2.lost = session.lost := by
  rw [round_eq]
  cases session.machine.fetch with
  | error fault => rfl
  | ok instruction =>
    cases found : instruction.effect session.machine with
    | error fault => simp only [found, lost_traced]
    | ok effect => simp only [found, lost_withMachine, lost_noteEffect, lost_traced]

theorem resume_lost {value : Option Int} {suspension : Suspension}
    (ends : (resume value).Ends before (.ok suspension) after) :
    after.lost = before.lost ++ wasted before.machine.suspension value := by
  rcases ends_resume.mp ends with ⟨fault, _, impossible, _⟩ | ⟨start, _, ran⟩
  · cases impossible
  · obtain ⟨count, last, passes, closes⟩ := Round.ends_iff.mp ran
    have still {session next : Session} {reply : Except Fault (Option Suspension)}
        (went : round session = (reply, next)) : next.lost = session.lost := by
      have same := lost_round session
      rwa [went] at same
    have kept {session next : Session} (same : session.lost = ((before.received value).withMachine start).lost)
        (went : round session = (.ok none, next)) : next.lost = _ := (still went).trans same
    rw [still closes, passes.preserves kept rfl, lost_withMachine, lost_received]

theorem Resumed.lost_eq {supplied words : List Int} (resumed : Resumed before supplied words after) :
    after.lost = before.lost := by
  induction resumed with
  | rest => rfl
  | @unfed before _ _ _ _ _ ends _ ih =>
    have nothing : wasted before.machine.suspension none = [] := by
      unfold wasted
      split <;> rfl
    rw [ih, resume_lost ends, nothing, List.append_nil]
  | fed awaiting ends _ ih =>
    rw [ih, resume_lost ends, awaiting]
    exact List.append_nil _

end Session
end Intcode
