import Intcode.Proofs.Stepping

/-! Whether the stepping calls report all that a machine emits. Calls are made in any order
on one machine; what they answer is set against the words emitted, which are those that
plain resumptions with the same input emit. -/

namespace Intcode.Session

inductive Request where
  | step (value : Int)
  | stepRead (count : Int)
  | stepN (values : List Int) (count : Int)
  | waitForInput
deriving DecidableEq, Repr

/-- Make a call and answer with the outputs it reports. There is no answer where the machine
halted before they were all collected. -/
def Request.perform : Request → Call Session (Option (List Int))
  | step value => (fun (output, _) => some output.toList) <$> Session.step value
  | stepRead count => Session.stepRead count
  | stepN values count => Session.stepN values count
  | waitForInput => (fun _ => some []) <$> Session.waitForInput

/-- A call that was made: where it met the machine, what it reported and where it left it. -/
structure Reply where
  request : Request
  met : Option Suspension
  outputs : List Int
  left : Option Suspension
deriving DecidableEq, Repr

namespace Reply

def consumed (reply : Reply) : List Int :=
  match reply.request with
  | .step value => Session.consumed reply.met value
  | .stepN values _ => values
  | _ => []

/-- The word that was emitted, but that neither this call nor a later one reports. -/
def unreported (reply : Reply) : List Int :=
  match reply.request with
  | .stepN values count => Session.unreported values count reply.left
  | _ => []

def emitted (reply : Reply) : List Int := reply.outputs ++ reply.unreported

end Reply

/-- Calls that all succeed, made one after the other. -/
inductive Calls : Session → List Reply → Session → Prop where
  | done : Calls session [] session
  | call (request : Request) (answered : request.perform.Ends before (.ok (some outputs)) middle)
    (calls : Calls middle replies after) :
    Calls before
      (⟨request, before.machine.suspension, outputs, middle.machine.suspension⟩ :: replies) after

theorem Request.accounted {request : Request} {before after : Session} {outputs : List Int}
    (answered : request.perform.Ends before (.ok (some outputs)) after)
    (reply : Reply) (same : reply = ⟨request, before.machine.suspension, outputs, after.machine.suspension⟩) :
    Accounted before reply.consumed reply.emitted after := by
  subst same
  cases request with
  | step value =>
    obtain ⟨⟨output, finished⟩, ends, made⟩ := answered.of_map_ok
    cases made
    have went := step_accounted ends
    rwa [← List.append_nil output.toList] at went
  | stepRead count =>
    have went := (stepRead_resumed answered).accounted
    rwa [← List.append_nil outputs] at went
  | stepN values count => exact (stepN_resumed answered).accounted
  | waitForInput =>
    obtain ⟨asked, ends, made⟩ := answered.of_map_ok
    cases made
    exact (waitForInput_resumed ends).accounted

theorem Calls.accounted {before after : Session} {replies : List Reply}
    (calls : Calls before replies after) :
    Accounted before (replies.flatMap (·.consumed)) (replies.flatMap (·.emitted)) after := by
  induction calls with
  | done => exact .refl _
  | call request answered _ ih =>
    simp only [List.flatMap_cons]
    exact (Request.accounted answered _ rfl).trans ih

private theorem length_reported_le (replies : List Reply) :
    (replies.flatMap (·.outputs)).length ≤ (replies.flatMap (·.emitted)).length := by
  induction replies with
  | nil => exact Nat.le_refl 0
  | cons reply rest ih =>
    simp only [List.flatMap_cons, List.length_append, Reply.emitted] at ih ⊢
    omega

theorem reported_eq_iff (replies : List Reply) :
    replies.flatMap (·.outputs) = replies.flatMap (·.emitted) ↔
      ∀ reply ∈ replies, reply.unreported = [] := by
  induction replies with
  | nil => simp
  | cons reply rest ih =>
    simp only [List.flatMap_cons, Reply.emitted, List.append_assoc, List.append_cancel_left_eq,
      List.forall_mem_cons]
    constructor
    · intro same
      have shorter := length_reported_le rest
      have whole := congrArg List.length same
      rw [List.length_append] at whole
      have nothing : reply.unreported = [] := List.eq_nil_of_length_eq_zero (by
        simp only [Reply.emitted] at shorter
        omega)
      rw [nothing, List.nil_append] at same
      exact ⟨nothing, ih.mp same⟩
    · rintro ⟨nothing, others⟩
      rw [nothing, List.nil_append]
      exact ih.mpr others

/-- The calls report all that the machine emitted, which plain resumptions emit as well, just
if none of them fed the machine until it emitted a word while collecting none. -/
theorem reported_eq_emitted_iff {words : List Int} {trace : Bool} {limit : Option Int}
    {replies : List Reply} {after : Session} (calls : Calls (load words trace limit) replies after) :
    (∃ plain, Resumed (load words trace limit) (replies.flatMap (·.consumed)) after.emitted plain ∧
      plain.machine = after.machine) ∧
    (replies.flatMap (·.outputs) = after.emitted ↔ ∀ reply ∈ replies, reply.unreported = []) := by
  have accounted := calls.accounted
  have journal : after.emitted = replies.flatMap (·.emitted) := accounted.journal
  rw [journal]
  exact ⟨accounted.plain _ rfl, reported_eq_iff replies⟩

theorem reported_of_two_outputs : ∃ replies after,
    Calls (load [3, 10, 104, 7, 4, 10, 99] false none) replies after ∧
    replies.map (·.request) = [.waitForInput, .stepN [5] 2] ∧
    (∃ plain, Resumed (load [3, 10, 104, 7, 4, 10, 99] false none) [5] [7, 5] plain ∧
      plain.machine = after.machine) ∧
    (replies.flatMap (·.outputs) = [7, 5] ↔ ∀ reply ∈ replies, reply.unreported = []) := by
  have calls : Calls (load [3, 10, 104, 7, 4, 10, 99] false none) _ _ :=
    .call .waitForInput ⟨9, rfl⟩ (.call (.stepN [5] 2) ⟨9, rfl⟩ .done)
  exact ⟨_, _, calls, rfl, reported_eq_emitted_iff calls⟩

/-- Feeding a word and collecting nothing leaves an output that reading then passes over,
while collecting one reports it. -/
theorem unreported_of_stepN_zero : ∃ replies after,
    Calls (load [3, 10, 104, 7, 104, 8, 99] false none) replies after ∧
    replies.map (·.request) = [.waitForInput, .stepN [5] 0, .stepRead 1] ∧
    replies.flatMap (·.outputs) = [8] ∧ after.emitted = [7, 8] ∧
    (∃ plain, Resumed (load [3, 10, 104, 7, 104, 8, 99] false none) [5] [7, 8] plain ∧
      plain.machine = after.machine) ∧
    ∃ waiting collected, waitForInput.Ends (load [3, 10, 104, 7, 104, 8, 99] false none)
      (.ok true) waiting ∧ (stepN [5] 1).Ends waiting (.ok (some [7])) collected := by
  have calls : Calls (load [3, 10, 104, 7, 104, 8, 99] false none) _ _ :=
    .call .waitForInput ⟨9, rfl⟩ (.call (.stepN [5] 0) ⟨9, rfl⟩ (.call (.stepRead 1) ⟨9, rfl⟩ .done))
  exact ⟨_, _, calls, rfl, rfl, rfl, calls.accounted.plain _ rfl, _, _, ⟨9, rfl⟩, ⟨9, rfl⟩⟩

end Intcode.Session
