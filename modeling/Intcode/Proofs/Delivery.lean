import Intcode.Proofs.Budget

/-! Whatever a run emits is delivered, also when it fails later. A run that ends does so where no
word waits: the machine halts, asks for a word, or fails at an instruction that emits nothing. -/

namespace Intcode.Exchange

variable {before after : Exchange}

theorem served_opened (opened : before.closed = false) (suspension : Suspension) :
    (before.served suspension).2.closed = false := by
  have woken (value : Option Int) (exchange : Exchange) : (exchange.woken value).2.closed = exchange.closed := by
    unfold Exchange.woken
    split <;> rfl
  cases suspension with
  | complete => exact opened
  | producedOutput value =>
    rw [served_output opened, woken]
    exact opened
  | awaitingInput address =>
    cases supply : before.inputs with
    | nil => rw [served_input_nil opened supply, opened]
    | cons value rest => rw [served_input_cons opened supply, woken]; exact opened

private theorem turn_opened (opened : before.closed = false) : (turn before).2.closed = false := by
  rcases went : Session.round before.session with ⟨reply, session⟩
  rw [turn_eq went]
  rcases reply with fault | _ | suspension
  · exact opened
  · exact opened
  · exact served_opened (show ({ before with session } : Exchange).closed = false from opened) suspension

theorem served_delivers {suspension : Suspension} {outcome : Except Fault Unit} (opened : before.closed = false)
    (stands : before.session.machine.suspension = some suspension)
    (served : before.served suspension = (outcome.map some, after)) :
    after.session = before.session ∧ after.outputs = before.outputs ∧ suspension.words = [] := by
  cases suspension with
  | complete =>
    cases (Prod.mk.inj served).2
    exact ⟨rfl, rfl, rfl⟩
  | producedOutput value =>
    have goes := @woken_after_output { before with outputs := before.outputs.push value } value stands
    rw [served_output opened, goes] at served
    cases outcome <;> cases served
  | awaitingInput address =>
    cases supply : before.inputs with
    | nil =>
      rw [served_input_nil opened supply] at served
      cases (Prod.mk.inj served).2
      exact ⟨rfl, rfl, rfl⟩
    | cons value rest =>
      have goes := @woken_with_input { before with inputs := rest } address value stands
      rw [served_input_cons opened supply, goes] at served
      split at served
      · cases outcome <;> cases served
      · cases (Prod.mk.inj served).2
        exact ⟨rfl, rfl, rfl⟩

/-- The last turn leaves no word undelivered: it halts or fails, and what it emitted before was taken. -/
theorem closes_delivers {outcome : Except Fault Unit} (underway : before.Underway) (opened : before.closed = false)
    (closes : Round.Closes turn before outcome after) : after.outputs.toList = after.session.emitted := by
  rcases went : Session.round before.session with ⟨reply, session⟩
  have turned := turn_eq went
  rcases reply with fault | _ | suspension
  · cases (Prod.mk.inj (closes.symm.trans turned)).2
    exact underway.delivered.trans (Session.round_fails_emits went).symm
  · exact (closes.not_goes turned).elim
  · obtain ⟨stands, emits⟩ := Session.round_emits underway.awake went
    have stopped : ({ before with session } : Exchange).closed = false := opened
    obtain ⟨same, outputs, silent⟩ := served_delivers stopped stands (turned.symm.trans closes)
    rw [same, outputs, emits]
    simpa [silent] using underway.delivered

/-- A run of a program delivers all the words that it emits, also if it fails. -/
theorem drive_delivers {program : Program} {inputs : List Int} {trace : Bool} {limit : Option Int}
    {outcome : Except Fault Unit} (ends : drive.Ends (program.exchange inputs trace limit) outcome after) :
    after.closed = false ∧ after.outputs.toList = after.session.emitted := by
  obtain ⟨count, last, passes, closes⟩ := Round.ends_iff.mp ((ends_drive_of_running rfl).mp ends)
  have kept := passes.preserves (fun underway went => Underway.turn underway went)
    (underway_exchange program inputs trace limit)
  have goes {state next : Exchange} (opened : state.closed = false) (went : turn state = (.ok none, next)) :
      next.closed = false := by
    have same := turn_opened opened
    rwa [went] at same
  have opened : last.closed = false := passes.preserves goes rfl
  have final := turn_opened opened
  rw [closes] at final
  exact ⟨final, closes_delivers kept opened closes⟩

end Intcode.Exchange
