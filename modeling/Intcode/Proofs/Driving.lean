import Intcode.Proofs.Cells
import Intcode.Proofs.HostRounds

/-! Driving a machine, told without its suspensions. In one turn the machine performs one
instruction, and its host serves at once whatever that asks for. Driving is repeating
turns, however many calls of the machine that takes. -/

namespace Intcode.Exchange

def woken (exchange : Exchange) (value : Option Int) : Except Fault (Option Unit) × Exchange :=
  match exchange.session.machine.awake value with
  | .error fault => (.error fault, exchange)
  | .ok machine =>
    (.ok none, { exchange with session := (exchange.session.received value).withMachine machine })

def served (exchange : Exchange) : Suspension → Except Fault (Option Unit) × Exchange
  | .complete => (.ok (some ()), exchange)
  | .producedOutput value =>
    if exchange.closed then (.error (.outputRefused value), exchange)
    else { exchange with outputs := exchange.outputs.push value }.woken none
  | .awaitingInput _ =>
    if exchange.closed then (.error .inputRefused, exchange)
    else match exchange.inputs with
      | [] => (.error .inputDrained, exchange)
      | value :: rest => { exchange with inputs := rest }.woken (some value)

def settled (exchange : Exchange) :
    Except Fault (Option Suspension) → Except Fault (Option Unit) × Exchange
  | .error fault => (.error fault, exchange)
  | .ok none => (.ok none, exchange)
  | .ok (some suspension) => exchange.served suspension

/-- Perform one instruction and serve what it asks for. -/
def turn : Round Exchange Unit := fun exchange =>
  let (outcome, session) := Session.round exchange.session
  { exchange with session }.settled outcome

theorem steady_act {α : Type} {call : Call Session α} (steady : call.Steady) : (act call).Steady :=
  Call.steady_onPart steady

theorem ends_act {α : Type} {call : Call Session α} {exchange after : Exchange}
    {outcome : Except Fault α} :
    (act call).Ends exchange outcome after ↔
      ∃ session, call.Ends exchange.session outcome session ∧ after = { exchange with session } :=
  Call.ends_onPart

private theorem ends_act_resume {value : Option Int} {exchange after : Exchange}
    {outcome : Except Fault Suspension} :
    (act (Session.resume value)).Ends exchange outcome after ↔
      (∃ fault, exchange.woken value = (.error fault, after) ∧ outcome = .error fault) ∨
      ∃ middle, exchange.woken value = (.ok none, middle) ∧
        (act Session.round.repeated).Ends middle outcome after := by
  simp only [ends_act, Session.ends_resume, woken]
  cases exchange.session.machine.awake value with
  | error fault =>
    constructor
    · rintro ⟨session, ⟨cause, same, rfl, rfl⟩ | ⟨machine, impossible, _⟩, rfl⟩
      · cases same
        exact Or.inl ⟨fault, rfl, rfl⟩
      · cases impossible
    · rintro (⟨cause, same, rfl⟩ | ⟨middle, impossible, _⟩)
      · cases same
        exact ⟨exchange.session, Or.inl ⟨fault, rfl, rfl, rfl⟩, rfl⟩
      · cases impossible
  | ok machine => simp

theorem take_apply (bound : Nat) (exchange : Exchange) :
    take bound exchange =
      if exchange.closed then some (.error .inputRefused, exchange)
      else match exchange.inputs with
        | [] => some (.error .inputDrained, exchange)
        | value :: rest => some (.ok value, { exchange with inputs := rest }) := by
  obtain ⟨session, inputs, outputs, closed⟩ := exchange
  cases closed with
  | true => rfl
  | false => cases inputs <;> rfl

theorem deliver_apply (value : Int) (bound : Nat) (exchange : Exchange) :
    deliver value bound exchange =
      if exchange.closed then some (.error (.outputRefused value), exchange)
      else some (.ok (), { exchange with outputs := exchange.outputs.push value }) := by
  obtain ⟨session, inputs, outputs, closed⟩ := exchange
  cases closed <;> rfl

theorem ends_serve {suspension : Suspension} (going : suspension ≠ .complete)
    {exchange after : Exchange} {outcome : Except Fault Suspension} :
    (serve suspension).Ends exchange outcome after ↔
      (∃ fault, exchange.served suspension = (.error fault, after) ∧ outcome = .error fault) ∨
      ∃ middle, exchange.served suspension = (.ok none, middle) ∧
        (act Session.round.repeated).Ends middle outcome after := by
  cases suspension with
  | complete => exact (going rfl).elim
  | producedOutput value =>
    unfold serve served
    cases closed : exchange.closed with
    | true =>
      rw [Call.ends_bind_of_error fun bound => by rw [deliver_apply, if_pos closed]]
      simp; grind
    | false =>
      rw [Call.ends_bind_of_ok fun bound => by rw [deliver_apply, closed]; rfl]
      exact ends_act_resume
  | awaitingInput address =>
    unfold serve served
    cases closed : exchange.closed with
    | true =>
      rw [Call.ends_bind_of_error fun bound => by rw [take_apply, if_pos closed]]
      simp; grind
    | false =>
      cases inputs : exchange.inputs with
      | nil =>
        rw [Call.ends_bind_of_error fun bound => by rw [take_apply, closed, inputs]; rfl]
        simp; grind
      | cons value rest =>
        rw [Call.ends_bind_of_ok fun bound => by rw [take_apply, closed, inputs]; rfl]
        exact ends_act_resume

theorem serveAll_complete (rounds : Nat) : serveAll rounds .complete = pure () := by
  cases rounds <;> rfl

theorem serveAll_succ (rounds : Nat) {suspension : Suspension} (going : suspension ≠ .complete) :
    serveAll (rounds + 1) suspension = serve suspension >>= serveAll rounds := by
  cases suspension with
  | complete => exact (going rfl).elim
  | producedOutput value => rfl
  | awaitingInput address => rfl

theorem served_not_done {suspension : Suspension} (going : suspension ≠ .complete)
    {exchange after : Exchange} (done : exchange.served suspension = (.ok (some ()), after)) : False := by
  have never (ready : Exchange) (value : Option Int) : ready.woken value ≠ (.ok (some ()), after) := by
    unfold woken
    cases ready.session.machine.awake value <;> simp
  cases suspension with
  | complete => exact going rfl
  | producedOutput value =>
    simp only [served] at done
    split at done
    · cases done
    · exact never _ _ done
  | awaitingInput address =>
    simp only [served] at done
    split at done
    · cases done
    · split at done
      · cases done
      · exact never _ _ done

private theorem host_serve (suspension : Suspension) : host.serve suspension = serve suspension := by
  cases suspension <;> rfl

theorem host_serveAll (rounds : Nat) (suspension : Suspension) :
    host.serveAll rounds suspension = serveAll rounds suspension := by
  induction rounds generalizing suspension with
  | zero => cases suspension <;> rfl
  | succ rounds ih =>
    cases suspension with
    | complete => rfl
    | awaitingInput address | producedOutput value =>
      unfold Host.serveAll serveAll
      rw [host_serve, funext ih]

theorem host_drive : host.drive = drive := by
  unfold Host.drive drive
  simp only [host_serveAll]
  rfl

theorem steady_host : host.Steady where
  take := Call.steady_of_instant fun _ _ => funext fun exchange => (take_apply _ exchange).trans (take_apply _ exchange).symm
  deliver word := Call.steady_of_instant fun _ _ => funext fun exchange =>
    (deliver_apply word _ exchange).trans (deliver_apply word _ exchange).symm

theorem steady_serve (suspension : Suspension) : (serve suspension).Steady :=
  host_serve suspension ▸ steady_host.serve suspension

theorem steady_serveAll (rounds : Nat) (suspension : Suspension) : (serveAll rounds suspension).Steady :=
  host_serveAll rounds suspension ▸ steady_host.serveAll rounds suspension

theorem serveAll_more {rounds more bound : Nat} (enough : rounds ≤ more) {suspension : Suspension}
    {exchange : Exchange} {result : Except Fault Unit × Exchange}
    (answered : serveAll rounds suspension bound exchange = some result) :
    serveAll more suspension bound exchange = some result := by
  rw [← host_serveAll] at answered ⊢
  exact Host.serveAll_more enough answered

def running (rounds : Nat) : Call Exchange Unit :=
  act Session.round.repeated >>= serveAll rounds

theorem ends_running {rounds : Nat} {exchange after : Exchange} {outcome : Except Fault Unit} :
    (running rounds).Ends exchange outcome after ↔
      (∃ fault, outcome = .error fault ∧
        (act Session.round.repeated).Ends exchange (.error fault) after) ∨
      ∃ suspension middle, (act Session.round.repeated).Ends exchange (.ok suspension) middle ∧
        (serveAll rounds suspension).Ends middle outcome after :=
  Call.ends_bind (steady_act (Round.steady_repeated _)) (steady_serveAll rounds)

theorem ends_serveAll_succ {rounds : Nat} {suspension : Suspension} {exchange after : Exchange}
    {outcome : Except Fault Unit} :
    (serveAll (rounds + 1) suspension).Ends exchange outcome after ↔
      exchange.served suspension = (outcome.map some, after) ∨
      ∃ middle, exchange.served suspension = (.ok none, middle) ∧
        (running rounds).Ends middle outcome after := by
  by_cases halted : suspension = .complete
  · subst halted
    rw [serveAll_complete, Call.ends_pure]
    cases outcome with
    | error fault => simp [served, Except.map]
    | ok done => simp [served, Except.map, eq_comm]
  · rw [serveAll_succ rounds halted, Call.ends_bind (steady_serve suspension) (steady_serveAll rounds)]
    simp only [ends_serve halted, ends_running]
    constructor
    · rintro (⟨fault, rfl, ⟨cause, found, same⟩ | ⟨middle, found, ends⟩⟩ |
        ⟨next, middle, ⟨cause, found, impossible⟩ | ⟨ready, found, ends⟩, rest⟩)
      · cases same
        exact Or.inl found
      · exact Or.inr ⟨middle, found, Or.inl ⟨fault, rfl, ends⟩⟩
      · cases impossible
      · exact Or.inr ⟨ready, found, Or.inr ⟨next, middle, ends, rest⟩⟩
    · rintro (found | ⟨ready, found, ⟨fault, rfl, ends⟩ | ⟨next, middle, ends, rest⟩⟩)
      · cases outcome with
        | error fault => exact Or.inl ⟨fault, rfl, Or.inl ⟨fault, found, rfl⟩⟩
        | ok done => exact (served_not_done halted found).elim
      · exact Or.inl ⟨fault, rfl, Or.inr ⟨ready, found, ends⟩⟩
      · exact Or.inr ⟨next, middle, Or.inr ⟨ready, found, ends⟩, rest⟩

theorem turn_eq {exchange : Exchange} {outcome : Except Fault (Option Suspension)} {session : Session}
    (round : Session.round exchange.session = (outcome, session)) :
    turn exchange = { exchange with session }.settled outcome := by
  unfold turn
  rw [round]

/-- The machine alone decides how a turn goes, and the journal is kept beside it. -/
theorem turn_machine {exchange : Exchange} {outcome : Except Fault (Option Suspension)}
    {machine : Machine} (round : exchange.session.machine.round = (outcome, machine)) :
    ∃ journal, turn exchange =
      { exchange with session := { machine, journal } }.settled outcome := by
  have same := Session.round_machine exchange.session
  rw [round] at same
  obtain ⟨reply, rfl⟩ := Prod.mk.inj same
  exact ⟨exchange.session.round.2.journal, turn_eq (Prod.ext reply rfl)⟩

theorem woken_after_output {exchange : Exchange} {value : Int}
    (stopped : exchange.session.machine.suspension = some (.producedOutput value)) :
    exchange.woken none = (.ok none, { exchange with
      session := exchange.session.withMachine { exchange.session.machine with suspension := none } }) := by
  simp only [woken, Machine.awake, Session.received, stopped]

theorem woken_with_input {exchange : Exchange} {address : Int} (value : Int)
    (stopped : exchange.session.machine.suspension = some (.awaitingInput address)) :
    exchange.woken (some value) =
      if 0 ≤ address then (.ok none, { exchange with
        session := exchange.session.withMachine { exchange.session.machine with
          memory := exchange.session.machine.memory.put address.toNat value, suspension := none } })
      else (.error (.negativeAddress address), exchange) := by
  simp only [woken, Machine.awake, Session.received, stopped, Memory.write_eq]
  by_cases inside : 0 ≤ address
  · simp only [if_pos inside, Outcome.map_ok]
  · simp only [if_neg inside, Outcome.map_error]

theorem served_output {exchange : Exchange} (opened : exchange.closed = false) (value : Int) :
    exchange.served (.producedOutput value) =
      { exchange with outputs := exchange.outputs.push value }.woken none := by
  simp only [served, if_neg (ne_true_of_eq_false opened)]

theorem served_input_nil {exchange : Exchange} (opened : exchange.closed = false)
    (supply : exchange.inputs = []) (address : Int) :
    exchange.served (.awaitingInput address) = (.error .inputDrained, exchange) := by
  simp only [served, if_neg (ne_true_of_eq_false opened), supply]

theorem served_input_cons {exchange : Exchange} (opened : exchange.closed = false) {value : Int}
    {rest : List Int} (supply : exchange.inputs = value :: rest) (address : Int) :
    exchange.served (.awaitingInput address) = { exchange with inputs := rest }.woken (some value) := by
  simp only [served, if_neg (ne_true_of_eq_false opened), supply]

theorem passes_turn {count : Nat} {before after : Session}
    (passes : Round.Passes Session.round count before after) (exchange : Exchange) :
    Round.Passes turn count { exchange with session := before } { exchange with session := after } := by
  induction passes with
  | rest => exact .rest
  | @next before _ _ _ went _ ih =>
    have turned : turn { exchange with session := before } = _ := turn_eq went
    exact .next turned ih

theorem turn_of_run {exchange middle : Exchange} {outcome : Except Fault Suspension}
    (ends : (act Session.round.repeated).Ends exchange outcome middle) :
    ∃ count last, Round.Passes turn count exchange last ∧
      turn last = middle.settled (outcome.map some) := by
  obtain ⟨session, ran, rfl⟩ := ends_act.mp ends
  obtain ⟨count, last, passes, closes⟩ := Round.ends_iff.mp ran
  exact ⟨count, _, passes_turn passes exchange, turn_eq closes⟩

private theorem turns_of_running {rounds : Nat} {exchange after : Exchange} {outcome : Except Fault Unit}
    (ends : (running rounds).Ends exchange outcome after) :
    turn.repeated.Ends exchange outcome after := by
  induction rounds using Nat.strongRecOn generalizing exchange with
  | ind rounds ih =>
    rcases ends_running.mp ends with ⟨fault, rfl, ran⟩ | ⟨suspension, middle, ran, rest⟩
    · obtain ⟨count, last, passes, turned⟩ := turn_of_run ran
      exact Round.ends_iff.mpr ⟨count, last, passes, turned⟩
    · obtain ⟨count, last, passes, turned⟩ := turn_of_run ran
      change turn last = middle.served suspension at turned
      refine passes.ends_iff.mpr ?_
      cases rounds with
      | zero =>
        cases suspension with
        | complete =>
          rw [serveAll_complete, Call.ends_pure] at rest
          obtain ⟨rfl, rfl⟩ := rest
          exact Round.ends_iff.mpr ⟨0, last, .rest, turned⟩
        | producedOutput value => obtain ⟨bound, impossible⟩ := rest; cases impossible
        | awaitingInput address => obtain ⟨bound, impossible⟩ := rest; cases impossible
      | succ rounds =>
        rcases ends_serveAll_succ.mp rest with found | ⟨next, found, rest⟩
        · exact Round.ends_iff.mpr ⟨0, last, .rest, turned.trans found⟩
        · have onward := ih rounds (Nat.lt_succ_self rounds) rest
          exact (Round.Passes.next (turned.trans found) .rest).ends_iff.mpr onward

theorem run_of_stop {exchange : Exchange} {outcome : Except Fault Suspension} {session : Session}
    (stopped : Session.round exchange.session = (outcome.map some, session)) :
    (act Session.round.repeated).Ends exchange outcome { exchange with session } :=
  ends_act.mpr ⟨session, Round.ends_iff.mpr ⟨0, _, .rest, stopped⟩, rfl⟩

private theorem running_of_goes {rounds : Nat} {exchange after : Exchange} {outcome : Except Fault Unit}
    {session : Session} (went : Session.round exchange.session = (.ok none, session))
    (ends : (running rounds).Ends { exchange with session } outcome after) :
    (running rounds).Ends exchange outcome after := by
  have moved {reply : Except Fault Suspension} {middle : Exchange}
      (ran : (act Session.round.repeated).Ends { exchange with session } reply middle) :
      (act Session.round.repeated).Ends exchange reply middle := by
    obtain ⟨last, rest, rfl⟩ := ends_act.mp ran
    exact ends_act.mpr ⟨last, (Round.Passes.next went .rest).ends_iff.mpr rest, rfl⟩
  rcases ends_running.mp ends with ⟨fault, rfl, ran⟩ | ⟨suspension, middle, ran, rest⟩
  · exact ends_running.mpr (Or.inl ⟨fault, rfl, moved ran⟩)
  · exact ends_running.mpr (Or.inr ⟨suspension, middle, moved ran, rest⟩)

private theorem running_of_turns {exchange after : Exchange} {outcome : Except Fault Unit}
    (ends : turn.repeated.Ends exchange outcome after) :
    ∃ rounds, (running rounds).Ends exchange outcome after := by
  obtain ⟨count, last, passes, closes⟩ := Round.ends_iff.mp ends
  clear ends
  induction passes with
  | @rest exchange =>
    rcases stopped : Session.round exchange.session with ⟨fault | _ | suspension, session⟩
    · have turned : turn exchange = (.error fault, { exchange with session }) := turn_eq stopped
      obtain ⟨rfl, rfl⟩ := closes.unique (Round.closes_error.mpr turned)
      exact ⟨0, ends_running.mpr (Or.inl ⟨fault, rfl, run_of_stop stopped⟩)⟩
    · exact (closes.not_goes (turn_eq stopped)).elim
    · have turned : turn exchange = { exchange with session }.served suspension := turn_eq stopped
      refine ⟨1, ends_running.mpr (Or.inr ⟨suspension, _, run_of_stop stopped, ?_⟩)⟩
      exact ends_serveAll_succ.mpr (Or.inl (turned.symm.trans closes))
  | @next exchange middle _ _ went _ ih =>
    obtain ⟨rounds, ends⟩ := ih closes
    rcases stopped : Session.round exchange.session with ⟨fault | _ | suspension, session⟩
    · have turned : turn exchange = (.error fault, { exchange with session }) := turn_eq stopped
      rw [went] at turned
      cases turned
    · have turned : turn exchange = (.ok none, { exchange with session }) := turn_eq stopped
      rw [went] at turned
      cases turned
      exact ⟨rounds, running_of_goes stopped ends⟩
    · have turned : turn exchange = { exchange with session }.served suspension := turn_eq stopped
      refine ⟨rounds + 1, ends_running.mpr (Or.inr ⟨suspension, _, run_of_stop stopped, ?_⟩)⟩
      exact ends_serveAll_succ.mpr (Or.inr ⟨middle, turned.symm.trans went, ends⟩)

theorem drive_apply (bound : Nat) (exchange : Exchange) :
    drive bound exchange = (act (Session.resume none) >>= serveAll bound) bound exchange := by
  unfold drive
  rw [Call.bind_apply, Call.read_apply]

theorem steady_drive : drive.Steady := host_drive ▸ steady_host.drive

theorem ends_drive {exchange after : Exchange} {outcome : Except Fault Unit} :
    drive.Ends exchange outcome after ↔
      ∃ rounds, (act (Session.resume none) >>= serveAll rounds).Ends exchange outcome after := by
  have same (rounds : Nat) : host.serving rounds = act (Session.resume none) >>= serveAll rounds := by
    rw [Host.serving, funext (host_serveAll rounds)]
    rfl
  rw [← host_drive, steady_host.ends_drive]
  simp only [same]

/-- Driving a machine that is not suspended is repeating turns. -/
theorem ends_drive_of_running {exchange after : Exchange} {outcome : Except Fault Unit}
    (awake : exchange.session.machine.suspension = none) :
    drive.Ends exchange outcome after ↔ turn.repeated.Ends exchange outcome after := by
  have resumed (rounds : Nat) :
      (act (Session.resume none) >>= serveAll rounds).Ends exchange outcome after ↔
        (running rounds).Ends exchange outcome after := by
    rw [Call.ends_bind (steady_act (Session.steady_resume none)) (steady_serveAll rounds), ends_running]
    simp only [ends_act, Session.ends_resume_of_running awake]
  rw [ends_drive]
  simp only [resumed]
  constructor
  · rintro ⟨rounds, ends⟩
    exact turns_of_running ends
  · exact running_of_turns

end Intcode.Exchange
