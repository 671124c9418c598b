import Intcode.Proofs.Allowance
import Intcode.Proofs.Driving
import Intcode.Proofs.Hosting
import Intcode.Proofs.LongNumbers

/-! The step limit is an exact budget. A turn is taken under a limit as it is taken without
one, until as many turns are over as the limit allows; the turn after those fails and leaves
everything as it was. No suspension in between counts, and nothing else competes: the limit
is looked at before the instruction is. -/

namespace Intcode

namespace Exchange

variable {before after : Exchange}

def limited (exchange : Exchange) (limit : Option Int) : Exchange :=
  { exchange with session := exchange.session.limited limit }

private theorem woken_limited (exchange : Exchange) (value limit : Option Int) :
    (exchange.limited limit).woken value =
      ((exchange.woken value).1, (exchange.woken value).2.limited limit) := by
  simp only [woken, limited, Session.machine_limited, Session.received_limited, Machine.awake_limited]
  cases exchange.session.machine.awake value <;> rfl

private theorem served_limited (exchange : Exchange) (suspension : Suspension) (limit : Option Int) :
    (exchange.limited limit).served suspension =
      ((exchange.served suspension).1, (exchange.served suspension).2.limited limit) := by
  have closed : (exchange.limited limit).closed = exchange.closed := rfl
  have inputs : (exchange.limited limit).inputs = exchange.inputs := rfl
  cases suspension with
  | complete => rfl
  | producedOutput value =>
    simp only [served, closed]
    split
    · rfl
    · exact woken_limited { exchange with outputs := exchange.outputs.push value } none limit
  | awaitingInput address =>
    simp only [served, closed, inputs]
    split
    · rfl
    · split
      next => rfl
      next value rest _ => exact woken_limited { exchange with inputs := rest } (some value) limit

private theorem settled_limited (exchange : Exchange) (reply : Except Fault (Option Suspension))
    (limit : Option Int) : (exchange.limited limit).settled reply =
      ((exchange.settled reply).1, (exchange.settled reply).2.limited limit) := by
  rcases reply with fault | _ | suspension
  · rfl
  · rfl
  · exact served_limited exchange suspension limit

theorem turn_limited {limit : Option Int} (budget : before.session.machine.HasBudget)
    (other : (before.session.machine.limited limit).HasBudget) :
    turn (before.limited limit) = ((turn before).1, (turn before).2.limited limit) := by
  have alike := Session.round_limited budget other
  unfold turn
  rcases went : Session.round before.session with ⟨reply, session⟩
  rw [went] at alike
  have same : Session.round (before.limited limit).session = (reply, session.limited limit) := alike
  rw [same]
  exact settled_limited { before with session } reply limit

private theorem turn_of_exhausted {limit : Int} (allows : before.session.machine.stepLimit = some limit)
    (spent : limit ≤ before.session.machine.steps) :
    turn before = (.error (.stepLimit limit before.session.machine.pc), before) :=
  turn_eq (Session.round_of_exhausted allows spent)

private theorem woken_eq_ok {value : Option Int} {answer : Option Unit}
    (woke : before.woken value = (.ok answer, after)) :
    ∃ machine, before.session.machine.awake value = .ok machine ∧
      after = { before with session := (before.session.received value).withMachine machine } := by
  unfold woken at woke
  cases woken : before.session.machine.awake value with
  | error fault => rw [woken] at woke; cases woke
  | ok machine =>
    rw [woken] at woke
    cases woke
    exact ⟨machine, rfl, rfl⟩

theorem served_goes {suspension : Suspension} (served : before.served suspension = (.ok none, after)) :
    ∃ value machine, before.session.machine.awake value = .ok machine ∧
      after.session = (before.session.received value).withMachine machine ∧
      after.outputs.toList = before.outputs.toList ++ suspension.words := by
  unfold Exchange.served at served
  split at served
  next => cases served
  next value =>
    split at served
    · cases served
    · obtain ⟨machine, woken, rfl⟩ := woken_eq_ok served
      exact ⟨none, machine, woken, rfl, Array.toList_push⟩
  next address =>
    split at served
    · cases served
    · split at served
      next => cases served
      next value rest _ =>
        obtain ⟨machine, woken, rfl⟩ := woken_eq_ok served
        exact ⟨some value, machine, woken, rfl, (List.append_nil _).symm⟩

private theorem turn_eq_ok {answer : Option Unit} (turned : turn before = (.ok answer, after)) :
    ∃ stopped session, Session.round before.session = (.ok stopped, session) ∧
      ({ before with session }).settled (.ok stopped) = (.ok answer, after) := by
  rcases went : Session.round before.session with ⟨reply, session⟩
  rw [turn_eq went] at turned
  cases reply with
  | error fault => cases turned
  | ok stopped => exact ⟨stopped, session, rfl, turned⟩

/-- A turn counts as one instruction, and the host neither counts nor changes the limit. -/
theorem turn_counts {answer : Option Unit} (turned : turn before = (.ok answer, after)) :
    after.session.machine.steps = before.session.machine.steps + 1 ∧
      after.session.machine.stepLimit = before.session.machine.stepLimit := by
  obtain ⟨stopped, session, went, settled⟩ := turn_eq_ok turned
  obtain ⟨steps, limit, _⟩ := Machine.advance_counts (Session.advance_of_round went)
  cases stopped with
  | none =>
    cases settled
    exact ⟨steps, limit⟩
  | some suspension =>
    cases answer with
    | none =>
      obtain ⟨value, machine, woken, same, _⟩ := served_goes settled
      obtain ⟨memory, rfl, _⟩ := Machine.awake_eq_ok woken
      rw [same]
      exact ⟨steps, limit⟩
    | some done =>
      by_cases halted : suspension = .complete
      · subst halted
        cases settled
        exact ⟨steps, limit⟩
      · exact (served_not_done halted settled).elim

/-- A machine that is about to run, and everything that it emitted was delivered. -/
structure Underway (exchange : Exchange) : Prop where
  awake : exchange.session.machine.suspension = none
  delivered : exchange.outputs.toList = exchange.session.emitted

theorem Underway.turn (underway : before.Underway) (went : turn before = (.ok none, after)) :
    after.Underway := by
  obtain ⟨stopped, session, round, settled⟩ := turn_eq_ok went
  obtain ⟨stands, emits⟩ := Session.round_emits underway.awake round
  cases stopped with
  | none =>
    cases settled
    exact ⟨stands, underway.delivered.trans (by simpa using emits.symm)⟩
  | some suspension =>
    obtain ⟨value, machine, woken, same, outputs⟩ := served_goes settled
    constructor
    · rw [same]
      exact Machine.awake_suspension woken
    · rw [outputs, same, Session.emitted_withMachine, Session.emitted_received, emits, underway.delivered]
      simp

/-- After so many instructions a run stands here, and delivered the words that it emitted. -/
structure Reaches (fresh : Exchange) (count : Nat) (reached : Exchange) : Prop where
  passes : Round.Passes turn count fresh reached
  steps : reached.session.machine.steps = fresh.session.machine.steps + count
  delivered : reached.outputs.toList = reached.session.emitted

theorem passes_counts {count : Nat} (passes : Round.Passes turn count before after) :
    after.session.machine.steps = before.session.machine.steps + count ∧
      after.session.machine.stepLimit = before.session.machine.stepLimit := by
  induction passes with
  | rest => exact ⟨rfl, rfl⟩
  | next went _ ih =>
    obtain ⟨steps, limit⟩ := turn_counts went
    obtain ⟨total, same⟩ := ih
    exact ⟨by omega, same.trans limit⟩

private theorem turn_within {limit : Int} (unlimited : before.session.machine.stepLimit = none)
    (below : before.session.machine.steps < limit) :
    turn (before.limited (some limit)) = ((turn before).1, (turn before).2.limited (some limit)) := by
  apply turn_limited
  · intro bound limited
    rw [unlimited] at limited
    cases limited
  · intro bound limited
    cases limited
    exact below

theorem passes_limited {limit : Int} {count : Nat} (unlimited : before.session.machine.stepLimit = none)
    (passes : Round.Passes turn count before after)
    (within : before.session.machine.steps + count ≤ limit.toNat) :
    Round.Passes turn count (before.limited (some limit)) (after.limited (some limit)) := by
  -- A negative limit allows no turn at all, which the bound on the count says by `toNat`.
  induction passes with
  | rest => exact .rest
  | next went _ ih =>
    obtain ⟨steps, same⟩ := turn_counts went
    have turned := turn_within unlimited (show _ < limit by omega)
    rw [went] at turned
    exact .next turned (ih (same.trans unlimited) (by omega))

theorem underway_exchange (program : Program) (inputs : List Int) (trace : Bool) (limit : Option Int) :
    (program.exchange inputs trace limit).Underway := ⟨rfl, rfl⟩

private theorem exists_reaches {fresh halted : Exchange} {count : Nat} (underway : fresh.Underway)
    (ends : turn.repeated.Ends fresh (.ok ()) halted)
    (early : count = 0 ∨ fresh.session.machine.steps + count < halted.session.machine.steps) :
    ∃ reached, Reaches fresh count reached := by
  obtain ⟨total, last, passes, closes⟩ := Round.ends_iff.mp ends
  have steps := (passes_counts passes).1
  have final := (turn_counts (Round.closes_ok.mp closes)).1
  obtain ⟨more, rfl⟩ := Nat.exists_eq_add_of_le (show count ≤ total by omega)
  obtain ⟨reached, first, _⟩ := passes.split
  have kept := first.preserves (fun underway went => Underway.turn underway went) underway
  exact ⟨reached, first, (passes_counts first).1, kept.delivered⟩

private theorem ends_limited {fresh halted : Exchange} {limit : Int}
    (unlimited : fresh.session.machine.stepLimit = none)
    (ends : turn.repeated.Ends fresh (.ok ()) halted) (enough : halted.session.machine.steps ≤ limit) :
    turn.repeated.Ends (fresh.limited (some limit)) (.ok ()) (halted.limited (some limit)) := by
  obtain ⟨total, last, passes, closes⟩ := Round.ends_iff.mp ends
  obtain ⟨steps, same⟩ := passes_counts passes
  have final := (turn_counts (Round.closes_ok.mp closes)).1
  have turned := turn_within (same.trans unlimited) (show _ < limit by omega)
  rw [Round.closes_ok.mp closes] at turned
  exact Round.ends_iff.mpr ⟨total, _, passes_limited unlimited passes (by omega), turned⟩

theorem Reaches.ends_exhausted {fresh reached : Exchange} {limit : Int}
    (reaches : Reaches fresh limit.toNat reached) (unlimited : fresh.session.machine.stepLimit = none)
    (unused : fresh.session.machine.steps = 0) :
    turn.repeated.Ends (fresh.limited (some limit)) (.error (.stepLimit limit reached.session.machine.pc))
      (reached.limited (some limit)) := by
  have spent : limit ≤ reached.session.machine.steps := by
    rw [reaches.steps]
    omega
  have stops := @turn_of_exhausted (reached.limited (some limit)) limit rfl spent
  exact Round.ends_iff.mpr ⟨_, _, passes_limited unlimited reaches.passes (by omega), stops⟩

end Exchange

/-- The machine has this limit and has kept it. -/
structure Machine.Within (limit : Int) (machine : Machine) : Prop where
  limited : machine.stepLimit = some limit
  kept : machine.steps ≤ limit

theorem Machine.Within.pays {limit : Int} {machine after : Machine} (within : machine.Within limit)
    (pays : Pays limit machine after) : after.Within limit := by
  have kept := within.kept
  have steps := pays.steps_le
  unfold remaining at steps
  exact ⟨pays.limited, by omega⟩

namespace Session

variable {limit : Int} {session after : Session}

private theorem resume_within {value : Option Int} {outcome : Except Fault Suspension}
    (within : session.machine.Within limit) (ends : (resume value).Ends session outcome after) :
    after.machine.Within limit :=
  within.pays (resume_pays within.limited ends)

theorem access_within {what : Access} {outcome : Except Fault Answer}
    (within : session.machine.Within limit) (unset : ∀ other, what ≠ .setLimit other)
    (ends : what.perform.Ends session outcome after) : after.machine.Within limit := by
  obtain ⟨limited, kept⟩ := within
  obtain ⟨bound, answered⟩ := ends
  cases what with
  | setLimit other => exact (unset other rfl).elim
  | dump | setPc pc | setBase base =>
    cases answered
    exact ⟨limited, kept⟩
  | read address =>
    simp only [Access.perform, Call.bind_apply, Call.get_apply, Call.ofExcept] at answered
    cases found : session.machine.memory.read address <;> rw [found] at answered <;> cases answered <;>
      exact ⟨limited, kept⟩
  | store address value =>
    rw [Access.perform, Call.map_apply, store_apply] at answered
    cases found : session.machine.memory.write address value <;> rw [found] at answered <;>
      cases answered <;> exact ⟨limited, kept⟩
  | execute instruction =>
    simp only [Access.perform, execute] at answered
    cases found : instruction.effect session.machine with
    | error fault =>
      rw [found] at answered
      cases answered
      exact ⟨limited, kept⟩
    | ok effect =>
      rw [found] at answered
      cases answered
      cases effect <;> exact ⟨limited, kept⟩

theorem history_within {actions : List Action} {observations : List Observation}
    (within : session.machine.Within limit)
    (unset : ∀ action ∈ actions, ∀ other, action ≠ .access (.setLimit other))
    (history : History session actions observations after) : after.machine.Within limit := by
  apply history.preserves (fun session => session.machine.Within limit) _ within
  intro action member before outcome left within ends
  by_cases runs : action.Runs
  · exact runs.preserves (fun within ends => resume_within within ends) within ends
  · cases action with
    | access what =>
      have other (limit : Option Int) : what ≠ .setLimit limit := by
        intro same
        apply unset _ member limit
        rw [same]
      exact access_within within other ends
    | _ => exact (runs nofun).elim

end Session

namespace Exchange

/-- A drive that halts without a limit halts with a limit if and only if that allows all of its
instructions, and leaves everything as it does without one. Under a lower limit it fails for
the limit and for nothing else, where the unlimited run stands after as many instructions, with
the outputs that were emitted until then; the limit is named in the report unless it cannot be
written, or where the run stands cannot. No machine that keeps its limit ever exceeds it. -/
theorem drive_within_limit (limit : Int) :
    (∀ (program : Program) (inputs : List Int) (trace : Bool) (halted : Exchange),
      drive.Ends (program.exchange inputs trace none) (.ok ()) halted →
      (∀ done, drive.Ends (program.exchange inputs trace (some limit)) (.ok ()) done ↔
        halted.session.machine.steps ≤ limit ∧ done = halted.limited (some limit)) ∧
      (limit < halted.session.machine.steps →
        ∃ reached, Reaches (program.exchange inputs trace none) limit.toNat reached ∧
          (∀ outcome after, drive.Ends (program.exchange inputs trace (some limit)) outcome after ↔
            outcome = .error (.stepLimit limit reached.session.machine.pc) ∧
              after = reached.limited (some limit)) ∧
          (Fault.stepLimit limit reached.session.machine.pc).kind =
            if Text.Numeral.isTooLong limit || Text.Numeral.isTooLong reached.session.machine.pc then .unwritable
            else .budget)) ∧
    (0 ≤ limit → ∀ words trace actions observations session,
      Session.History (.load words trace (some limit)) actions observations session →
      (∀ action ∈ actions, ∀ other, action ≠ .access (.setLimit other)) →
      session.machine.steps ≤ limit) := by
  constructor
  · intro program inputs trace halted ends
    have underway := underway_exchange program inputs trace none
    have turns := (ends_drive_of_running underway.awake).mp ends
    have driven {outcome : Except Fault Unit} {after : Exchange}
        (turns : turn.repeated.Ends ((program.exchange inputs trace none).limited (some limit)) outcome after) :
        drive.Ends (program.exchange inputs trace (some limit)) outcome after :=
      (ends_drive_of_running rfl).mpr turns
    have exhausted (exceeded : limit < halted.session.machine.steps) :
        ∃ reached, Reaches (program.exchange inputs trace none) limit.toNat reached ∧
          drive.Ends (program.exchange inputs trace (some limit))
            (.error (.stepLimit limit reached.session.machine.pc)) (reached.limited (some limit)) := by
      have early : limit.toNat = 0 ∨ 0 + limit.toNat < halted.session.machine.steps := by omega
      obtain ⟨reached, reaches⟩ := exists_reaches underway turns early
      exact ⟨reached, reaches, driven (reaches.ends_exhausted rfl rfl)⟩
    refine ⟨fun done => ⟨fun returned => ?_, ?_⟩, fun exceeded => ?_⟩
    · rcases Int.lt_or_le limit halted.session.machine.steps with exceeded | enough
      · obtain ⟨_, _, fails⟩ := exhausted exceeded
        cases (returned.unique steady_drive fails).1
      · have same := returned.unique steady_drive (driven (ends_limited rfl turns enough))
        exact ⟨enough, same.2⟩
    · rintro ⟨enough, rfl⟩
      exact driven (ends_limited rfl turns enough)
    · obtain ⟨reached, reaches, fails⟩ := exhausted exceeded
      exact ⟨reached, reaches, fun outcome after => fails.iff_same steady_drive, Fault.kind_of_limit limit _⟩
  · intro allowed words trace actions observations session history unset
    have fresh : (Session.load words trace (some limit)).machine.Within limit := ⟨rfl, allowed⟩
    exact (Session.history_within fresh unset history).kept

/-- An echo that halts after three instructions: the limit allows all of them, or stops it right
after its output. -/
theorem drive_within_limit_of_echo : ∃ halted reached observations session,
    drive.Ends ((Program.mk [3, 9, 4, 9, 99]).exchange [7] false none) (.ok ()) halted ∧
    drive.Ends ((Program.mk [3, 9, 4, 9, 99]).exchange [7] false (some 3)) (.ok ())
      (halted.limited (some 3)) ∧
    Reaches ((Program.mk [3, 9, 4, 9, 99]).exchange [7] false none) 2 reached ∧
    drive.Ends ((Program.mk [3, 9, 4, 9, 99]).exchange [7] false (some 2))
      (.error (.stepLimit 2 4)) (reached.limited (some 2)) ∧
    (Fault.stepLimit 2 4).kind = .budget ∧
    Session.History (.load [3, 9, 4, 9, 99] false (some 2)) [.drive [7], .resume none] observations session ∧
    session.machine.steps ≤ (2 : Int) := by
  obtain ⟨halted, ends, steps⟩ : ∃ halted, drive.Ends ((Program.mk [3, 9, 4, 9, 99]).exchange [7] false none)
      (.ok ()) halted ∧ halted.session.machine.steps = 3 :=
    Call.ends_of_view (fun halted : Exchange => halted.session.machine.steps) 9 (by decide +kernel)
  have returned := (((drive_within_limit 3).1 _ _ _ _ ends).1 _).mpr ⟨by rw [steps]; decide, rfl⟩
  obtain ⟨reached, reaches, only, kind⟩ := ((drive_within_limit 2).1 _ _ _ _ ends).2 (by rw [steps]; decide)
  obtain ⟨_, stops⟩ : ∃ after, drive.Ends ((Program.mk [3, 9, 4, 9, 99]).exchange [7] false (some 2))
      (.error (.stepLimit 2 4)) after := Call.exists_ends 9 (by decide +kernel)
  have stands : 4 = reached.session.machine.pc := by simpa using ((only _ _).mp stops).1
  rw [← stands] at only kind
  have history : Session.History (.load [3, 9, 4, 9, 99] false (some 2)) [.drive [7], .resume none] _ _ :=
    .next ⟨9, rfl⟩ (.next ⟨9, rfl⟩ .start)
  have kept := (drive_within_limit 2).2 (by decide) _ _ _ _ _ history (by simp)
  exact ⟨halted, reached, _, _, ends, returned, reaches, (only _ _).mpr ⟨rfl, rfl⟩, kind.trans (by decide +kernel),
    history, kept⟩

/-- A limit so far below zero that the report cannot name it: the drive fails, but not as one that
went beyond its limit. -/
theorem drive_below_long_limit : ∃ halted stopped fault,
    drive.Ends ((Program.mk [99]).exchange [] false none) (.ok ()) halted ∧
    -10 ^ Text.Numeral.maxDigits < (halted.session.machine.steps : Int) ∧
    drive.Ends ((Program.mk [99]).exchange [] false (some (-10 ^ Text.Numeral.maxDigits))) (.error fault) stopped ∧
    fault.kind = .unwritable := by
  have negative := Text.Numeral.neg_power_neg Text.Numeral.maxDigits
  have spent : (-10 ^ Text.Numeral.maxDigits : Int).toNat = 0 := Int.toNat_of_nonpos (Int.le_of_lt negative)
  have reaches : Reaches ((Program.mk [99]).exchange [] false none) (-10 ^ Text.Numeral.maxDigits : Int).toNat
      ((Program.mk [99]).exchange [] false none) := by
    rw [spent]
    exact ⟨.rest, rfl, rfl⟩
  obtain ⟨halted, ends, steps⟩ : ∃ halted, drive.Ends ((Program.mk [99]).exchange [] false none) (.ok ()) halted ∧
      halted.session.machine.steps = 1 :=
    Call.ends_of_view (fun halted : Exchange => halted.session.machine.steps) 9 (by decide +kernel)
  refine ⟨halted, _, _, ends, ?_, (ends_drive_of_running rfl).mpr (reaches.ends_exhausted rfl rfl), ?_⟩
  · omega
  · rw [Fault.kind_of_limit, Text.Numeral.isTooLong_neg_power]
    rfl

end Exchange
end Intcode
