import Intcode.Proofs.LongNumbers
import Intcode.Proofs.Protocol
import Intcode.Proofs.Resemblance
import Intcode.Proofs.Serving
import Intcode.Proofs.WordRange

/-! Storing words before a run is the same as editing the program. The two memories are written
differently, since a patch may be a zero and may lie far behind the end, but they read alike, and
no more than that counts. -/

namespace Intcode

open Session (Alike)

namespace Program

/-- The program with one of its words replaced. Zeros fill the space up to a word that lies behind
the end. -/
def edit (program : Program) (cell : Nat) (value : Int) : Program :=
  ⟨(program.words ++ List.replicate (cell + 1 - program.words.length) 0).set cell value⟩

def edited (program : Program) (patches : List (Nat × Int)) : Program :=
  patches.foldl (fun program (cell, value) => program.edit cell value) program

private theorem getD_edit (program : Program) (cell other : Nat) (value : Int) :
    (program.edit cell value).words.getD other 0 =
      if other = cell then value else program.words.getD other 0 := by
  have reach : cell < (program.words ++ List.replicate (cell + 1 - program.words.length) 0).length := by
    rw [List.length_append, List.length_replicate]
    omega
  simp only [edit, List.getD_eq_getElem?_getD]
  by_cases same : other = cell
  · rw [same, if_pos rfl, List.getElem?_set_self reach, Option.getD_some]
  · rw [if_neg same, List.getElem?_set_ne (Ne.symm same)]
    by_cases inside : other < program.words.length
    · rw [List.getElem?_append_left inside]
    · have behind := Nat.not_lt.mp inside
      rw [List.getElem?_append_right behind, List.getElem?_eq_none behind, List.getElem?_replicate]
      split <;> rfl

end Program

namespace Session

variable {session left right : Session} {program : Program} {trace : Bool} {limit : Option Int}

def stored (session : Session) (cell : Nat) (value : Int) : Session :=
  session.withMachine { session.machine with memory := session.machine.memory.put cell value }

def patch (patches : List (Nat × Int)) : Call Session Unit :=
  patches.forM fun (cell, value) => store cell value

theorem store_cell (cell : Nat) (value : Int) (bound : Nat) :
    store cell value bound session = some (.ok (), session.stored cell value) := by
  rw [store_apply, Memory.write_eq, if_pos (Int.natCast_nonneg cell), Int.toNat_natCast, stored]

/-- A word that is stored in a loaded program might as well have stood there from the start. -/
theorem Alike.stored (alike : Alike session (program.start trace limit)) (cell : Nat) (value : Int) :
    Alike (session.stored cell value) ((program.edit cell value).start trace limit) where
  word other := by
    have loaded : (Memory.ofWords program.words).word other = session.machine.memory.word other :=
      alike.word other
    change (Memory.ofWords (program.edit cell value).words).word other =
      (session.machine.memory.put cell value).word other
    rw [Memory.word_put, ← loaded, Memory.word_ofWords, Memory.word_ofWords, Program.getD_edit]
    split <;> rfl
  pc := alike.pc
  relativeBase := alike.relativeBase
  suspension := alike.suspension
  steps := alike.steps
  stepLimit := alike.stepLimit

theorem Alike.patched (alike : Alike session (program.start trace limit)) (patches : List (Nat × Int)) :
    ∃ patched, (∀ bound, patch patches bound session = some (.ok (), patched)) ∧
      Alike patched ((program.edited patches).start trace limit) := by
  induction patches generalizing session program with
  | nil => exact ⟨session, fun _ => rfl, alike⟩
  | cons entry patches ih =>
    obtain ⟨cell, value⟩ := entry
    obtain ⟨patched, stores, same⟩ := ih (alike.stored cell value)
    refine ⟨patched, fun bound => ?_, same⟩
    change (store cell value >>= fun _ => patch patches) bound session = _
    rw [Call.bind_apply, store_cell]
    exact stores bound

theorem Alike.ends_resume (alike : Alike left right) {after : Session} {reply : Except Fault Suspension}
    (ends : (resume none).Ends left reply after) :
    ∃ after', (resume none).Ends right reply after' ∧ Alike after after' := by
  obtain ⟨after', ended, same, _⟩ := (resume_alike .none alike).ends ends
  exact ⟨after', ended, same⟩

end Session

/-- The fault that a suspension meets where neither input nor output is allowed. -/
def Suspension.refusal? : Suspension → Option Fault
  | complete => none
  | producedOutput value => some (.outputRefused value)
  | awaitingInput _ => some .inputRefused

private theorem Suspension.refusal_kind {suspension : Suspension} {fault : Fault}
    (fits : ∀ word ∈ suspension.words, Word.InRange word) (refused : suspension.refusal? = some fault) :
    fault.kind = .port := by
  cases suspension with
  | complete => cases refused
  | awaitingInput address =>
    cases refused
    rfl
  | producedOutput value =>
    cases refused
    have short := Text.Numeral.short_of_inRange (fits value (List.mem_singleton_self value))
    simp [Fault.kind, Fault.isUnwritable, Fault.numbers, Fault.causeKind, short]

namespace Exchange

variable {exchange after : Exchange} {program : Program} {trace : Bool} {limit : Option Int}

/-- What a closed exchange ends with, by what its first resumption ended with. -/
def closing : Except Fault Suspension → Except Fault Unit
  | .error fault => .error fault
  | .ok suspension =>
    match suspension.refusal? with
    | some fault => .error fault
    | none => .ok ()

private theorem ends_serveAll_closed (closed : exchange.closed = true) {rounds : Nat} {suspension : Suspension}
    {outcome : Except Fault Unit} :
    (serveAll (rounds + 1) suspension).Ends exchange outcome after ↔
      outcome = closing (.ok suspension) ∧ after = exchange := by
  have refused : exchange.served suspension = ((closing (.ok suspension)).map some, exchange) := by
    cases suspension with
    | complete => rfl
    | producedOutput value | awaitingInput address => simp only [served, if_pos closed]; rfl
  rw [ends_serveAll_succ, refused]
  have only : ¬ ∃ middle, ((closing (.ok suspension)).map some, exchange) = (.ok none, middle) ∧
      (running rounds).Ends middle outcome after := by
    rintro ⟨middle, impossible, _⟩
    cases suspension <;> cases impossible
  rw [or_iff_left only]
  cases suspension <;> cases outcome <;> simp [closing, Suspension.refusal?, Except.map, eq_comm]

theorem ends_drive_closed (closed : exchange.closed = true) {outcome : Except Fault Unit} :
    drive.Ends exchange outcome after ↔
      ∃ reply session, (Session.resume none).Ends exchange.session reply session ∧
        outcome = closing reply ∧ after = { exchange with session } := by
  have serving (rounds : Nat) :
      (act (Session.resume none) >>= serveAll rounds).Ends exchange outcome after ↔ _ :=
    Call.ends_bind (steady_act (Session.steady_resume none)) (steady_serveAll rounds)
  have still (session : Session) : ({ exchange with session } : Exchange).closed = true := closed
  simp only [ends_drive, serving, ends_act]
  constructor
  · rintro ⟨rounds, ⟨fault, rfl, session, fails, rfl⟩ |
      ⟨suspension, _, ⟨session, resumed, rfl⟩, bound, served⟩⟩
    · exact ⟨_, session, fails, rfl, rfl⟩
    · have more := serveAll_more (Nat.le_succ rounds) served
      obtain ⟨rfl, rfl⟩ := (ends_serveAll_closed (still session)).mp ⟨bound, more⟩
      exact ⟨_, session, resumed, rfl, rfl⟩
  · rintro ⟨fault | suspension, session, resumed, rfl, rfl⟩
    · exact ⟨0, .inl ⟨fault, rfl, session, resumed, rfl⟩⟩
    · refine ⟨1, .inr ⟨suspension, _, ⟨session, resumed, rfl⟩, ?_⟩⟩
      exact (ends_serveAll_closed (still session)).mpr ⟨rfl, rfl⟩

private theorem evaluate_apply (noun verb : Int) (bound : Nat) :
    evaluate noun verb bound exchange =
      (drive >>= fun _ => do Call.ofExcept ((← get).session.machine.memory.read 0)) bound
        { exchange with closed := true, session := (exchange.session.stored 1 noun).stored 2 verb } := by
  have store (cell : Nat) (value : Int) (start : Exchange) :
      act (Session.store cell value) bound start =
        some (.ok (), { start with session := start.session.stored cell value }) := by
    rw [act, Call.onPart, Session.store_cell, Option.map_some]
  have noted (start : Exchange) : act (Session.store 1 noun) bound start = _ := store 1 noun start
  have verbed (start : Exchange) : act (Session.store 2 verb) bound start = _ := store 2 verb start
  unfold evaluate
  simp only [Call.bind_apply, Call.modify_apply, noted, verbed]

theorem ends_evaluate {noun verb : Int} {outcome : Except Fault Int} :
    (evaluate noun verb).Ends exchange outcome after ↔
      ∃ reply session,
        (Session.resume none).Ends ((exchange.session.stored 1 noun).stored 2 verb) reply session ∧
        outcome = (closing reply).map (fun _ => session.machine.memory.word 0) ∧
        after = { exchange with closed := true, session } := by
  let reads : Call Exchange Int := do Call.ofExcept ((← get).session.machine.memory.read 0)
  have read (middle : Exchange) :
      reads.Ends middle outcome after ↔
        outcome = .ok (middle.session.machine.memory.word 0) ∧ after = middle := by
    rw [Call.ends_get_bind, Call.ends_ofExcept, Memory.read_eq]
    rfl
  have steady : ∀ done : Unit, ((fun _ => reads) done).Steady := fun _ =>
    Call.steady_of_instant fun _ _ => rfl
  have start : (evaluate noun verb).Ends exchange outcome after ↔ (drive >>= fun _ => reads).Ends
      { exchange with closed := true, session := (exchange.session.stored 1 noun).stored 2 verb }
      outcome after := by
    unfold Call.Ends
    simp only [evaluate_apply]
    rfl
  rw [start, Call.ends_bind steady_drive steady]
  simp only [ends_drive_closed, read]
  constructor
  · rintro (⟨fault, rfl, reply, session, resumed, same, rfl⟩ |
      ⟨_, _, ⟨reply, session, resumed, same, rfl⟩, rfl, rfl⟩)
    all_goals exact ⟨reply, session, resumed, by rw [← same]; rfl, rfl⟩
  · rintro ⟨reply, session, resumed, rfl, rfl⟩
    cases same : closing reply with
    | error fault => exact .inl ⟨fault, rfl, reply, session, resumed, same.symm, rfl⟩
    | ok done => exact .inr ⟨(), _, ⟨reply, session, resumed, same.symm, rfl⟩, rfl, rfl⟩

/-- Evaluating tells where the edited program stops first, and what it holds at address zero if it
has halted there. -/
theorem evaluate_iff {noun verb : Int} {outcome : Except Fault Int} :
    (∃ after, (evaluate noun verb).Ends (program.exchange [] trace limit) outcome after) ↔
      ∃ reply stopped,
        (Session.resume none).Ends ((program.edited [(1, noun), (2, verb)]).start trace limit) reply stopped ∧
        outcome = (closing reply).map fun _ => stopped.machine.memory.word 0 := by
  have alike : Alike (((program.start trace limit).stored 1 noun).stored 2 verb)
      ((program.edited [(1, noun), (2, verb)]).start trace limit) := by
    have fresh : Alike (program.start trace limit) (program.start trace limit) :=
      Machine.load_resembles trace trace limit fun _ => rfl
    exact (fresh.stored 1 noun).stored 2 verb
  simp only [ends_evaluate]
  constructor
  · rintro ⟨_, reply, session, resumed, rfl, _⟩
    obtain ⟨stopped, ends, same⟩ := alike.ends_resume resumed
    exact ⟨reply, stopped, ends, by rw [same.word]⟩
  · rintro ⟨reply, stopped, resumed, rfl⟩
    obtain ⟨session, ends, same⟩ := Session.Alike.ends_resume alike.symm resumed
    exact ⟨_, reply, session, ends, by rw [same.word], rfl⟩

theorem evaluate_ok_iff {noun verb value : Int} :
    (∃ after, (evaluate noun verb).Ends (program.exchange [] trace limit) (.ok value) after) ↔
      ∃ stopped, (Session.resume none).Ends ((program.edited [(1, noun), (2, verb)]).start trace limit)
        (.ok .complete) stopped ∧ stopped.machine.memory.word 0 = value := by
  rw [evaluate_iff]
  constructor
  · rintro ⟨fault | _ | _ | _, stopped, resumed, same⟩ <;> cases same
    exact ⟨stopped, resumed, rfl⟩
  · rintro ⟨stopped, resumed, rfl⟩
    exact ⟨_, stopped, resumed, rfl⟩

/-- Evaluating fails for want of a port just if the edited program suspends before it halts. -/
theorem evaluate_refused_iff {noun verb : Int} {fault : Fault} :
    (fault.kind = .port ∧
      ∃ after, (evaluate noun verb).Ends (program.exchange [] trace limit) (.error fault) after) ↔
      ∃ suspension stopped, (Session.resume none).Ends
        ((program.edited [(1, noun), (2, verb)]).start trace limit) (.ok suspension) stopped ∧
        suspension.refusal? = some fault := by
  rw [evaluate_iff]
  constructor
  · rintro ⟨kind, cause | suspension, stopped, resumed, same⟩
    · cases same
      have reported := Fault.causeKind_of_kind Fault.Kind.noConfusion kind
      rcases Session.resume_fails resumed with refused | other | other | other
      · cases refused <;> contradiction
      all_goals
        rw [reported] at other
        cases other
    · refine ⟨suspension, stopped, resumed, ?_⟩
      cases suspension <;> cases same <;> rfl
  · intro ⟨suspension, stopped, resumed, refused⟩
    have inRange : ((program.edited [(1, noun), (2, verb)]).start trace limit).machine.memory.InRange :=
      Memory.inRange_ofWords _
    have stops := (Session.resume_inRange inRange resumed).2 suspension rfl
    refine ⟨Suspension.refusal_kind stops.2 refused, _, stopped, resumed, ?_⟩
    rw [closing, refused]
    rfl

/-- A program that neither takes nor delivers a word halts in its first resumption. -/
theorem ends_collect_nothing {finished : Exchange} :
    collect.Ends (program.exchange [] trace limit) (.ok []) finished ↔
      ∃ stopped, (Session.resume none).Ends (program.start trace limit) (.ok .complete) stopped ∧
        finished = { program.exchange [] trace limit with session := stopped } := by
  rw [ends_collect_ok, ends_drive_iff_served rfl]
  constructor
  · rintro ⟨⟨_, _, impossible, _⟩ | ⟨suspension, middle, left, outputs, session, resumed, served, rfl⟩, nothing⟩
    · cases impossible
    · have silent : outputs = [] := by simpa [advanced, Program.exchange] using nothing
      have stands := (Session.resume_emits resumed).1
      subst silent
      change Session.Served middle [] _ left [] session at served
      cases served with
      | halted halts =>
        rw [halts] at stands
        cases stands
        exact ⟨middle, resumed, by simp [advanced, Program.exchange]⟩
  · rintro ⟨stopped, resumed, rfl⟩
    have halts := (Session.resume_emits resumed).1
    exact ⟨.inr ⟨_, stopped, [], [], stopped, resumed, .halted halts, by simp [advanced, Program.exchange]⟩, rfl⟩

end Exchange

/-- Storing words in a fresh machine and editing the program there make no difference to anything
that a host observes afterwards. So evaluating a noun and a verb answers just if the program that is
edited at addresses one and two delivers nothing when it is run without input, and then with the
word that it leaves at address zero. It fails for want of a port just if that program emits a word or
asks for one before it halts. -/
theorem patched_as_edited (program : Program) (trace : Bool) (limit : Option Int) :
    (∀ patches, ∃ patched,
      (Session.patch patches).Ends (program.start trace limit) (.ok ()) patched ∧
      ∀ actions observations,
        (∃ after, Session.History patched actions observations after) ↔
          ∃ after, Session.History ((program.edited patches).start trace limit) actions observations after) ∧
    ∀ noun verb,
      (∀ value,
        (∃ after, (Exchange.evaluate noun verb).Ends (program.exchange [] trace limit) (.ok value) after) ↔
          ∃ finished, Exchange.collect.Ends ((program.edited [(1, noun), (2, verb)]).exchange [] trace limit)
            (.ok []) finished ∧ finished.session.machine.memory.read 0 = .ok value) ∧
      ∀ fault,
        (fault.kind = .port ∧
          ∃ after, (Exchange.evaluate noun verb).Ends (program.exchange [] trace limit) (.error fault) after) ↔
          ∃ suspension stopped, (Session.resume none).Ends
            ((program.edited [(1, noun), (2, verb)]).start trace limit) (.ok suspension) stopped ∧
            suspension.refusal? = some fault := by
  have fresh : Alike (program.start trace limit) (program.start trace limit) :=
    Machine.load_resembles trace trace limit fun _ => rfl
  refine ⟨fun patches => ?_, fun noun verb => ⟨fun value => ?_, fun fault => ?_⟩⟩
  · obtain ⟨patched, stores, alike⟩ := Session.Alike.patched fresh patches
    exact ⟨patched, ⟨0, stores 0⟩, alike.history_iff⟩
  · rw [Exchange.evaluate_ok_iff]
    simp only [Exchange.ends_collect_nothing]
    constructor
    · rintro ⟨stopped, resumed, rfl⟩
      exact ⟨_, ⟨stopped, resumed, rfl⟩, Memory.read_eq _ 0⟩
    · rintro ⟨_, ⟨stopped, resumed, rfl⟩, found⟩
      rw [Memory.read_eq] at found
      exact ⟨stopped, resumed, Except.ok.inj found⟩
  · exact Exchange.evaluate_refused_iff

end Intcode
