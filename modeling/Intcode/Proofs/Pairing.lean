import Mathlib.Data.List.Forall2
import Intcode.Proofs.Driving
import Intcode.Proofs.Stepping

/-! Two machines side by side. Calls on them are paired if, within every bound, neither has
ended or both end with one outcome in states that are related again. Whatever holds of a pair
of resumptions holds of all that the host's stepping calls and drives make of them. A machine
beside itself is the case in which a property of one machine is kept. -/

namespace Intcode

namespace Call

variable {σ τ α β : Type}

/-- Neither call has ended, or both ended with one outcome. An answer also meets what is said
of it and of the state that the first call left. -/
inductive Matches (related : σ → τ → Prop) (meets : α → σ → Prop) :
    Option (Except Fault α × σ) → Option (Except Fault α × τ) → Prop where
  | unfinished : Matches related meets none none
  | fails (kept : related left right) :
    Matches related meets (some (.error fault, left)) (some (.error fault, right))
  | answers (kept : related left right) (met : meets value left) :
    Matches related meets (some (.ok value, left)) (some (.ok value, right))

def Paired (related : σ → τ → Prop) (meets : α → σ → Prop) (call : Call σ α) (other : Call τ α)
    (left : σ) (right : τ) : Prop :=
  ∀ bound, Matches related meets (call bound left) (other bound right)

namespace Paired

variable {related : σ → τ → Prop} {meets : α → σ → Prop} {call : Call σ α} {other : Call τ α}
  {left : σ} {right : τ}

theorem pure {value : α} (kept : related left right) (met : meets value left) :
    Paired related meets (pure value) (pure value) left right :=
  fun _ => .answers kept met

theorem throw {fault : Fault} (kept : related left right) :
    Paired related meets (throw fault) (throw fault) left right :=
  fun _ => .fails kept

theorem bind {next : α → Call σ β} {next' : α → Call τ β} {ends : β → σ → Prop}
    (first : Paired related meets call other left right)
    (rest : ∀ value left' right', related left' right' → meets value left' →
      Paired related ends (next value) (next' value) left' right') :
    Paired related ends (call >>= next) (other >>= next') left right := by
  intro bound
  have both := first bound
  rw [bind_apply, bind_apply]
  generalize call bound left = reply, other bound right = reply' at both ⊢
  cases both with
  | unfinished => exact .unfinished
  | fails kept => exact .fails kept
  | answers kept met => exact rest _ _ _ kept met bound

theorem map {f : α → β} {ends : β → σ → Prop} (paired : Paired related meets call other left right)
    (implies : ∀ value after, meets value after → ends (f value) after) :
    Paired related ends (f <$> call) (f <$> other) left right := by
  rw [map_eq_pure_bind, map_eq_pure_bind]
  exact paired.bind fun _ _ _ kept met => .pure kept (implies _ _ met)

theorem weaken {weaker : α → σ → Prop} (paired : Paired related meets call other left right)
    (implies : ∀ value after, meets value after → weaker value after) :
    Paired related weaker call other left right := by
  rw [← id_map call, ← id_map other]
  exact paired.map implies

theorem discard (paired : Paired related meets call other left right) :
    Paired related (fun _ after => ∃ value, meets value after) (discard call) (discard other)
      left right :=
  paired.map fun value _ met => ⟨value, met⟩

theorem bind_of_found {γ γ' : Type} {first : Call σ γ} {first' : Call τ γ'} {value : γ} {value' : γ'}
    {left' : σ} {right' : τ} {next : γ → Call σ β} {next' : γ' → Call τ β} {ends : β → σ → Prop}
    (found : ∀ bound, first bound left = some (.ok value, left'))
    (found' : ∀ bound, first' bound right = some (.ok value', right'))
    (rest : Paired related ends (next value) (next' value') left' right') :
    Paired related ends (first >>= next) (first' >>= next') left right := by
  intro bound
  rw [bind_apply, bind_apply, found, found']
  exact rest bound

theorem bind_of_failed {γ γ' : Type} {first : Call σ γ} {first' : Call τ γ'} {fault : Fault}
    {next : γ → Call σ β} {next' : γ' → Call τ β} {ends : β → σ → Prop}
    (found : ∀ bound, first bound left = some (.error fault, left))
    (found' : ∀ bound, first' bound right = some (.error fault, right))
    (kept : related left right) :
    Paired related ends (first >>= next) (first' >>= next') left right := by
  intro bound
  rw [bind_apply, bind_apply, found, found']
  exact .fails kept

theorem get_bind {next : σ → Call σ β} {next' : τ → Call τ β} {ends : β → σ → Prop}
    (rest : Paired related ends (next left) (next' right) left right) :
    Paired related ends (get >>= next) (get >>= next') left right :=
  bind_of_found (fun bound => get_apply bound left) (fun bound => get_apply bound right) rest

theorem modify_bind {change : σ → σ} {change' : τ → τ} {next : Unit → Call σ β}
    {next' : Unit → Call τ β} {ends : β → σ → Prop}
    (rest : Paired related ends (next ()) (next' ()) (change left) (change' right)) :
    Paired related ends (modify change >>= next) (modify change' >>= next') left right :=
  bind_of_found (fun bound => modify_apply change bound left)
    (fun bound => modify_apply change' bound right) rest

theorem ends (paired : Paired related meets call other left right) {outcome : Except Fault α}
    {left' : σ} (ended : call.Ends left outcome left') :
    ∃ right', other.Ends right outcome right' ∧ related left' right' ∧
      ∀ value, outcome = .ok value → meets value left' := by
  obtain ⟨bound, answered⟩ := ended
  have both := paired bound
  rw [answered] at both
  generalize reached : other bound right = reply at both
  cases both with
  | fails kept => exact ⟨_, ⟨bound, reached⟩, kept, nofun⟩
  | answers kept met =>
    refine ⟨_, ⟨bound, reached⟩, kept, ?_⟩
    rintro _ ⟨rfl⟩
    exact met

theorem of_kept {holds : σ → Prop} (kept : ∀ {outcome after}, call.Ends left outcome after →
      holds after ∧ ∀ value, outcome = .ok value → meets value after) :
    Paired (fun first second => second = first ∧ holds first) meets call call left left := by
  intro bound
  rcases answered : call bound left with _ | ⟨fault | value, after⟩
  · exact .unfinished
  · exact .fails ⟨rfl, (kept ⟨bound, answered⟩).1⟩
  · obtain ⟨holds, met⟩ := kept ⟨bound, answered⟩
    exact .answers ⟨rfl, holds⟩ (met value rfl)

end Paired
end Call

theorem Round.Lockstep.paired {σ τ α : Type} {first : Round σ α} {second : Round τ α}
    {related : σ → τ → Prop} {ended : σ → τ → Prop} {meets : α → σ → Prop}
    (lockstep : Lockstep first second related fun outcome left right =>
      ended left right ∧ ∀ answer, outcome = .ok answer → meets answer left)
    {left : σ} {right : τ} (start : related left right) :
    Call.Paired ended meets first.repeated second.repeated left right := by
  intro bound
  change Call.Matches ended meets (first.loop bound left) (second.loop bound right)
  induction bound generalizing left right with
  | zero => exact .unfinished
  | succ bound ih =>
    rcases lockstep left right start with ⟨left', right', went, went', next⟩ |
      ⟨outcome, left', right', closes, closes', last, met⟩
    · rw [loop, loop, went, went']
      exact ih next
    · rw [closes.loop_eq, closes'.loop_eq]
      cases outcome with
      | error fault => exact .fails last
      | ok answer => exact .answers last (met answer rfl)

namespace Session

open Call (Paired)

/-- The session stands where its resumption stopped, and the words emitted there fit. -/
def Stops (fits : Int → Prop) (suspension : Suspension) (after : Session) : Prop :=
  after.machine.suspension = some suspension ∧ ∀ word ∈ suspension.words, fits word

/-- Related sessions are resumed alike, one with any word that matches the other's. -/
structure Companions (related : Session → Session → Prop) (matched : Int → Int → Prop)
    (fits : Int → Prop) : Prop where
  suspension : related left right → right.machine.suspension = left.machine.suspension
  unfed : related left right → Paired related (Stops fits) (resume none) (resume none) left right
  fed : matched value value' → related left right →
    Paired related (Stops fits) (resume (some value)) (resume (some value')) left right

namespace Companions

variable {related : Session → Session → Prop} {matched : Int → Int → Prop} {fits : Int → Prop}
  (companions : Companions related matched fits) {left right : Session}
include companions

theorem step {value value' : Int} (same : matched value value') (start : related left right) :
    Paired related (fun (output, _) _ => ∀ word ∈ output.toList, fits word)
      (Session.step value) (Session.step value') left right := by
  refine (companions.fed same start).bind fun suspension left right kept stops => ?_
  cases suspension with
  | complete => exact .pure kept nofun
  | awaitingInput address => exact .throw kept
  | producedOutput output =>
    refine (companions.unfed kept).bind fun second left right kept _ => ?_
    cases second with
    | complete | awaitingInput address => exact .pure kept stops.2
    | producedOutput second => exact .throw kept

theorem drain (wanted : Int) (missing : Nat) {collected : List Int}
    (fit : ∀ word ∈ collected, fits word) (start : related left right) :
    Paired related (fun outputs _ => ∀ word ∈ outputs.getD [], fits word)
      (Session.drain wanted missing collected) (Session.drain wanted missing collected) left right := by
  induction missing generalizing collected left right with
  | zero => exact .pure start fit
  | succ missing ih =>
    refine (companions.unfed start).bind fun suspension left right kept stops => ?_
    cases suspension with
    | complete => exact .pure kept nofun
    | awaitingInput address => exact .throw kept
    | producedOutput value =>
      refine ih ?_ kept
      intro word member
      rcases List.mem_append.mp member with member | member
      · exact fit word member
      · exact stops.2 word member

theorem stepRead (count : Int) (start : related left right) :
    Paired related (fun outputs _ => ∀ word ∈ outputs.getD [], fits word)
      (Session.stepRead count) (Session.stepRead count) left right :=
  companions.drain count count.toNat nofun start

/-- Where a machine stands after it was fed, it has just emitted what it stands at. -/
theorem feed (total index : Nat) {values values' : List Int} (same : List.Forall₂ matched values values')
    (fit : values = [] → ∀ word ∈ left.standing, fits word) (start : related left right) :
    Paired related
      (fun stopped after => after.machine.suspension = stopped ∧ ∀ word ∈ after.standing, fits word)
      (Session.feed total index values) (Session.feed total index values') left right := by
  induction same generalizing index left right with
  | nil =>
    refine .get_bind ?_
    rw [companions.suspension start]
    exact .pure start ⟨rfl, fit rfl⟩
  | cons matches' _ ih =>
    refine .get_bind ?_
    rw [companions.suspension start]
    cases stopped : left.machine.suspension with
    | none => exact .bind_of_failed (fun _ => rfl) (fun _ => rfl) start
    | some suspension =>
      cases suspension with
      | complete | producedOutput output => exact .bind_of_failed (fun _ => rfl) (fun _ => rfl) start
      | awaitingInput address =>
        refine (companions.fed matches' start).discard.bind fun _ left right kept stops => ?_
        obtain ⟨suspension, stopped, fit⟩ := stops
        rw [← standing_of_stopped stopped] at fit
        exact ih (index + 1) (fun _ => fit) kept

theorem stepN (count : Int) {values values' : List Int} (same : List.Forall₂ matched values values')
    (start : related left right) :
    Paired related (fun outputs _ => ∀ word ∈ outputs.getD [], fits word)
      (Session.stepN values count) (Session.stepN values' count) left right := by
  have read := companions.stepRead count start
  cases same with
  | nil =>
    refine .bind_of_found (fun _ => rfl) (fun _ => rfl) ?_
    rw [companions.suspension start]
    rcases left.machine.suspension with _ | ⟨address | output | _⟩
    · exact read
    · exact read
    · exact read
    · exact .pure start nofun
  | cons matches' rest =>
    unfold Session.stepN
    rw [List.length_cons, List.length_cons, rest.length_eq]
    refine (companions.feed _ _ (.cons matches' rest) nofun start).bind fun stopped left right kept met => ?_
    obtain ⟨stands, fit⟩ := met
    rcases stopped with _ | ⟨address | output | _⟩
    · exact companions.stepRead count kept
    · exact companions.stepRead count kept
    · simp only [List.isEmpty_cons]
      rw [standing_of_stopped stands] at fit
      split
      · refine (companions.stepRead (count - 1) kept).bind fun outputs left right kept others => ?_
        refine .pure kept fun word member => ?_
        cases outputs with
        | none => cases member
        | some outputs =>
          rcases List.mem_cons.mp member with rfl | member
          · exact fit word (List.mem_singleton_self word)
          · exact others word member
      · exact companions.stepRead count kept
    · exact .pure kept nofun

theorem waitForInput (start : related left right) :
    Paired related (fun _ _ => True) Session.waitForInput Session.waitForInput left right := by
  refine .get_bind ?_
  rw [companions.suspension start]
  split
  next => exact .pure start trivial
  next => exact .pure start trivial
  next =>
    refine (companions.unfed start).bind fun suspension left right kept _ => ?_
    cases suspension with
    | producedOutput value => exact .throw kept
    | awaitingInput address | complete => exact .pure kept trivial

end Companions
end Session

namespace Exchange

open Call (Paired)
open Session (Companions)

/-- Exchanges of related sessions: their supplies match, and they delivered the same words. -/
structure Beside (related : Session → Session → Prop) (matched : Int → Int → Prop) (fits : Int → Prop)
    (left right : Exchange) : Prop where
  session : related left.session right.session
  inputs : List.Forall₂ matched left.inputs right.inputs
  outputs : right.outputs = left.outputs
  closed : right.closed = left.closed
  fit : ∀ word ∈ left.outputs, fits word

variable {related : Session → Session → Prop} {matched : Int → Int → Prop} {fits : Int → Prop}
  {left right : Exchange}

namespace Beside

theorem act {α : Type} {meets : α → Session → Prop} {call call' : Call Session α}
    (beside : Beside related matched fits left right)
    (paired : Paired related meets call call' left.session right.session) :
    Paired (Beside related matched fits) (fun value after => meets value after.session)
      (Exchange.act call) (Exchange.act call') left right := by
  have again {session session' : Session} (kept : related session session') :
      Beside related matched fits { left with session } { right with session := session' } :=
    ⟨kept, beside.inputs, beside.outputs, beside.closed, beside.fit⟩
  intro bound
  have both := paired bound
  unfold Exchange.act Call.onPart
  generalize call bound left.session = reply, call' bound right.session = reply' at both ⊢
  cases both with
  | unfinished => exact .unfinished
  | fails kept => exact .fails (again kept)
  | answers kept met => exact .answers (again kept) met

theorem push (beside : Beside related matched fits left right) {word : Int} (fit : fits word) :
    Beside related matched fits { left with outputs := left.outputs.push word }
      { right with outputs := right.outputs.push word } where
  session := beside.session
  inputs := beside.inputs
  outputs := congrArg (·.push word) beside.outputs
  closed := beside.closed
  fit other member := by
    rcases Array.mem_push.mp member with member | rfl
    · exact beside.fit other member
    · exact fit

theorem serve (companions : Companions related matched fits)
    (beside : Beside related matched fits left right) {suspension : Suspension}
    (fit : ∀ word ∈ suspension.words, fits word) :
    Paired (Beside related matched fits) (fun next _ => ∀ word ∈ next.words, fits word)
      (Exchange.serve suspension) (Exchange.serve suspension) left right := by
  have fitting {call call' : Call Session Suspension} {left right : Exchange}
      (beside : Beside related matched fits left right)
      (resumed : Paired related (Session.Stops fits) call call' left.session right.session) :=
    (beside.act resumed).weaken fun (_ : Suspension) _ stops => stops.2
  cases suspension with
  | complete => exact .pure beside nofun
  | producedOutput value =>
    have refused {exchange : Exchange} (closed : exchange.closed = true) (bound : Nat) :
        deliver value bound exchange = some (.error (.outputRefused value), exchange) := by
      rw [deliver_apply, if_pos closed]
    have accepted {exchange : Exchange} (opened : exchange.closed = false) (bound : Nat) :
        deliver value bound exchange =
          some (.ok (), { exchange with outputs := exchange.outputs.push value }) := by
      rw [deliver_apply, opened]
      rfl
    cases closed : left.closed with
    | true => exact .bind_of_failed (refused closed) (refused (beside.closed.trans closed)) beside
    | false =>
      have delivered := beside.push (fit value (List.mem_singleton_self value))
      exact .bind_of_found (accepted closed) (accepted (beside.closed.trans closed))
        (fitting delivered (companions.unfed delivered.session))
  | awaitingInput address =>
    have refused {exchange : Exchange} (closed : exchange.closed = true) (bound : Nat) :
        take bound exchange = some (.error .inputRefused, exchange) := by
      rw [take_apply, if_pos closed]
    have drained {exchange : Exchange} (opened : exchange.closed = false)
        (supply : exchange.inputs = []) (bound : Nat) :
        take bound exchange = some (.error .inputDrained, exchange) := by
      rw [take_apply, opened, supply]
      rfl
    have taken {exchange : Exchange} (opened : exchange.closed = false) {value : Int} {rest : List Int}
        (supply : exchange.inputs = value :: rest) (bound : Nat) :
        take bound exchange = some (.ok value, { exchange with inputs := rest }) := by
      rw [take_apply, opened, supply]
      rfl
    cases closed : left.closed with
    | true => exact .bind_of_failed (refused closed) (refused (beside.closed.trans closed)) beside
    | false =>
      have closed' := beside.closed.trans closed
      have inputs := beside.inputs
      generalize supply : left.inputs = values, supply' : right.inputs = values' at inputs
      cases inputs with
      | nil => exact .bind_of_failed (drained closed supply) (drained closed' supply') beside
      | cons same rest =>
        exact .bind_of_found (taken closed supply) (taken closed' supply')
          (fitting ⟨beside.session, rest, beside.outputs, beside.closed, beside.fit⟩
            (companions.fed same beside.session))

theorem serveAll (companions : Companions related matched fits) (rounds : Nat)
    {suspension : Suspension} (beside : Beside related matched fits left right)
    (fit : ∀ word ∈ suspension.words, fits word) :
    Paired (Beside related matched fits) (fun _ _ => True) (Exchange.serveAll rounds suspension)
      (Exchange.serveAll rounds suspension) left right := by
  induction rounds generalizing suspension left right with
  | zero =>
    cases suspension with
    | complete => exact .pure beside trivial
    | producedOutput value => exact fun _ => .unfinished
    | awaitingInput address => exact fun _ => .unfinished
  | succ rounds ih =>
    by_cases halted : suspension = .complete
    · rw [halted, serveAll_complete]
      exact .pure beside trivial
    · rw [serveAll_succ rounds halted]
      exact (beside.serve companions fit).bind fun _ _ _ kept fit => ih kept fit

theorem drive (companions : Companions related matched fits)
    (beside : Beside related matched fits left right) :
    Paired (Beside related matched fits) (fun _ _ => True) Exchange.drive Exchange.drive left right := by
  intro bound
  rw [drive_apply, drive_apply]
  have resumed := beside.act (companions.unfed beside.session)
  have driven := resumed.bind fun _ _ _ kept stops => kept.serveAll companions bound stops.2
  exact driven bound

end Beside
end Exchange
end Intcode
