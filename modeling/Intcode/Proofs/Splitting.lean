import Intcode.Proofs.Closure
import Intcode.Proofs.HostRounds
import Intcode.Proofs.HostViews
import Intcode.Proofs.LongNumbers

/-! Reading outputs in two portions. The second reading goes on where the first one stopped, so that
together they are one reading of all the outputs: it answers with the same words, or with none, or
fails in the same way. What was read is what a drive of the same session delivers first. -/

namespace Intcode

namespace Fault

/-- A request for input in the middle of a reading, as a larger reading that began earlier tells it. -/
def recounted (earlier : Nat) (wanted : Int) : Fault → Fault
  | inputDuringOutputs got _ => inputDuringOutputs (earlier + got) wanted
  | fault => fault

/-- If the fault is such a request, it counts the outputs of a reading of so many. -/
def Counts (wanted : Int) (fault : Fault) : Prop :=
  ∀ got total, fault = inputDuringOutputs got total → 0 ≤ got ∧ got ≤ wanted ∧ total = wanted

private theorem recounted_of_kind {fault : Fault} (other : fault.causeKind ≠ .protocol) (earlier : Nat) (wanted : Int) :
    fault.recounted earlier wanted = fault := by
  cases fault with
  | inputDuringOutputs got total => exact (other rfl).elim
  | _ => rfl

/-- A request that is not reported as a breach of protocol has a count that is too long to be
written, and so has the larger reading's. -/
theorem recounted_report {fault : Fault} {wanted wanted' : Int} (counts : fault.Counts wanted)
    (more : wanted ≤ wanted') (other : fault.kind ≠ .protocol) (earlier : Nat) :
    (fault.recounted earlier wanted').kind = fault.kind ∧
      (fault.recounted earlier wanted').message = fault.message := by
  cases fault with
  | inputDuringOutputs got total =>
    obtain ⟨least, below, rfl⟩ := counts got total rfl
    have unwritable : (inputDuringOutputs got total).isUnwritable = true := by
      by_contra written
      apply other
      rw [kind, if_neg written]
      rfl
    have long : Text.Numeral.isTooLong total = true := by
      rw [isUnwritable, numbers, List.any_cons, List.any_cons, List.any_nil, Bool.or_false,
        Bool.or_eq_true] at unwritable
      rcases unwritable with long | long
      · exact Text.Numeral.isTooLong_of_le least below long
      · exact long
    have longer : (inputDuringOutputs (earlier + got) wanted').isUnwritable = true := by
      rw [isUnwritable, numbers, List.any_cons, List.any_cons, Text.Numeral.isTooLong_of_le (by omega) more long]
      simp
    simp only [recounted, kind, message, unwritable, longer]
    exact ⟨rfl, rfl⟩
  | _ => exact ⟨rfl, rfl⟩

end Fault

/-- The call fails, and its report cannot be told from the fault's. -/
def Call.FailsAs {σ α : Type} (call : Call σ α) (before : σ) (fault : Fault) (after : σ) : Prop :=
  ∃ other, call.Ends before (.error other) after ∧ other.kind = fault.kind ∧ other.message = fault.message

namespace Session

variable {session after : Session}

/-- A session is read twice, or once for all. -/
structure Splits (first second whole : Call Session (Option (List Int))) (session : Session) : Prop where
  both : ∀ {outputs middle rest after}, first.Ends session (.ok (some outputs)) middle →
    second.Ends middle (.ok rest) after → whole.Ends session (.ok (rest.map (outputs ++ ·))) after
  halts : ∀ {after}, first.Ends session (.ok none) after → whole.Ends session (.ok none) after
  fails : ∀ {fault after}, first.Ends session (.error fault) after → fault.kind ≠ .protocol →
    whole.FailsAs session fault after
  failsLater : ∀ {outputs middle fault after}, first.Ends session (.ok (some outputs)) middle →
    second.Ends middle (.error fault) after → fault.kind ≠ .protocol → whole.FailsAs session fault after

section Reading

variable {wanted : Int} {missing : Nat} {collected : List Int}

def drainOn (wanted : Int) (missing : Nat) : Option (List Int) → Call Session (Option (List Int))
  | none => return none
  | some collected => drain wanted missing collected

private theorem drain_add (wanted : Int) (first second : Nat) (collected : List Int) :
    drain wanted (first + second) collected = drain wanted first collected >>= drainOn wanted second := by
  induction first generalizing collected with
  | zero =>
    rw [Nat.zero_add, drain, pure_bind]
    rfl
  | succ first ih =>
    rw [Nat.add_right_comm, drain, drain, bind_assoc]
    congr 1
    funext suspension
    cases suspension with
    | complete => rfl
    | awaitingInput address => rfl
    | producedOutput value => exact ih _

/-- What is answered behind outputs that were collected earlier. -/
def behind (earlier : List Int) (wanted : Int) : Except Fault (Option (List Int)) → Except Fault (Option (List Int))
  | .ok outputs => .ok (outputs.map (earlier ++ ·))
  | .error fault => .error (fault.recounted earlier.length wanted)

private theorem drain_behind (earlier : List Int) (wanted' : Int) (bound : Nat) :
    drain wanted' missing (earlier ++ collected) bound session =
      (drain wanted missing collected bound session).map (Prod.map (behind earlier wanted') id) := by
  induction missing generalizing collected session with
  | zero => rfl
  | succ missing ih =>
    rw [drain, drain, Call.bind_apply, Call.bind_apply]
    rcases resumed : resume none bound session with _ | ⟨fault | suspension, middle⟩
    · rfl
    · -- The machine itself raises no fault that counts outputs.
      have same : fault.recounted earlier.length wanted' = fault := by
        rcases resume_fails ⟨bound, resumed⟩ with refused | kind | kind | kind
        · cases refused <;> rfl
        all_goals
          apply Fault.recounted_of_kind
          rw [kind]
          exact nofun
      simp [behind, same]
    · cases suspension with
      | complete => rfl
      | awaitingInput address => simp [behind, Fault.recounted]
      | producedOutput value =>
        have went := @ih middle (collected ++ [value])
        rw [← List.append_assoc] at went
        exact went

private theorem ends_drain_behind {outcome : Except Fault (Option (List Int))} (earlier : List Int) (wanted' : Int)
    (ends : (drain wanted missing collected).Ends session outcome after) :
    (drain wanted' missing (earlier ++ collected)).Ends session (behind earlier wanted' outcome) after := by
  obtain ⟨bound, answered⟩ := ends
  refine ⟨bound, ?_⟩
  rw [drain_behind earlier wanted' bound, answered]
  rfl

private theorem drain_counts {fault : Fault} (exactly : wanted = collected.length + missing)
    (fails : (drain wanted missing collected).Ends session (.error fault) after) : fault.Counts wanted := by
  induction missing generalizing collected session with
  | zero => cases (Call.ends_pure.mp fails).1
  | succ missing ih =>
    rcases fails.of_bind with ⟨cause, same, failed⟩ | ⟨suspension, middle, _, fails⟩
    · cases same
      rintro got total rfl
      rcases resume_fails failed with refused | kind | kind | kind
      · cases refused
      all_goals cases kind
    · cases suspension with
      | complete => cases (Call.ends_pure.mp fails).1
      | awaitingInput address =>
        cases (Call.ends_throw.mp fails).1
        rintro got total ⟨rfl, rfl⟩
        omega
      | producedOutput value =>
        apply ih _ fails
        rw [List.length_append, List.length_singleton]
        omega

theorem splits_stepRead (session : Session) (first second : Nat) :
    Splits (stepRead first) (stepRead second) (stepRead ↑(first + second)) session := by
  let wanted : Int := ↑(first + second)
  have more : (first : Int) ≤ wanted ∧ (second : Int) ≤ wanted := by omega
  have whole : stepRead wanted = drain wanted first [] >>= drainOn wanted second := drain_add wanted first second []
  have steady : (drain wanted first []).Steady := closed_steady.drain _ _ _
  have onward (answer : Option (List Int)) : (drainOn wanted second answer).Steady := by
    cases answer with
    | none => exact Call.steady_pure _
    | some outputs => exact closed_steady.drain _ _ _
  have begun {outcome : Except Fault (Option (List Int))} {middle : Session}
      (ends : (stepRead first).Ends session outcome middle) :
      (drain wanted first []).Ends session (behind [] wanted outcome) middle := ends_drain_behind [] wanted ends
  have begun_some {outputs : List Int} {middle : Session}
      (ends : (stepRead first).Ends session (.ok (some outputs)) middle) :
      (drain wanted first []).Ends session (.ok (some outputs)) middle := begun ends
  have later {outputs : List Int} {outcome : Except Fault (Option (List Int))} {middle after : Session}
      (ends : (stepRead second).Ends middle outcome after) :
      (drain wanted second outputs).Ends middle (behind outputs wanted outcome) after := by
    have went := ends_drain_behind outputs wanted ends
    rwa [List.append_nil] at went
  constructor
  · intro outputs middle rest after one two
    rw [whole, Call.ends_bind steady onward]
    exact .inr ⟨_, middle, begun_some one, later two⟩
  · intro after one
    rw [whole, Call.ends_bind steady onward]
    exact .inr ⟨none, after, begun one, Call.ends_pure.mpr ⟨rfl, rfl⟩⟩
  · intro fault after fails other
    have counts : fault.Counts first := drain_counts (by simp) fails
    refine ⟨_, ?_, Fault.recounted_report counts more.1 other 0⟩
    rw [whole, Call.ends_bind steady onward]
    exact .inl ⟨_, rfl, begun fails⟩
  · intro outputs middle fault after one fails other
    have counts : fault.Counts second := drain_counts (by simp) fails
    refine ⟨_, ?_, Fault.recounted_report counts more.2 other outputs.length⟩
    rw [whole, Call.ends_bind steady onward]
    exact .inr ⟨_, middle, begun_some one, later fails⟩

end Reading

namespace Splits

variable {second : Call Session (Option (List Int))}

theorem bind {α : Type} {call : Call Session α} {first whole : α → Call Session (Option (List Int))}
    (steady : call.Steady) (wholes : ∀ value, (whole value).Steady)
    (splits : ∀ value middle, call.Ends session (.ok value) middle → Splits (first value) second (whole value) middle) :
    Splits (call >>= first) second (call >>= whole) session := by
  constructor
  · intro outputs middle rest after one two
    obtain ⟨value, between, went, one⟩ := one.of_bind_ok
    exact (Call.ends_bind steady wholes).mpr (.inr ⟨value, between, went, (splits value between went).both one two⟩)
  · intro after one
    obtain ⟨value, between, went, one⟩ := one.of_bind_ok
    exact (Call.ends_bind steady wholes).mpr (.inr ⟨value, between, went, (splits value between went).halts one⟩)
  · intro fault after fails other
    rcases fails.of_bind with ⟨cause, same, failed⟩ | ⟨value, between, went, fails⟩
    · cases same
      exact ⟨fault, (Call.ends_bind steady wholes).mpr (.inl ⟨fault, rfl, failed⟩), rfl, rfl⟩
    · obtain ⟨told, ends, report⟩ := (splits value between went).fails fails other
      exact ⟨told, (Call.ends_bind steady wholes).mpr (.inr ⟨value, between, went, ends⟩), report⟩
  · intro outputs middle fault after one fails other
    obtain ⟨value, between, went, one⟩ := one.of_bind_ok
    obtain ⟨told, ends, report⟩ := (splits value between went).failsLater one fails other
    exact ⟨told, (Call.ends_bind steady wholes).mpr (.inr ⟨value, between, went, ends⟩), report⟩

end Splits

def heading (word : Int) (answer : Option (List Int)) : Call Session (Option (List Int)) :=
  return (word :: ·) <$> answer

private theorem ends_heading {call : Call Session (Option (List Int))} {outputs : Option (List Int)}
    (ends : call.Ends session (.ok outputs) after) (word : Int) :
    (call >>= heading word).Ends session (.ok ((word :: ·) <$> outputs)) after := by
  obtain ⟨bound, answered⟩ := ends
  refine ⟨bound, ?_⟩
  rw [Call.bind_apply, answered]
  rfl

theorem fails_heading {call : Call Session (Option (List Int))} {word : Int} {fault : Fault} :
    (call >>= heading word).Ends session (.error fault) after ↔ call.Ends session (.error fault) after := by
  constructor
  · intro fails
    rcases fails.of_bind with ⟨cause, same, failed⟩ | ⟨outputs, middle, _, impossible⟩
    · cases same
      exact failed
    · cases (Call.ends_pure.mp impossible).1
  · intro ⟨bound, answered⟩
    refine ⟨bound, ?_⟩
    rw [Call.bind_apply, answered]

/-- A word that stands there before the readings comes before what they answer. -/
theorem Splits.heading {first second whole : Call Session (Option (List Int))}
    (splits : Splits first second whole session) (word : Int) : Splits (first >>= Session.heading word) second (whole >>= Session.heading word) session := by
  have opened {outputs : Option (List Int)} {middle : Session}
      (ends : (first >>= Session.heading word).Ends session (.ok outputs) middle) :
      ∃ answer, first.Ends session (.ok answer) middle ∧ outputs = (word :: ·) <$> answer := by
    obtain ⟨answer, between, one, ends⟩ := ends.of_bind_ok
    obtain ⟨same, rfl⟩ := Call.ends_pure.mp ends
    cases same
    exact ⟨answer, one, rfl⟩
  constructor
  · intro outputs middle rest after one two
    obtain ⟨answer, gave, same⟩ := opened one
    cases answer with
    | none => cases same
    | some others =>
      cases same
      have went := ends_heading (splits.both gave two) word
      cases rest <;> exact went
  · intro after one
    obtain ⟨answer, gave, same⟩ := opened one
    cases answer with
    | none => exact ends_heading (splits.halts gave) word
    | some others => cases same
  · intro fault after fails other
    obtain ⟨told, ends, report⟩ := splits.fails (fails_heading.mp fails) other
    exact ⟨told, fails_heading.mpr ends, report⟩
  · intro outputs middle fault after one fails other
    obtain ⟨answer, gave, same⟩ := opened one
    cases answer with
    | none => cases same
    | some others =>
      obtain ⟨told, ends, report⟩ := splits.failsLater gave fails other
      exact ⟨told, fails_heading.mpr ends, report⟩

/-- Collect so many outputs from where feeding left the machine. The word that stands there is the
first of them. -/
def collectFrom (count : Nat) : Option Suspension → Call Session (Option (List Int))
  | some .complete => return none
  | some (.producedOutput word) => stepRead ↑(count - 1) >>= heading word
  | _ => stepRead count

private theorem stepN_of_fed {values : List Int} (fed : values ≠ []) {count : Nat} (collects : 1 ≤ count) :
    stepN values count = feed values.length 0 values >>= collectFrom count := by
  have both : (!values.isEmpty && decide (0 < (count : Int))) = true := by
    rw [List.isEmpty_eq_false_iff.mpr fed]
    simp
    omega
  have less : ((count - 1 : Nat) : Int) = count - 1 := by omega
  unfold stepN
  congr 1
  funext left
  rcases left with _ | ⟨address | word | _⟩
  · rfl
  · rfl
  · simp only [both, if_true, collectFrom, less]
    rfl
  · rfl

private theorem steady_collectFrom (count : Nat) (left : Option Suspension) : (collectFrom count left).Steady := by
  rcases left with _ | ⟨address | word | _⟩
  · exact closed_steady.stepRead _
  · exact closed_steady.stepRead _
  · exact Call.steady_bind (closed_steady.stepRead _) fun _ => Call.steady_pure _
  · exact Call.steady_pure _

private theorem splits_collectFrom (session : Session) {first : Nat} (collects : 1 ≤ first) (second : Nat)
    (left : Option Suspension) :
    Splits (collectFrom first left) (stepRead second) (collectFrom (first + second) left) session := by
  rcases left with _ | ⟨address | word | _⟩
  · exact splits_stepRead session first second
  · exact splits_stepRead session first second
  · have less : first + second - 1 = first - 1 + second := by omega
    rw [collectFrom, collectFrom, less]
    exact (splits_stepRead session (first - 1) second).heading word
  · constructor
    · intro outputs middle rest after one
      cases (Call.ends_pure.mp one).1
    · exact id
    · intro fault after fails
      cases (Call.ends_pure.mp fails).1
    · intro outputs middle fault after one
      cases (Call.ends_pure.mp one).1

theorem splits_stepN (session : Session) {values : List Int} (fed : values ≠ []) {first : Nat} (collects : 1 ≤ first)
    (second : Nat) : Splits (stepN values first) (stepRead second) (stepN values ↑(first + second)) session := by
  rw [stepN_of_fed fed collects, stepN_of_fed fed (Nat.le_add_right_of_le collects)]
  apply Splits.bind (closed_steady.feed _ _ values) (steady_collectFrom _)
  intro left middle _
  exact splits_collectFrom middle collects second left

end Session

namespace Wired

/-- What the sink collects comes behind earlier words. -/
def behind (earlier : Array Int) (wired : Wired) : Wired where
  session := wired.session
  source := wired.source
  sink := match wired.sink with
    | .collected words => .collected (earlier ++ words)
    | sink => sink

private theorem behind_seenAs (earlier : Array Int) : host.SeenAs (behind earlier) host where
  session _ := rfl
  restore _ _ := rfl
  take := by
    intro bound ⟨session, source, sink⟩
    rcases source with _ | ⟨_ | ⟨value, rest⟩⟩ | words <;> rfl
  deliver := by
    intro value bound ⟨session, source, sink⟩
    cases sink with
    | refusing => rfl
    | printed text => rfl
    | collected words =>
      have same : earlier ++ words.push value = (earlier ++ words).push value := Array.append_push
      change some (Except.ok (), Wired.mk session source (.collected (earlier ++ words.push value))) = _
      rw [same]
      rfl

private theorem behind_eq_iff {earlier words : Array Int} {wired : Wired} {session : Session} {source : Source} :
    wired.behind earlier = ⟨session, source, .collected (earlier ++ words)⟩ ↔
      wired = ⟨session, source, .collected words⟩ := by
  obtain ⟨left, rest, sink⟩ := wired
  cases sink <;> simp [behind, Array.append_right_inj]

theorem ends_drive_behind {earlier delivered : Array Int} {session final : Session} {source rest : Source}
    {outcome : Except Fault Unit} :
    host.drive.Ends ⟨session, source, .collected earlier⟩ outcome ⟨final, rest, .collected (earlier ++ delivered)⟩ ↔
      host.drive.Ends ⟨session, source, .collected #[]⟩ outcome ⟨final, rest, .collected delivered⟩ := by
  have start : Wired.mk session source (.collected earlier) = behind earlier ⟨session, source, .collected #[]⟩ := by
    simp [behind]
  rw [start, (behind_seenAs earlier).drive.ends_iff]
  constructor
  · intro ⟨wired, ends, same⟩
    rw [behind_eq_iff.mp same.symm] at ends
    exact ends
  · intro ends
    exact ⟨_, ends, rfl⟩

theorem steady_host : host.Steady where
  take := by
    apply Call.steady_of_instant
    intro bound larger
    funext ⟨session, source, sink⟩
    rcases source with _ | ⟨_ | ⟨value, rest⟩⟩ | words <;> rfl
  deliver value := by
    apply Call.steady_of_instant
    intro bound larger
    funext ⟨session, source, sink⟩
    cases sink <;> rfl

/-- Words that were read before a drive are those that a drive without the reading delivers first. -/
theorem ends_drive_of_drain {wanted : Int} {missing : Nat} {collected outputs : List Int} {session left : Session}
    (read : (Session.drain wanted missing collected).Ends session (.ok (some outputs)) left) :
    ∃ words, outputs = collected ++ words ∧ ∀ source delivered outcome after,
      host.drive.Ends ⟨session, source, .collected delivered⟩ outcome after ↔
        host.drive.Ends ⟨left, source, .collected (delivered ++ words.toArray)⟩ outcome after := by
  induction missing generalizing collected session with
  | zero =>
    obtain ⟨same, rfl⟩ := Call.ends_pure.mp read
    cases same
    exact ⟨[], by simp, by simp⟩
  | succ missing ih =>
    obtain ⟨suspension, middle, emits, read⟩ := read.of_bind_ok
    cases suspension with
    | complete => cases (Call.ends_pure.mp read).1
    | awaitingInput address => cases (Call.ends_throw.mp read).1
    | producedOutput word =>
      obtain ⟨words, rfl, onward⟩ := ih read
      refine ⟨word :: words, by simp, fun source delivered outcome after => ?_⟩
      have delivers :
          (host.deliver word >>= fun _ => host.drive).Ends ⟨middle, source, .collected delivered⟩ outcome after ↔
          host.drive.Ends ⟨middle, source, .collected (delivered.push word)⟩ outcome after :=
        Call.ends_bind_of_ok fun _ => rfl
      have begins : (Session.resume none).Ends (host.session ⟨session, source, .collected delivered⟩) _ middle := emits
      refine (steady_host.ends_drive_output begins).trans (delivers.trans ?_)
      rw [onward source (delivered.push word)]
      simp

end Wired

open Session (Splits)

/-- Reading so many outputs and then so many more is reading them all: with one answer, which is
none where the machine halts, one state of the session afterwards, and one report of any fault but a
breach of protocol. That holds also where words are fed before the first outputs are collected. And
driving a session that was read delivers what driving it unread does, but for the words read. -/
theorem reading_splits (session : Session) (first second : Nat) :
    Splits (Session.stepRead first) (Session.stepRead second) (Session.stepRead ↑(first + second)) session ∧
    (∀ values, values ≠ [] → 1 ≤ first →
      Splits (Session.stepN values first) (Session.stepRead second) (Session.stepN values ↑(first + second)) session) ∧
    ∀ outputs left, (Session.stepRead first).Ends session (.ok (some outputs)) left →
      ∀ source outcome final rest delivered,
        Wired.host.drive.Ends ⟨left, source, .collected #[]⟩ outcome ⟨final, rest, .collected delivered⟩ ↔
          Wired.host.drive.Ends ⟨session, source, .collected #[]⟩ outcome
            ⟨final, rest, .collected (outputs.toArray ++ delivered)⟩ := by
  refine ⟨Session.splits_stepRead session first second, fun values fed collects => ?_, ?_⟩
  · exact Session.splits_stepN session fed collects second
  · intro outputs left read source outcome final rest delivered
    obtain ⟨words, same, onward⟩ := Wired.ends_drive_of_drain read
    rw [List.nil_append] at same
    subst same
    rw [onward, Array.empty_append, Wired.ends_drive_behind]

/-- Two outputs are read one by one or at once, and a drive that follows the first delivers the rest.
Where the first of them answers a word that was fed, they are collected together or apart. -/
theorem reading_splits_of_two_outputs :
    (∃ middle after final rest,
      (Session.stepRead 1).Ends (.load [104, 7, 104, 8, 99] false none) (.ok (some [7])) middle ∧
      (Session.stepRead 1).Ends middle (.ok (some [8])) after ∧
      (Session.stepRead 2).Ends (.load [104, 7, 104, 8, 99] false none) (.ok (some [7, 8])) after ∧
      Wired.host.drive.Ends ⟨middle, .refusing, .collected #[]⟩ (.ok ()) ⟨final, rest, .collected #[8]⟩ ∧
      Wired.host.drive.Ends ⟨.load [104, 7, 104, 8, 99] false none, .refusing, .collected #[]⟩ (.ok ())
        ⟨final, rest, .collected #[7, 8]⟩) ∧
    ∃ waiting middle after,
      Session.waitForInput.Ends (.load [3, 10, 104, 7, 4, 10, 99] false none) (.ok true) waiting ∧
      (Session.stepN [5] 1).Ends waiting (.ok (some [7])) middle ∧
      (Session.stepRead 1).Ends middle (.ok (some [5])) after ∧
      (Session.stepN [5] 2).Ends waiting (.ok (some [7, 5])) after := by
  constructor
  · let readings : Call Session (Option (List Int) × Option (List Int)) := do
      return (← Session.stepRead 1, ← Session.stepRead 1)
    obtain ⟨after, ends⟩ : ∃ after, readings.Ends (.load [104, 7, 104, 8, 99] false none)
        (.ok (some [7], some [8])) after := Call.exists_ends 9 (by decide +kernel)
    obtain ⟨_, middle, one, ends⟩ := ends.of_bind_ok
    obtain ⟨_, last, two, ends⟩ := ends.of_bind_ok
    obtain ⟨same, rfl⟩ := Call.ends_pure.mp ends
    cases same
    obtain ⟨twice, _, drives⟩ := reading_splits (.load [104, 7, 104, 8, 99] false none) 1 1
    obtain ⟨⟨final, rest, _⟩, whole, seen⟩ : ∃ final, Wired.host.drive.Ends
        ⟨.load [104, 7, 104, 8, 99] false none, .refusing, .collected #[]⟩ (.ok ()) final ∧
        final.sink = .collected #[7, 8] := Call.ends_of_view (fun final : Wired => final.sink) 9 (by decide +kernel)
    cases seen
    have behind := (drives [7] middle one .refusing (.ok ()) final rest #[8]).mpr whole
    exact ⟨middle, after, final, rest, one, two, twice.both one two, behind, whole⟩
  · let readings : Call Session (Option (List Int) × Option (List Int)) := do
      if ← Session.waitForInput then return (← Session.stepN [5] 1, ← Session.stepRead 1) else return (none, none)
    obtain ⟨after, ends⟩ : ∃ after, readings.Ends (.load [3, 10, 104, 7, 4, 10, 99] false none)
        (.ok (some [7], some [5])) after := Call.exists_ends 9 (by decide +kernel)
    obtain ⟨waits, waiting, began, ends⟩ := ends.of_bind_ok
    cases waits with
    | false => cases (Call.ends_pure.mp ends).1
    | true =>
      obtain ⟨_, middle, one, ends⟩ := ends.of_bind_ok
      obtain ⟨_, last, two, ends⟩ := ends.of_bind_ok
      obtain ⟨same, rfl⟩ := Call.ends_pure.mp ends
      cases same
      have splits := (reading_splits waiting 1 1).2.1 [5] (List.cons_ne_nil 5 []) (Nat.le_refl 1)
      exact ⟨waiting, middle, after, began, one, two, splits.both one two⟩

end Intcode
