import Intcode.Proofs.Emission
import Intcode.Session.Stepping

/-! What a successful stepping call consumes and emits, set against what it answers. -/

namespace Intcode.Session

def consumed (met : Option Suspension) (value : Int) : List Int :=
  match met with
  | some (.awaitingInput _) => [value]
  | _ => []

def standing (session : Session) : List Int := session.machine.suspension.toList.flatMap (·.words)

theorem standing_of_stopped {session : Session} {suspension : Suspension}
    (stopped : session.machine.suspension = some suspension) : session.standing = suspension.words := by
  unfold standing
  rw [stopped]
  simp

private theorem resume_accounted {before after : Session} {value : Int} {suspension : Suspension}
    (ends : (resume (some value)).Ends before (.ok suspension) after) :
    Accounted before (consumed before.machine.suspension value) suspension.words after := by
  unfold consumed
  split
  next awaiting => exact .of_fed awaiting ends
  next idle => exact .of_unfed (fun address awaiting => idle address awaiting) ends

def Awaits (session : Session) : Prop :=
  ∃ address, session.machine.suspension = some (.awaitingInput address)

/-- The ways in which a step succeeds. -/
inductive Stepped (before : Session) (value : Int) : Option Int → Bool → Session → Prop where
  | silent (halts : (resume (some value)).Ends before (.ok .complete) after) :
    Stepped before value none true after
  | halted (emits : (resume (some value)).Ends before (.ok (.producedOutput output)) middle)
    (halts : (resume none).Ends middle (.ok .complete) after) :
    Stepped before value (some output) true after
  | asking (emits : (resume (some value)).Ends before (.ok (.producedOutput output)) middle)
    (asks : (resume none).Ends middle (.ok (.awaitingInput address)) after) :
    Stepped before value (some output) false after

section Step

variable {before after : Session} {value : Int} {given : Option Int} {done : Bool}

theorem stepped (ends : (step value).Ends before (.ok (given, done)) after) :
    Stepped before value given done after := by
  obtain ⟨first, middle, fed, ends⟩ := ends.of_bind_ok
  cases first with
  | complete =>
    obtain ⟨same, rfl⟩ := Call.ends_pure.mp ends
    cases same
    exact .silent fed
  | awaitingInput address => cases (Call.ends_throw.mp ends).1
  | producedOutput output =>
    obtain ⟨second, last, unfed, ends⟩ := ends.of_bind_ok
    cases second with
    | producedOutput another => cases (Call.ends_throw.mp ends).1
    | complete =>
      obtain ⟨same, rfl⟩ := Call.ends_pure.mp ends
      cases same
      exact .halted fed unfed
    | awaitingInput address =>
      obtain ⟨same, rfl⟩ := Call.ends_pure.mp ends
      cases same
      exact .asking fed unfed

/-- A step leaves a machine that has halted, or one that gave an output and awaits a word. -/
theorem Stepped.rests (stepped : Stepped before value given done after) :
    (done = true ∧ after.machine.suspension = some .complete) ∨
      done = false ∧ after.Awaits ∧ given ≠ none := by
  cases stepped with
  | silent halts | halted _ halts => exact .inl ⟨rfl, (resume_emits halts).1⟩
  | asking _ asks => exact .inr ⟨rfl, ⟨_, (resume_emits asks).1⟩, nofun⟩

theorem step_accounted (ends : (step value).Ends before (.ok (given, done)) after) :
    Accounted before (consumed before.machine.suspension value) given.toList after := by
  cases stepped ends with
  | silent halts => exact resume_accounted halts
  | halted emits ends | asking emits ends =>
    have went := (resume_accounted emits).trans (.of_none ends)
    rw [List.append_nil] at went
    exact went

end Step

theorem drain_resumed {wanted : Int} {missing : Nat} {collected outputs : List Int}
    {before after : Session}
    (ends : (drain wanted missing collected).Ends before (.ok (some outputs)) after) :
    ∃ words, outputs = collected ++ words ∧ words.length = missing ∧ Resumed before [] words after := by
  induction missing generalizing collected before with
  | zero =>
    obtain ⟨same, rfl⟩ := Call.ends_pure.mp ends
    cases same
    exact ⟨[], (List.append_nil _).symm, rfl, .rest⟩
  | succ missing ih =>
    obtain ⟨suspension, middle, unfed, ends⟩ := ends.of_bind_ok
    cases suspension with
    | complete => cases (Call.ends_pure.mp ends).1
    | awaitingInput address => cases (Call.ends_throw.mp ends).1
    | producedOutput word =>
      obtain ⟨words, rfl, length, rest⟩ := ih ends
      refine ⟨word :: words, by simp, by simp [length], ?_⟩
      exact (Resumed.of_none unfed).trans rest

theorem stepRead_resumed {count : Int} {outputs : List Int} {before after : Session}
    (ends : (stepRead count).Ends before (.ok (some outputs)) after) :
    Resumed before [] outputs after := by
  obtain ⟨words, rfl, _, resumed⟩ := drain_resumed ends
  exact resumed

theorem stepRead_length {count : Int} {outputs : List Int} {before after : Session}
    (ends : (stepRead count).Ends before (.ok (some outputs)) after) : outputs.length = count.toNat := by
  obtain ⟨words, rfl, length, _⟩ := drain_resumed ends
  exact length

private theorem stepRead_of_nonpos {count : Int} (none : count ≤ 0) {outputs : List Int}
    {before after : Session} (ends : (stepRead count).Ends before (.ok (some outputs)) after) :
    outputs = [] ∧ after = before := by
  unfold stepRead at ends
  rw [Int.toNat_of_nonpos none] at ends
  obtain ⟨same, rfl⟩ := Call.ends_pure.mp ends
  cases same
  exact ⟨rfl, rfl⟩

/-- Words are fed to a machine that awaits every one of them, so that nothing is emitted
before the last of them is consumed. -/
theorem feed_resumed {total index : Nat} {values : List Int} {left : Option Suspension}
    {before after : Session} (ends : (feed total index values).Ends before (.ok left) after) :
    left = after.machine.suspension ∧
      Resumed before values (if values = [] then [] else after.standing) after ∧
      (values = [] → after = before) := by
  induction values generalizing index before with
  | nil =>
    rw [feed, Call.ends_get_bind] at ends
    obtain ⟨same, rfl⟩ := Call.ends_pure.mp ends
    cases same
    exact ⟨rfl, .rest, fun _ => rfl⟩
  | cons value rest ih =>
    rw [feed, Call.ends_get_bind] at ends
    simp only at ends
    split at ends
    next address awaiting =>
      obtain ⟨_, middle, given, ends⟩ := ends.of_bind_ok
      obtain ⟨suspension, fed, _⟩ := Call.Ends.of_map_ok given
      have took := Resumed.of_fed awaiting fed
      have stopped := (resume_emits fed).1
      obtain ⟨same, went, still⟩ := ih ends
      refine ⟨same, ?_, nofun⟩
      rw [if_neg (List.cons_ne_nil value rest)]
      cases rest with
      | nil =>
        rw [still rfl, standing_of_stopped stopped]
        exact took
      | cons next more =>
        -- The next word finds the machine awaiting it, so this one made it emit nothing.
        have silent : suspension.words = [] := by
          rw [feed, Call.ends_get_bind, stopped] at ends
          cases suspension with
          | awaitingInput address => rfl
          | complete => rfl
          | producedOutput word =>
            obtain ⟨_, _, impossible, _⟩ := ends.of_bind_ok
            cases (Call.ends_throw.mp impossible).1
        rw [silent] at took
        exact took.trans went
    next =>
      obtain ⟨_, _, impossible, _⟩ := ends.of_bind_ok
      cases (Call.ends_throw.mp impossible).1

/-- The word that a call leaves standing, and nobody is told: it fed the machine, and was
to collect nothing. -/
def unreported (values : List Int) (count : Int) (left : Option Suspension) : List Int :=
  if values ≠ [] ∧ count ≤ 0 then left.toList.flatMap (·.words) else []

/-- Reading after the machine was fed accounts for all of its words, if none that is to be
reported was left standing. -/
private theorem read_resumed {values outputs : List Int} {count : Int} {before middle after : Session}
    (fed : Resumed before values (if values = [] then [] else middle.standing) middle)
    (silent : values ≠ [] → 0 < count → middle.standing = [])
    (read : (stepRead count).Ends middle (.ok (some outputs)) after) :
    Resumed before values (outputs ++ unreported values count after.machine.suspension) after := by
  have went := fed.trans (stepRead_resumed read)
  rw [List.append_nil] at went
  unfold unreported
  by_cases none : values = []
  · simpa [none] using went
  by_cases positive : 0 < count
  · rw [if_neg none, silent none positive] at went
    rw [if_neg (fun both => absurd both.2 (Int.not_le.mpr positive)), List.append_nil]
    exact went
  · obtain ⟨rfl, rfl⟩ := stepRead_of_nonpos (Int.not_lt.mp positive) read
    rw [if_neg none, List.append_nil] at went
    rw [if_pos ⟨none, Int.not_lt.mp positive⟩]
    exact went

theorem stepN_resumed {values outputs : List Int} {count : Int} {before after : Session}
    (ends : (stepN values count).Ends before (.ok (some outputs)) after) :
    Resumed before values (outputs ++ unreported values count after.machine.suspension) after := by
  obtain ⟨left, middle, fed, ends⟩ := ends.of_bind_ok
  obtain ⟨same, took, _⟩ := feed_resumed fed
  have standing : middle.standing = left.toList.flatMap (·.words) := by rw [same, standing]
  cases left with
  | none => exact read_resumed took (fun _ _ => standing) ends
  | some suspension =>
    cases suspension with
    | awaitingInput address => exact read_resumed took (fun _ _ => standing) ends
    | complete => cases (Call.ends_pure.mp ends).1
    | producedOutput first =>
      simp only at ends
      split at ends
      next collects =>
        -- The word that stands there is the first of those to collect.
        obtain ⟨rest, last, read, ends⟩ := ends.of_bind_ok
        obtain ⟨made, rfl⟩ := Call.ends_pure.mp ends
        obtain ⟨fed, positive⟩ : values ≠ [] ∧ 0 < count := by simpa using collects
        cases rest with
        | none => cases made
        | some words =>
          cases made
          have went := took.trans (stepRead_resumed read)
          rw [List.append_nil, if_neg fed, standing] at went
          unfold unreported
          rw [if_neg (fun both => absurd both.2 (Int.not_le.mpr positive)), List.append_nil]
          exact went
      next spared =>
        refine read_resumed took (fun fed positive => (spared ?_).elim) ends
        simpa using ⟨fed, positive⟩

theorem stepN_length {values outputs : List Int} {count : Int} {before after : Session}
    (ends : (stepN values count).Ends before (.ok (some outputs)) after) : outputs.length = count.toNat := by
  obtain ⟨left, middle, _, ends⟩ := ends.of_bind_ok
  rcases left with _ | ⟨address | first | _⟩
  · exact stepRead_length ends
  · exact stepRead_length ends
  · simp only at ends
    split at ends
    next collects =>
      obtain ⟨rest, last, read, ends⟩ := ends.of_bind_ok
      obtain ⟨made, rfl⟩ := Call.ends_pure.mp ends
      obtain ⟨_, positive⟩ : values ≠ [] ∧ 0 < count := by simpa using collects
      cases rest with
      | none => cases made
      | some words =>
        cases made
        have length := stepRead_length read
        rw [List.length_cons]
        omega
    next => exact stepRead_length ends
  · cases (Call.ends_pure.mp ends).1

theorem waitForInput_resumed {asked : Bool} {before after : Session}
    (ends : waitForInput.Ends before (.ok asked) after) : Resumed before [] [] after := by
  rw [waitForInput, Call.ends_get_bind] at ends
  split at ends
  next =>
    obtain ⟨_, rfl⟩ := Call.ends_pure.mp ends
    exact .rest
  next =>
    obtain ⟨_, rfl⟩ := Call.ends_pure.mp ends
    exact .rest
  next =>
    obtain ⟨suspension, middle, unfed, ends⟩ := ends.of_bind_ok
    have went := Resumed.of_none unfed
    cases suspension with
    | producedOutput word => cases (Call.ends_throw.mp ends).1
    | awaitingInput address | complete =>
      obtain ⟨_, rfl⟩ := Call.ends_pure.mp ends
      exact went

theorem waitForInput_stands {asked : Bool} {before after : Session}
    (ends : waitForInput.Ends before (.ok asked) after) :
    (asked = true ∧ after.Awaits) ∨ asked = false ∧ after.machine.suspension = some .complete := by
  rw [waitForInput, Call.ends_get_bind] at ends
  split at ends
  next address awaiting =>
    obtain ⟨same, rfl⟩ := Call.ends_pure.mp ends
    cases same
    exact .inl ⟨rfl, address, awaiting⟩
  next halted =>
    obtain ⟨same, rfl⟩ := Call.ends_pure.mp ends
    cases same
    exact .inr ⟨rfl, halted⟩
  next =>
    obtain ⟨suspension, middle, unfed, ends⟩ := ends.of_bind_ok
    have stopped := (resume_emits unfed).1
    cases suspension with
    | producedOutput word => cases (Call.ends_throw.mp ends).1
    | awaitingInput address =>
      obtain ⟨same, rfl⟩ := Call.ends_pure.mp ends
      cases same
      exact .inl ⟨rfl, address, stopped⟩
    | complete =>
      obtain ⟨same, rfl⟩ := Call.ends_pure.mp ends
      cases same
      exact .inr ⟨rfl, stopped⟩

end Intcode.Session
