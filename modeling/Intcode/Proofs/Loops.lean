import Intcode.Proofs.Answers

/-! Loops that repeat one round until it fails or answers. What a loop ends with is
said by the rounds it passes and the round it closes with, and two loops whose rounds
correspond end alike. -/

namespace Intcode

variable {σ τ α : Type}

/-- One round of a loop: it fails, goes on (`none`) or leaves the loop with an answer. -/
abbrev Round (σ α : Type) := σ → Except Fault (Option α) × σ

namespace Round

/-- Repeat a round until it fails or answers. -/
def loop (round : Round σ α) : (bound : Nat) → σ → Option (Except Fault α × σ)
  | 0, _ => none
  | bound + 1, before =>
    match round before with
    | (.error fault, after) => some (.error fault, after)
    | (.ok (some answer), after) => some (.ok answer, after)
    | (.ok none, after) => loop round bound after

def repeated (round : Round σ α) : Call σ α := round.loop

/-- So many rounds go on, one after the other. -/
inductive Passes (round : Round σ α) : Nat → σ → σ → Prop where
  | rest : Passes round 0 state state
  | next (went : round before = (.ok none, middle)) (passes : Passes round count middle after) :
    Passes round (count + 1) before after

/-- The round that a loop ends with: it does not go on. -/
def Closes (round : Round σ α) (before : σ) (outcome : Except Fault α) (after : σ) : Prop :=
  round before = (outcome.map some, after)

@[simp]
theorem closes_error {round : Round σ α} {before after : σ} {fault : Fault} :
    round.Closes before (.error fault) after ↔ round before = (.error fault, after) := Iff.rfl

@[simp]
theorem closes_ok {round : Round σ α} {before after : σ} {answer : α} :
    round.Closes before (.ok answer) after ↔ round before = (.ok (some answer), after) := Iff.rfl

theorem Closes.unique {round : Round σ α} {before after after' : σ} {outcome outcome' : Except Fault α}
    (closes : round.Closes before outcome after) (closes' : round.Closes before outcome' after') :
    outcome = outcome' ∧ after = after' := by
  unfold Closes at closes closes'
  rw [closes] at closes'
  cases outcome <;> cases outcome' <;> cases closes' <;> exact ⟨rfl, rfl⟩

theorem Closes.not_goes {round : Round σ α} {before middle after : σ} {outcome : Except Fault α}
    (closes : round.Closes before outcome after) (went : round before = (.ok none, middle)) : False := by
  unfold Closes at closes
  rw [went] at closes
  cases outcome <;> cases closes

theorem Closes.loop_eq {round : Round σ α} {before after : σ} {outcome : Except Fault α}
    (closes : round.Closes before outcome after) (bound : Nat) :
    round.loop (bound + 1) before = some (outcome, after) := by
  unfold Closes at closes
  cases outcome with
  | error fault => simp only [loop, closes, Except.map]
  | ok answer => simp only [loop, closes, Except.map]

theorem closes_or_goes (round : Round σ α) (before : σ) :
    (∃ outcome after, round.Closes before outcome after) ∨
      ∃ after, round before = (.ok none, after) := by
  rcases found : round before with ⟨reply, after⟩
  cases reply with
  | error fault => exact Or.inl ⟨.error fault, after, found⟩
  | ok answer =>
    cases answer with
    | none => exact Or.inr ⟨after, rfl⟩
    | some answer => exact Or.inl ⟨.ok answer, after, found⟩

/-- A loop ends with the round that closes it, after rounds that all went on. -/
theorem ends_iff {round : Round σ α} {before after : σ} {outcome : Except Fault α} :
    round.repeated.Ends before outcome after ↔
      ∃ count last, Passes round count before last ∧ round.Closes last outcome after := by
  constructor
  · rintro ⟨bound, answered⟩
    change round.loop bound before = _ at answered
    induction bound generalizing before with
    | zero => cases answered
    | succ bound ih =>
      rcases round.closes_or_goes before with ⟨reply, left, closes⟩ | ⟨middle, went⟩
      · rw [closes.loop_eq bound] at answered
        cases answered
        exact ⟨0, before, .rest, closes⟩
      · simp only [loop, went] at answered
        obtain ⟨count, last, passes, closes⟩ := ih answered
        exact ⟨count + 1, last, .next went passes, closes⟩
  · rintro ⟨count, last, passes, closes⟩
    refine ⟨count + 1, ?_⟩
    change round.loop (count + 1) before = _
    induction passes with
    | rest => exact closes.loop_eq 0
    | next went _ ih =>
      rw [loop, went]
      exact ih closes

theorem steady_repeated (round : Round σ α) : round.repeated.Steady := by
  intro bound larger before result enough answered
  change round.loop bound before = _ at answered
  change round.loop larger before = _
  induction bound generalizing larger before with
  | zero => cases answered
  | succ bound ih =>
    obtain ⟨spare, rfl⟩ := Nat.exists_eq_add_of_le enough
    rw [Nat.add_right_comm]
    rcases round.closes_or_goes before with ⟨reply, left, closes⟩ | ⟨middle, went⟩
    · rw [closes.loop_eq] at answered ⊢
      exact answered
    · simp only [loop, went] at answered ⊢
      exact ih (Nat.le_add_right bound spare) answered

namespace Passes

theorem trans {round : Round σ α} {first second : Nat} {before middle after : σ}
    (passes : Passes round first before middle) (more : Passes round second middle after) :
    Passes round (first + second) before after := by
  induction passes with
  | rest => simpa using more
  | next went _ ih =>
    rw [Nat.add_right_comm]
    exact .next went (ih more)

theorem split {round : Round σ α} {first second : Nat} {before after : σ}
    (passes : Passes round (first + second) before after) :
    ∃ middle, Passes round first before middle ∧ Passes round second middle after := by
  induction first generalizing before with
  | zero =>
    rw [Nat.zero_add] at passes
    exact ⟨before, .rest, passes⟩
  | succ first ih =>
    rw [Nat.add_right_comm] at passes
    cases passes with
    | next went passes =>
      obtain ⟨middle, early, late⟩ := ih passes
      exact ⟨middle, .next went early, late⟩

theorem preserves {round : Round σ α} {count : Nat} {before after : σ}
    (passes : Passes round count before after) {holds : σ → Prop}
    (kept : ∀ {state next}, holds state → round state = (.ok none, next) → holds next)
    (initially : holds before) : holds after := by
  induction passes with
  | rest => exact initially
  | next went _ ih => exact ih (kept initially went)

theorem ends_iff {round : Round σ α} {count : Nat} {before middle after : σ}
    {outcome : Except Fault α} (passes : Passes round count before middle) :
    round.repeated.Ends before outcome after ↔ round.repeated.Ends middle outcome after := by
  constructor
  · intro ends
    induction passes with
    | rest => exact ends
    | next went _ ih =>
      apply ih
      obtain ⟨count, last, passes, closes⟩ := Round.ends_iff.mp ends
      cases passes with
      | rest => exact (closes.not_goes went).elim
      | next went' passes =>
        rw [went] at went'
        cases went'
        exact Round.ends_iff.mpr ⟨_, last, passes, closes⟩
  · intro ends
    obtain ⟨count, last, more, closes⟩ := Round.ends_iff.mp ends
    exact Round.ends_iff.mpr ⟨_, last, passes.trans more, closes⟩

end Passes

/-- The next rounds of two loops both go on to related states, or both close with one
outcome in states that `final` relates. -/
def Together (first : Round σ α) (second : Round τ α) (related : σ → τ → Prop)
    (final : Except Fault α → σ → τ → Prop) (left : σ) (right : τ) : Prop :=
  (∃ left' right', first left = (.ok none, left') ∧ second right = (.ok none, right') ∧
    related left' right') ∨
  ∃ outcome left' right', first.Closes left outcome left' ∧ second.Closes right outcome right' ∧
    final outcome left' right'

def Lockstep (first : Round σ α) (second : Round τ α) (related : σ → τ → Prop)
    (final : Except Fault α → σ → τ → Prop) : Prop :=
  ∀ left right, related left right → Together first second related final left right

namespace Lockstep

variable {first : Round σ α} {second : Round τ α} {related : σ → τ → Prop}
  {final : Except Fault α → σ → τ → Prop}

theorem symm (lockstep : Lockstep first second related final) :
    Lockstep second first (fun right left => related left right)
      (fun outcome right left => final outcome left right) := by
  intro right left start
  rcases lockstep left right start with ⟨left', right', went, went', next⟩ |
    ⟨outcome, left', right', closes, closes', last⟩
  · exact Or.inl ⟨right', left', went', went, next⟩
  · exact Or.inr ⟨outcome, right', left', closes', closes, last⟩

theorem ends (lockstep : Lockstep first second related final) {left left' : σ} {right : τ}
    {outcome : Except Fault α} (start : related left right)
    (ends : first.repeated.Ends left outcome left') :
    ∃ right', second.repeated.Ends right outcome right' ∧ final outcome left' right' := by
  obtain ⟨count, last, passes, closes⟩ := ends_iff.mp ends
  induction passes generalizing right with
  | rest =>
    rcases lockstep _ right start with ⟨middle, right', went, _⟩ |
      ⟨reply, middle, right', closed, closed', related⟩
    · exact (closes.not_goes went).elim
    · obtain ⟨rfl, rfl⟩ := closes.unique closed
      exact ⟨right', ends_iff.mpr ⟨0, right, .rest, closed'⟩, related⟩
  | next went passes ih =>
    rcases lockstep _ right start with ⟨middle, right', went', gone, next⟩ |
      ⟨reply, middle, right', closed, _⟩
    · rw [went] at went'
      cases went'
      obtain ⟨last', ends', related⟩ := ih next (ends_iff.mpr ⟨_, _, passes, closes⟩) closes
      exact ⟨last', (Passes.next gone .rest).ends_iff.mpr ends', related⟩
    · exact (closed.not_goes went).elim

end Lockstep
end Round
end Intcode
