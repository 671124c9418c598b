import Intcode.Fault

/-! Calls change a state and may fail; what they changed before they failed stays
changed. They may also never end, so each carries a bound on the rounds of its
loops: running out of it is no answer, and a larger bound never changes an
answer. -/

namespace Intcode

/-- A call on a state `σ`: within a bound on its loops it fails or answers, and
leaves a new state either way. -/
abbrev Call (σ α : Type) := ReaderT Nat (ExceptT Fault (StateT σ Option)) α

namespace Call

variable {σ τ α β : Type}

def ofExcept (outcome : Except Fault α) : Call σ α := fun _ state => some (outcome, state)

def unfinished : Call σ α := fun _ _ => none

/-- What a call answers and leaves within a bound; `none` if it does not end. -/
def answer (call : Call σ α) (bound : Nat) (state : σ) : Option (Except Fault α × σ) :=
  call bound state

def onPart (part : σ → τ) (replace : τ → σ → σ) (call : Call τ α) : Call σ α :=
  fun bound state =>
    (call bound (part state)).map fun (outcome, after) => (outcome, replace after state)

/-- Make a call on a state of its own and answer with what it leaves as well. -/
def onOwn (own : τ) (call : Call τ α) : Call σ (α × τ) := fun bound state =>
  (call bound own).map fun (outcome, after) => (outcome.map (·, after), state)

theorem bind_apply (call : Call σ α) (next : α → Call σ β) (bound : Nat) (state : σ) :
    (call >>= next) bound state = match call bound state with
      | none => none
      | some (.error fault, after) => some (.error fault, after)
      | some (.ok value, after) => next value bound after := by
  change (call bound state).bind _ = _
  cases call bound state with
  | none => rfl
  | some result =>
    obtain ⟨outcome, after⟩ := result
    cases outcome <;> rfl

@[simp]
theorem pure_apply (value : α) (bound : Nat) (state : σ) :
    (pure value : Call σ α) bound state = some (.ok value, state) := rfl

@[simp]
theorem throw_apply (fault : Fault) (bound : Nat) (state : σ) :
    (throw fault : Call σ α) bound state = some (.error fault, state) := rfl

@[simp]
theorem get_apply (bound : Nat) (state : σ) :
    (get : Call σ σ) bound state = some (.ok state, state) := rfl

@[simp]
theorem set_apply (next : σ) (bound : Nat) (state : σ) :
    (set next : Call σ Unit) bound state = some (.ok (), next) := rfl

@[simp]
theorem modify_apply (change : σ → σ) (bound : Nat) (state : σ) :
    (modify change : Call σ Unit) bound state = some (.ok (), change state) := rfl

@[simp]
theorem read_apply (bound : Nat) (state : σ) :
    (read : Call σ Nat) bound state = some (.ok bound, state) := rfl

end Call
end Intcode
