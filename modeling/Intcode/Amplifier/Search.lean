import Intcode.Amplifier

/-! The best order of the phases: every order is tried, and the first of the best
ones is kept. -/

namespace Intcode.Amplifier

variable {σ : Type}

structure Best where
  signal : Int := 0
  phases : List Int := []
deriving DecidableEq, Repr

/-- Keep the better of the two; the earlier one stays on a tie. -/
def Best.improve (best : Best) (signal : Int) (phases : List Int) : Best :=
  if best.signal < signal || best.phases.isEmpty then ⟨signal, phases⟩ else best

/-- Every element with the others around it, from the first on. -/
def picks {α : Type} : List α → List (α × List α)
  | [] => []
  | x :: rest => (x, rest) :: (picks rest).map fun (y, others) => (y, x :: others)

/-- Try every order of the `count` phases in `rest` after the ones in `chosen`,
which stand latest first. Earlier phases come first at every place, so the
orders are tried lexicographically by place. -/
def searchFrom (attempt : List Int → Call σ Int) :
    (count : Nat) → (chosen rest : List Int) → Best → Call σ Best
  | 0, chosen, _, best => do
    let phases := chosen.reverse
    return best.improve (← attempt phases) phases
  | count + 1, chosen, rest, best =>
    (picks rest).foldlM
      (fun best (phase, others) => searchFrom attempt count (phase :: chosen) others best) best

def search (attempt : List Int → Call σ Int) (phases : List Int) : Call σ Best :=
  searchFrom attempt phases.length [] phases {}

def chainPhases : List Int := [0, 1, 2, 3, 4]

def feedbackPhases : List Int := [5, 6, 7, 8, 9]

def bestChain (program : Program) (phases : List Int) : Call σ Best :=
  search (chain program · 0) phases

def bestFeedback (program : Program) (phases : List Int) : Call (Array Settlement) Best :=
  search (feedback program · 0) phases

end Intcode.Amplifier
