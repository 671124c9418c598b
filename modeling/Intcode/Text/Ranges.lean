/-! Runs of code points in order, each from its first to its last one, and the search
for the run that a code point lies in. -/

namespace Intcode.Text

/-- The code point lies in one of the runs from `low` up to `high`, which are
halved until one is left. -/
def inRanges (ranges : Array (Nat × Nat)) (code : Nat) : (halvings low high : Nat) → Bool
  | 0, _, _ => false
  | halvings + 1, low, high =>
    if high ≤ low then false
    else
      let middle := (low + high) / 2
      match ranges[middle]? with
      | none => false
      | some (first, last) =>
        if code < first then inRanges ranges code halvings low middle
        else if last < code then inRanges ranges code halvings (middle + 1) high
        else true

/-- The greatest number of times that as many runs as there are can be halved. -/
def maxHalvings : Nat := 12

def isWithin (ranges : Array (Nat × Nat)) (code : Nat) : Bool :=
  inRanges ranges code maxHalvings 0 ranges.size

end Intcode.Text
