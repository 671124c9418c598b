/-! Words are the signed 64-bit integers. They are kept as plain integers, so
that addresses and offsets built from them never overflow; only storing a value
reduces it. -/

namespace Intcode.Word

def count : Nat := 0x10000000000000000

def least : Int := -0x8000000000000000

def greatest : Int := 0x7FFFFFFFFFFFFFFF

/-- The word congruent to `value`: two's complement is the remainder modulo
`count` that lies nearest to zero, and a tie goes to the negative side. -/
def wrap (value : Int) : Int := value.bmod count

/-- The values that storing leaves alone. -/
abbrev InRange (value : Int) : Prop := least ≤ value ∧ value ≤ greatest

theorem wrap_of_inRange {value : Int} (inRange : InRange value) : wrap value = value := by
  have above : -((count : Int) / 2) ≤ value := inRange.1
  have below : value < ((count : Int) + 1) / 2 := Int.lt_add_one_of_le inRange.2
  exact Int.bmod_eq_of_le above below

end Intcode.Word
