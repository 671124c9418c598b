import Mathlib.Data.Int.Bitwise
import Intcode.Proofs.Resemblance
import Intcode.Proofs.WordRange

/-! Wrapping picks one word out of each class of integers that are congruent modulo 2^64. It
reads the lowest 64 bits of an integer, whose sign goes on above them without end, and counts
the highest of these bits as negative. -/

namespace Intcode.Word

variable {value word left right : Int}

private theorem wrap_congruent (value : Int) : Congruent (wrap value) value := Int.bmod_emod

private theorem eq_of_congruent (first : InRange left) (second : InRange right) (same : Congruent left right) :
    left = right := by
  rw [← wrap_of_inRange first, ← wrap_of_inRange second, wrap_eq_iff.mpr same]

theorem eq_wrap_iff : word = wrap value ↔ InRange word ∧ Congruent word value := by
  constructor
  · rintro rfl
    exact ⟨wrap_inRange value, wrap_congruent value⟩
  · rintro ⟨inRange, same⟩
    exact eq_of_congruent inRange (wrap_inRange value) (same.trans (wrap_congruent value).symm)

theorem wrap_eq_self_iff : wrap value = value ↔ InRange value :=
  ⟨fun same => same ▸ wrap_inRange value, wrap_of_inRange⟩

theorem wrap_wrap (value : Int) : wrap (wrap value) = wrap value := wrap_of_inRange (wrap_inRange value)

theorem wrap_add (left right : Int) : wrap (wrap left + wrap right) = wrap (left + right) := by
  unfold wrap
  rw [Int.bmod_add_bmod, Int.add_bmod_bmod]

theorem wrap_mul (left right : Int) : wrap (wrap left * wrap right) = wrap (left * right) := by
  unfold wrap
  rw [Int.bmod_mul_bmod, Int.mul_bmod_bmod]

/-- The word in the lowest bits of an integer: they are its size, unless the sign bit is set. -/
def masked (value : Int) : Int :=
  let low := value.land (count - 1 : Nat)
  if low.land (count / 2 : Nat) = 0 then low else low - count

theorem ldiff_mask (number width : Nat) :
    (2 ^ width - 1).ldiff number = 2 ^ width - (number % 2 ^ width + 1) := by
  refine Nat.eq_of_testBit_eq fun index => ?_
  have below : number % 2 ^ width < 2 ^ width := Nat.mod_lt _ (Nat.two_pow_pos width)
  rw [Nat.testBit_ldiff, Nat.testBit_two_pow_sub_one, Nat.testBit_two_pow_sub_succ below,
    Nat.testBit_mod_two_pow]
  cases decide (index < width) <;> rfl

private theorem land_mask (value : Int) (width : Nat) :
    value.land (2 ^ width - 1 : Nat) = value % (2 ^ width : Nat) := by
  cases value with
  | ofNat number =>
    change ((number &&& (2 ^ width - 1) : Nat) : Int) = _
    rw [Nat.and_two_pow_sub_one_eq_mod]
    rfl
  | negSucc number =>
    have below : number % 2 ^ width < 2 ^ width := Nat.mod_lt _ (Nat.two_pow_pos width)
    change (((2 ^ width - 1).ldiff number : Nat) : Int) = _
    rw [ldiff_mask, Int.negSucc_emod number (Int.natCast_pos.mpr (Nat.two_pow_pos width)),
      Int.ofNat_sub below]
    push_cast
    omega

theorem land_sign_eq_zero_iff {low : Nat} (below : low < count) :
    (low : Int).land (count / 2 : Nat) = 0 ↔ low < count / 2 := by
  change ((low &&& 2 ^ 63 : Nat) : Int) = 0 ↔ low < 2 ^ 63
  rw [Int.natCast_eq_zero, Nat.and_two_pow]
  change low < 2 ^ 64 at below
  cases bit : low.testBit 63 with
  | false =>
    have even := of_decide_eq_false (Nat.testBit_eq_decide_div_mod_eq.symm.trans bit)
    simp only [Bool.toNat_false, Nat.zero_mul, true_iff]
    omega
  | true =>
    have odd := of_decide_eq_true (Nat.testBit_eq_decide_div_mod_eq.symm.trans bit)
    simp only [Bool.toNat_true, Nat.one_mul]
    omega

theorem wrap_eq_masked (value : Int) : wrap value = masked value := by
  have low : value.land (count - 1 : Nat) = value % count := land_mask value 64
  obtain ⟨size, same⟩ := Int.eq_ofNat_of_zero_le (Int.emod_nonneg value (by decide : (count : Int) ≠ 0))
  have below : size < count := by
    have bound := Int.emod_lt_of_pos value (by decide : (0 : Int) < count)
    omega
  unfold masked wrap Int.bmod
  simp only [low, same, land_sign_eq_zero_iff below]
  have half : ((size : Int) < ((count : Int) + 1) / 2) ↔ size < count / 2 := by
    have middle : ((count : Int) + 1) / 2 = (count / 2 : Nat) := rfl
    rw [middle, Int.ofNat_lt]
  simp only [half]

end Intcode.Word
