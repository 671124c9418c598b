import Mathlib.Algebra.Group.Int.Defs
import Mathlib.Algebra.Group.Nat.Defs
import Intcode.Fault
import Intcode.Word

/-! Numbers that are too long to be written. They lie beyond a bound, and no word is among them. A fault
whose report holds one is reported as nothing but that. -/

namespace Intcode

namespace Text.Numeral

variable {number larger : Int}

theorem isTooLong_iff : isTooLong number = true ↔ 10 ^ maxDigits ≤ number.natAbs := by
  rw [isTooLong, decide_eq_true_eq, Nat.pow_eq]

theorem isTooLong_natCast {number : Nat} : isTooLong number = true ↔ 10 ^ maxDigits ≤ number := by
  rw [isTooLong_iff, Int.natAbs_natCast]

theorem isTooLong_of_le (least : 0 ≤ number) (below : number ≤ larger) (long : isTooLong number = true) :
    isTooLong larger = true := by
  have magnitude : number.natAbs ≤ larger.natAbs := by omega
  rw [isTooLong_iff] at long ⊢
  exact Nat.le_trans long magnitude

theorem isTooLong_power : isTooLong (10 ^ maxDigits) = true := by
  have magnitude (digits : Nat) : ((10 : Int) ^ digits).natAbs = 10 ^ digits := Int.natAbs_pow 10 digits
  exact isTooLong_iff.mpr (Nat.le_of_eq (magnitude maxDigits).symm)

theorem isTooLong_neg : isTooLong (-number) = isTooLong number := by
  rw [isTooLong, Int.natAbs_neg, isTooLong]

theorem isTooLong_neg_power : isTooLong (-10 ^ maxDigits) = true := isTooLong_neg.trans isTooLong_power

theorem neg_power_neg (digits : Nat) : -10 ^ digits < (0 : Int) := Int.neg_neg_of_pos (Int.pow_pos (by decide))

theorem short_of_inRange (inRange : Word.InRange number) : isTooLong number = false := by
  have small : number.natAbs < 10 ^ 19 := by
    unfold Word.InRange Word.least Word.greatest at inRange
    omega
  have long {digits : Nat} (enough : 19 ≤ digits) : 10 ^ 19 ≤ 10 ^ digits := Nat.pow_le_pow_right (by decide) enough
  rw [← Bool.not_eq_true, isTooLong_iff, Nat.not_le]
  exact Nat.lt_of_lt_of_le small (long (by decide))

end Text.Numeral

open Text.Numeral (isTooLong)

namespace Fault

variable {fault : Fault} {number : Int}

theorem kind_cases (fault : Fault) : fault.kind = fault.causeKind ∨
    fault.kind = .unwritable ∧ ∃ number ∈ fault.numbers, isTooLong number = true := by
  rw [kind, isUnwritable]
  split
  next long => exact .inr ⟨rfl, List.any_eq_true.mp long⟩
  next => exact .inl rfl

theorem kind_of_limit (limit pc : Int) :
    (stepLimit limit pc).kind = if isTooLong limit || isTooLong pc then .unwritable else .budget := by
  simp [kind, isUnwritable, numbers, causeKind]

/-- A bad address is reported as one, unless it is too long. -/
theorem kind_of_address (addressing : fault = .negativeAddress number ∨ fault = .immediateTarget number) :
    fault.kind = if isTooLong number then .unwritable else .addressing := by
  rcases addressing with rfl | rfl <;> simp [kind, isUnwritable, numbers, causeKind]

theorem kind_of_neg_power : (negativeAddress (-10 ^ Text.Numeral.maxDigits)).kind = .unwritable := by
  rw [kind_of_address (.inl rfl), Text.Numeral.isTooLong_neg_power]
  rfl

/-- The word in a report about an instruction is never too long, but its address may be. -/
theorem kind_of_word {word address : Int} (inRange : Word.InRange word)
    (decoding : fault = .unknownOpcode word address ∨ ∃ digit, fault = .unknownMode digit word address) :
    fault.kind = if isTooLong address then .unwritable else .decoding := by
  have short := Text.Numeral.short_of_inRange inRange
  rcases decoding with rfl | ⟨digit, rfl⟩ <;> simp [kind, isUnwritable, numbers, causeKind, short]

end Fault

end Intcode
