import Intcode.CommandLine
import Intcode.Proofs.Answers
import Intcode.Proofs.Pieces

/-! Numbers that are written out in decimal are read back as they were, alone or in a list, unless
they have more digits than are read. -/

namespace Intcode

namespace Text.Numeral

variable {digits : List Char} {c : Char}

theorem basic_codes {text : List Char} (plain : ∀ c ∈ text, c.toNat < 0x7F) : basic (text.map Char.toNat) = text := by
  induction text with
  | nil => rfl
  | cons c rest ih =>
    obtain ⟨first, later⟩ := List.forall_mem_cons.mp plain
    rw [List.map_cons, basic, List.map_cons, ← basic, ih later, if_pos first, Char.ofNat_toNat]

theorem digit_range (decimal : c.isDigit = true) : 48 ≤ c.toNat ∧ c.toNat ≤ 57 := by
  unfold Char.isDigit at decimal
  rw [Bool.and_eq_true, decide_eq_true_eq, decide_eq_true_eq] at decimal
  exact decimal

private theorem isDigitOf_ten (decimal : c.isDigit = true) : isDigitOf 10 c = true := by
  have range := digit_range decimal
  rw [isDigitOf, digitOf?, if_pos decimal, Option.any_some, decide_eq_true_eq]
  change c.toNat - 48 < 10
  omega

theorem leadingDigits_ten (decimal : ∀ c ∈ digits, c.isDigit = true) : leadingDigits 10 digits = (digits, []) := by
  induction digits with
  | nil => rfl
  | cons c rest ih =>
    obtain ⟨first, later⟩ := List.forall_mem_cons.mp decimal
    rw [leadingDigits, ih later]
    exact if_pos (isDigitOf_ten first)

theorem valueIn_ten (decimal : ∀ c ∈ digits, c.isDigit = true) : valueIn 10 digits = Nat.ofDigitChars 10 digits 0 := by
  have each (value : Nat) : digits.foldl (fun value c => 10 * value + (digitOf? c).getD 0) value =
      Nat.ofDigitChars 10 digits value := by
    induction digits generalizing value with
    | nil => rfl
    | cons c rest ih =>
      obtain ⟨first, later⟩ := List.forall_mem_cons.mp decimal
      have known : digitOf? c = some (c.toNat - '0'.toNat) := if_pos first
      rw [List.foldl_cons, known]
      exact ih later _
  exact each 0

private theorem unmarked_ten (text : List Char) : unmarked 10 text = text := by
  unfold unmarked
  split <;> rfl

private theorem readIn_signed {codes : Codes} {negative : Bool} (decimal : ∀ c ∈ digits, c.isDigit = true)
    (body : (basic codes).dropWhile isSpace = if negative then '-' :: digits else digits)
    (nonempty : digits ≠ []) (few : digits.length ≤ maxDigits) :
    readIn 10 codes = .ok (if negative then -(Nat.ofDigitChars 10 digits 0 : Int) else Nat.ofDigitChars 10 digits 0) := by
  obtain ⟨first, rest, rfl⟩ := List.exists_cons_of_ne_nil nonempty
  have range := digit_range (decimal first List.mem_cons_self)
  have other {mark : Char} (outside : mark.toNat < 48 ∨ 57 < mark.toNat) : first ≠ mark := by
    rintro rfl
    omega
  have parts := leadingDigits_ten decimal
  have value := valueIn_ten decimal
  have score : first ≠ '_' := other (by decide)
  have minus : first ≠ '-' := other (by decide)
  have plus : first ≠ '+' := other (by decide)
  rw [List.length_cons] at few
  unfold readIn
  rw [body]
  cases negative with
  | true => simpa [unmarked_ten, parts, value, score] using few
  | false => simpa [unmarked_ten, parts, value, score, minus, plus] using few

theorem digit_of_mem {number : Nat} (member : c ∈ Nat.toDigits 10 number) : c.isDigit = true :=
  Nat.isDigit_of_mem_toDigits (by decide) (by decide) member

theorem toString_eq (number : Int) : (toString number).toList =
    if number < 0 then '-' :: Nat.toDigits 10 number.natAbs else Nat.toDigits 10 number.natAbs := by
  cases number with
  | ofNat magnitude => exact String.toList_ofList
  | negSucc magnitude =>
    have digits : (magnitude + 1).repr.toList = Nat.toDigits 10 (magnitude + 1) := String.toList_ofList
    change ("-" ++ (magnitude + 1).repr).toList = _
    rw [String.toList_append, digits, if_pos (Int.negSucc_lt_zero _)]
    rfl

theorem mem_toString {number : Int} (member : c ∈ (toString number).toList) : c = '-' ∨ c.isDigit = true := by
  rw [toString_eq] at member
  split at member
  · exact (List.mem_cons.mp member).imp_right digit_of_mem
  · exact .inr (digit_of_mem member)

theorem not_mem_toString (foreign : c.isDigit = false ∧ c ≠ '-') (number : Int) :
    c ∉ (toString number).toList := by
  intro member
  rcases mem_toString member with dash | decimal
  · exact foreign.2 dash
  · rw [foreign.1] at decimal
    cases decimal

theorem not_mem_between {before after : String} (foreign : c.isDigit = false ∧ c ≠ '-') (left : c ∉ before.toList)
    (right : c ∉ after.toList) (number : Int) : c ∉ (before ++ toString number ++ after).toList := by
  rw [String.toList_append, String.toList_append, List.mem_append, List.mem_append, not_or, not_or]
  exact ⟨⟨left, not_mem_toString foreign number⟩, right⟩

theorem toString_solid {number : Int} (member : c ∈ (toString number).toList) :
    c.toNat < 0x7F ∧ isSpace c = false ∧ isBlank c = false ∧ c ≠ ',' := by
  rcases mem_toString member with rfl | decimal
  · decide
  · have range := digit_range decimal
    refine ⟨by omega, ?_, ?_, ?_⟩
    · have space : c ≠ ' ' := by
        rintro rfl
        exact absurd range (by decide)
      simp only [isSpace, space, decide_false, Bool.false_or, Bool.and_eq_false_iff, decide_eq_false_iff_not]
      omega
    · simp only [isBlank, blankRanges, List.any_cons, List.any_nil, Bool.or_false, Bool.or_eq_false_iff,
        Bool.and_eq_false_iff, decide_eq_false_iff_not]
      omega
    · rintro rfl
      exact absurd range (by decide)

theorem trim_toString (number : Int) : trim (toString number).toList = (toString number).toList := by
  refine trim_eq_iff.mpr ⟨⟨[], [], by simp, nofun, nofun⟩, ?_, ?_⟩
  · intro c first
    exact (toString_solid (List.mem_of_mem_head? first)).2.2.1
  · intro c last
    exact (toString_solid (List.mem_of_mem_getLast? last)).2.2.1

theorem toString_ne_nil (number : Int) : (toString number).toList ≠ [] := by
  rw [toString_eq]
  split
  · exact List.cons_ne_nil _ _
  · exact Nat.toDigits_ne_nil

theorem read_toString {number : Int} (short : isTooLong number = false) : read (toString number) = .ok number := by
  have few : (Nat.toDigits 10 number.natAbs).length ≤ maxDigits := by
    rw [isTooLong, decide_eq_false_iff_not, Nat.not_le, Nat.pow_eq,
      ← Nat.length_toDigits_le_iff (by decide) (by decide)] at short
    exact short
  have body : (basic (codesOf (toString number))).dropWhile isSpace =
      if decide (number < 0) then '-' :: Nat.toDigits 10 number.natAbs else Nat.toDigits 10 number.natAbs := by
    rw [codesOf, basic_codes fun c member => (toString_solid member).1, dropWhile_of_head, toString_eq]
    · simp only [decide_eq_true_eq]
    · intro c first
      exact (toString_solid (List.mem_of_mem_head? first)).2.1
  rw [read, readIn_signed (fun c => digit_of_mem) body Nat.toDigits_ne_nil few,
    Nat.ofDigitChars_toDigits (by decide) (by decide)]
  apply congrArg Except.ok
  simp only [decide_eq_true_eq]
  split <;> omega

end Text.Numeral

namespace CommandLine

theorem inputWords_intercalate {words : List Int} (short : ∀ word ∈ words, Text.Numeral.isTooLong word = false) :
    inputWords (",".intercalate (words.map toString)) = .ok words := by
  by_cases nothing : words = []
  · subst nothing
    rfl
  · have free : ∀ part ∈ words.map toString, ',' ∉ part.toList := by
      intro part member comma
      obtain ⟨word, _, rfl⟩ := List.mem_map.mp member
      exact (Text.Numeral.toString_solid comma).2.2.2 rfl
    have cut := Text.pieces_intercalate (mt List.map_eq_nil_iff.mp nothing) free
    rw [List.map_map] at cut
    have kept : ∀ piece ∈ words.map (String.toList ∘ toString), !(Text.trim piece).isEmpty := by
      intro piece member
      obtain ⟨word, _, rfl⟩ := List.mem_map.mp member
      rw [Function.comp_apply, Text.Numeral.trim_toString, Bool.not_eq_true', List.isEmpty_eq_false_iff]
      exact Text.Numeral.toString_ne_nil word
    rw [inputWords, cut, List.filter_eq_self.mpr kept, List.mapM_map]
    clear nothing free cut kept
    induction words with
    | nil => rfl
    | cons word words ih =>
      obtain ⟨first, later⟩ := List.forall_mem_cons.mp short
      rw [List.mapM_cons, ih later, Function.comp_apply, Function.comp_apply, String.ofList_toList,
        Text.Numeral.read_toString first]
      rfl

end CommandLine
end Intcode
