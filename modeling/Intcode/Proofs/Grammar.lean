import Mathlib.Data.List.Forall2
import Mathlib.Data.Nat.Digits.Defs
import Mathlib.Tactic.Ring
import Intcode.Program
import Intcode.Proofs.Answers
import Intcode.Proofs.Pieces

/-! The grammar of program texts. A text is read just if all its tokens spell words, and then as the
words that they spell. If not, the first token that spells none is reported, with the whole text. -/

namespace Intcode.Program

open Text (pieces trim Trims)

/-- The tokens of a text are what stands between its commas, without the blanks around it. -/
def Tokens (text : List Char) (tokens : List (List Char)) : Prop :=
  ∃ pieces, pieces ≠ [] ∧ (∀ piece ∈ pieces, ',' ∉ piece) ∧ [','].intercalate pieces = text ∧
    List.Forall₂ Trims pieces tokens

def magnitude (digits : List Char) : Nat :=
  Nat.ofDigits 10 (digits.reverse.map fun digit => digit.toNat - '0'.toNat)

/-- One to 4300 decimal digits. -/
structure Numeral (digits : List Char) : Prop where
  nonempty : 1 ≤ digits.length
  few : digits.length ≤ 4300
  decimal : ∀ digit ∈ digits, '0' ≤ digit ∧ digit ≤ '9'

/-- A token spells a word if it is a numeral, with a sign before it or without. -/
structure Spells (token : List Char) (word : Int) : Prop where
  numeral : ∃ digits, Numeral digits ∧
    (token = digits ∧ word = magnitude digits ∨ token = '-' :: digits ∧ word = -magnitude digits)
  least : -2 ^ 63 ≤ word
  greatest : word ≤ 2 ^ 63 - 1

section Tokens

private theorem tokens_iff {tokens : List (List Char)} {text : List Char} :
    Tokens text tokens ↔ tokens = (pieces ',' text).map trim := by
  constructor
  · intro ⟨parts, nonempty, free, joined, trims⟩
    rw [Text.pieces_eq_iff.mpr ⟨nonempty, free, joined⟩]
    have same : List.Forall₂ Eq (parts.map trim) tokens :=
      List.forall₂_map_left_iff.mpr (trims.imp fun _ _ => Text.trim_eq_iff.mpr)
    exact (List.forall₂_eq_eq_eq ▸ same).symm
  · rintro rfl
    obtain ⟨nonempty, free, joined⟩ := Text.pieces_eq_iff.mp (rfl : pieces ',' text = _)
    refine ⟨_, nonempty, free, joined, List.forall₂_map_right_iff.mpr ?_⟩
    exact List.forall₂_same.mpr fun piece _ => Text.trims_trim piece

/-- Trimming the whole text first makes no difference to its tokens. -/
theorem tokens_eq (text : String) : (tokens text).map String.toList = (pieces ',' text.toList).map trim := by
  have solid : Text.isBlank ',' = false := by decide
  rw [← Text.trimmed_pieces_trim solid, tokens, List.map_map]
  exact List.map_congr_left fun piece _ => String.toList_ofList

end Tokens

section Words

variable {token digits : List Char} {word : Int} {value : Nat}

theorem digitsValue_cons (value : Nat) (digit : Char) (digits : List Char) :
    digitsValue value (digit :: digits) = digitsValue (10 * value + (digit.toNat - '0'.toNat)) digits := by
  -- Unfolded on both sides, so that the lists are compared before the values are.
  delta digitsValue
  rfl

private theorem magnitude_cons (digit : Char) (digits : List Char) :
    magnitude (digit :: digits) = magnitude digits + 10 ^ digits.length * (digit.toNat - '0'.toNat) := by
  rw [magnitude, List.reverse_cons, List.map_append, Nat.ofDigits_append, List.length_map, List.length_reverse,
    List.map_singleton, Nat.ofDigits_singleton, ← magnitude]

theorem digitsValue_eq (value : Nat) (digits : List Char) :
    digitsValue value digits = value * 10 ^ digits.length + magnitude digits := by
  induction digits generalizing value with
  | nil => exact (Nat.mul_one value).symm
  | cons digit digits ih =>
    rw [digitsValue_cons, ih, magnitude_cons, List.length_cons, pow_succ]
    ring

private theorem isDigit_iff {digit : Char} : digit.isDigit = true ↔ '0' ≤ digit ∧ digit ≤ '9' := by
  unfold Char.isDigit
  rw [Bool.and_eq_true, decide_eq_true_eq, decide_eq_true_eq]
  exact Iff.rfl

theorem natural_eq_some_iff : natural? digits = some value ↔ Numeral digits ∧ magnitude digits = value := by
  have accepted : (!digits.isEmpty && digits.all Char.isDigit && decide (digits.length ≤ maxDigits)) = true ↔
      Numeral digits := by
    simp only [Bool.and_eq_true, Bool.not_eq_true', List.isEmpty_eq_false_iff, List.all_eq_true, isDigit_iff,
      decide_eq_true_eq, ← List.length_pos_iff]
    exact ⟨fun ⟨⟨nonempty, decimal⟩, few⟩ => ⟨nonempty, few, decimal⟩,
      fun ⟨nonempty, few, decimal⟩ => ⟨⟨nonempty, decimal⟩, few⟩⟩
  have read : digitsValue 0 digits = magnitude digits := by rw [digitsValue_eq, Nat.zero_mul, Nat.zero_add]
  unfold natural?
  rw [Option.ite_none_right_eq_some, accepted, Option.some_inj, read]

theorem inRange_iff : Word.InRange word ↔ -2 ^ 63 ≤ word ∧ word ≤ 2 ^ 63 - 1 := by
  unfold Word.InRange Word.least Word.greatest
  norm_num

theorem signed_eq_some_iff (sign : Nat → Int) :
    ((natural? digits).map sign).filter (fun word => decide (Word.InRange word)) = some word ↔
      Numeral digits ∧ word = sign (magnitude digits) ∧ Word.InRange word := by
  rw [Option.filter_eq_some_iff, decide_eq_true_eq, Option.map_eq_some_iff]
  simp only [natural_eq_some_iff]
  constructor
  · rintro ⟨⟨value, ⟨numeral, rfl⟩, rfl⟩, fits⟩
    exact ⟨numeral, rfl, fits⟩
  · rintro ⟨numeral, rfl, fits⟩
    exact ⟨⟨_, ⟨numeral, rfl⟩, rfl⟩, fits⟩

private theorem word_negative (digits : List Char) : word? ('-' :: digits) =
    ((natural? digits).map fun magnitude : Nat => -(magnitude : Int)).filter
      fun word => decide (Word.InRange word) := by
  unfold word?
  cases read : natural? digits <;> simp only [read] <;> rfl

private theorem word_unsigned (unsigned : ∀ digits, token ≠ '-' :: digits) : word? token =
    ((natural? token).map Int.ofNat).filter fun word => decide (Word.InRange word) := by
  unfold word?
  split
  next digits => exact absurd rfl (unsigned digits)
  next => rfl

private theorem word_eq_some_iff : word? token = some word ↔ Spells token word := by
  by_cases signed : ∃ digits, token = '-' :: digits
  · obtain ⟨digits, rfl⟩ := signed
    rw [word_negative, signed_eq_some_iff, inRange_iff]
    constructor
    · intro ⟨numeral, same, least, greatest⟩
      exact ⟨⟨digits, numeral, .inr ⟨rfl, same⟩⟩, least, greatest⟩
    · rintro ⟨⟨digits', numeral, ⟨rfl, _⟩ | ⟨same, word⟩⟩, least, greatest⟩
      · exact absurd (numeral.decimal '-' List.mem_cons_self).1 (by decide)
      · cases same
        exact ⟨numeral, word, least, greatest⟩
  · have unsigned (digits : List Char) : token ≠ '-' :: digits := fun same => signed ⟨digits, same⟩
    rw [word_unsigned unsigned, signed_eq_some_iff, inRange_iff]
    constructor
    · intro ⟨numeral, same, least, greatest⟩
      exact ⟨⟨token, numeral, .inl ⟨rfl, same⟩⟩, least, greatest⟩
    · rintro ⟨⟨digits, numeral, ⟨rfl, word⟩ | ⟨same, _⟩⟩, least, greatest⟩
      · exact ⟨numeral, word, least, greatest⟩
      · exact absurd same (unsigned digits)

end Words

section Errors

variable {text : String} {tokens : List String} {words : List Int} {error : InvalidWord}

private theorem wordsOf_eq_ok_iff : wordsOf text tokens = .ok words ↔
    List.Forall₂ (fun token word => word? token.toList = some word) tokens words := by
  induction tokens generalizing words with
  | nil => rw [wordsOf, List.forall₂_nil_left_iff, Except.ok.injEq, eq_comm]
  | cons token tokens ih =>
    rw [wordsOf, List.forall₂_cons_left_iff]
    cases found : word? token.toList with
    | none => simp
    | some word =>
      simp only [Outcome.map_eq_ok_iff, ih]
      constructor
      · rintro ⟨rest, read, rfl⟩
        exact ⟨word, rest, rfl, read, rfl⟩
      · rintro ⟨_, rest, ⟨⟩, read, rfl⟩
        exact ⟨rest, read, rfl⟩

/-- The first token that is no word is the error, and the whole text is reported with it. -/
theorem wordsOf_eq_error_iff : wordsOf text tokens = .error error ↔ error.text = text ∧
    ∃ before after, tokens = before ++ error.token :: after ∧
      (∀ token ∈ before, ∃ word, word? token.toList = some word) ∧ word? error.token.toList = none := by
  induction tokens with
  | nil => simp [wordsOf]
  | cons token tokens ih =>
    rw [wordsOf]
    cases found : word? token.toList with
    | none =>
      constructor
      · rintro ⟨⟩
        exact ⟨rfl, [], tokens, rfl, List.forall_mem_nil _, found⟩
      · rintro ⟨rfl, before, after, split, earlier, fails⟩
        cases before with
        | nil =>
          cases split
          rfl
        | cons first before =>
          cases split
          obtain ⟨word, read⟩ := earlier _ List.mem_cons_self
          rw [found] at read
          cases read
    | some word =>
      rw [Outcome.map_eq_error_iff, ih]
      refine and_congr_right fun _ => ⟨?_, ?_⟩
      · rintro ⟨before, after, rfl, earlier, fails⟩
        exact ⟨token :: before, after, rfl, List.forall_mem_cons.mpr ⟨⟨word, found⟩, earlier⟩, fails⟩
      · intro ⟨before, after, split, earlier, fails⟩
        cases before with
        | nil =>
          cases split
          rw [found] at fails
          cases fails
        | cons first before =>
          cases split
          exact ⟨before, after, rfl, (List.forall_mem_cons.mp earlier).2, fails⟩

end Errors

variable {text : String} {program : Program}

theorem parse_eq_ok_iff : parse text = .ok program ↔
    List.Forall₂ (fun token word => Spells token.toList word) (tokens text) program.words := by
  simp only [parse, Outcome.map_eq_ok_iff, wordsOf_eq_ok_iff, word_eq_some_iff]
  constructor
  · rintro ⟨words, spelled, rfl⟩
    exact spelled
  · exact fun spelled => ⟨program.words, spelled, rfl⟩

private theorem spelled_iff {tokens : List String} :
    (∃ words, List.Forall₂ (fun token word => Spells token.toList word) tokens words) ↔
      ∀ token ∈ tokens, ∃ word, Spells token.toList word := by
  induction tokens with
  | nil => exact ⟨fun _ => List.forall_mem_nil _, fun _ => ⟨[], .nil⟩⟩
  | cons token tokens ih =>
    rw [List.forall_mem_cons, ← ih]
    constructor
    · intro ⟨_, spelled⟩
      cases spelled with
      | cons first rest => exact ⟨⟨_, first⟩, _, rest⟩
    · intro ⟨⟨word, first⟩, words, rest⟩
      exact ⟨word :: words, .cons first rest⟩

/-- Every text is read as the words that its tokens spell, one more than there are commas, just if
all of them spell words. Otherwise the first token that spells none is reported with the text. -/
theorem parse_grammar (text : String) :
    (∀ pieces, Tokens text.toList pieces ↔ pieces = (tokens text).map String.toList) ∧
    (tokens text).length = text.toList.count ',' + 1 ∧
    (∀ program, parse text = .ok program ↔
      List.Forall₂ (fun token word => Spells token.toList word) (tokens text) program.words ∧
      program.words.length = text.toList.count ',' + 1) ∧
    ((∃ program, parse text = .ok program) ↔ ∀ token ∈ tokens text, ∃ word, Spells token.toList word) ∧
    ∀ error, parse text = .error error ↔ error.text = text ∧
      ∃ before after, tokens text = before ++ error.token :: after ∧
        (∀ token ∈ before, ∃ word, Spells token.toList word) ∧ ¬ ∃ word, Spells error.token.toList word := by
  have length : (tokens text).length = text.toList.count ',' + 1 := by
    rw [← List.length_map (f := String.toList), tokens_eq, List.length_map, Text.length_pieces]
  have spells {token : String} :
      (∃ word, word? token.toList = some word) ↔ ∃ word, Spells token.toList word := by
    simp only [word_eq_some_iff]
  have fails {token : String} : word? token.toList = none ↔ ¬ ∃ word, Spells token.toList word := by
    rw [← spells, ← Option.isSome_iff_exists, Bool.not_eq_true, Option.isSome_eq_false_iff,
      Option.isNone_iff_eq_none]
  refine ⟨fun parts => ?_, length, fun program => ?_, ?_, fun error => ?_⟩
  · rw [tokens_iff, tokens_eq]
  · rw [parse_eq_ok_iff, ← length]
    exact (and_iff_left_of_imp fun spelled => spelled.length_eq.symm).symm
  · rw [← spelled_iff]
    simp only [parse_eq_ok_iff]
    exact ⟨fun ⟨program, spelled⟩ => ⟨program.words, spelled⟩, fun ⟨words, spelled⟩ => ⟨⟨words⟩, spelled⟩⟩
  · rw [parse, Outcome.map_eq_error_iff, wordsOf_eq_error_iff]
    simp only [spells, fails]

example : parse " 007\x1c,-1\n" = .ok ⟨[7, -1]⟩ := by decide +kernel

example : parse "1, +2,x " = .error ⟨"+2", "1, +2,x "⟩ := by decide +kernel

end Intcode.Program
