import Mathlib.Data.List.Basic
import Intcode.Passage
import Intcode.Proofs.Pieces

/-! Passages in a row, as they are written and read back. Where each of them is made of whole lines, what was
written is cut into the lines of the passages before the first one that cannot be written. -/

namespace Intcode.Passage

open Text (pieces)
open Text.Numeral (isTooLong)

variable {passage : Passage} {passages : List Passage}

theorem isWritable_iff : passage.isWritable = true ↔ ∀ number ∈ passage.numbers, isTooLong number = false := by
  simp [isWritable]

theorem outcome_eq_ok_iff : outcome passages = .ok () ↔ ∀ passage ∈ passages, passage.isWritable = true := by
  rw [outcome, ← List.all_eq_true]
  split <;> simp [*]

theorem outcome_of_failure (failed : outcome passages ≠ .ok ()) : outcome passages = .error .numberTooLong := by
  unfold outcome at failed ⊢
  split at failed
  · exact (failed rfl).elim
  · rw [if_neg ‹_›]

/-- The lines of a text that ends with one. -/
def lines (passage : Passage) : List (List Char) := (pieces '\n' passage.text.toList).dropLast

structure MadeOf (passage : Passage) (lines : List (List Char)) : Prop where
  text : passage.text.toList = lines.flatMap (· ++ ['\n'])
  free : ∀ line ∈ lines, '\n' ∉ line

theorem MadeOf.lines_eq {lines : List (List Char)} (made : passage.MadeOf lines) : passage.lines = lines := by
  have cut := Text.pieces_lines made.free []
  rw [List.append_nil, ← made.text] at cut
  rw [Passage.lines, cut]
  exact List.dropLast_concat

theorem MadeOf.self {lines : List (List Char)} (made : passage.MadeOf lines) : passage.MadeOf passage.lines := by
  rwa [made.lines_eq]

theorem pieces_written (made : ∀ passage ∈ passages, passage.MadeOf passage.lines) :
    pieces '\n' (written passages).toList = (passages.takeWhile isWritable).flatMap lines ++ [[]] := by
  have kept : ∀ passage ∈ passages.takeWhile isWritable, passage.MadeOf passage.lines :=
    fun passage member => made passage (List.takeWhile_subset _ member)
  have whole : (written passages).toList =
      ((passages.takeWhile isWritable).flatMap lines).flatMap (· ++ ['\n']) := by
    rw [written, String.toList_join, List.flatMap_map, List.flatMap_assoc]
    exact List.flatMap_congr fun passage member => (kept passage member).text
  have free : ∀ line ∈ (passages.takeWhile isWritable).flatMap lines, '\n' ∉ line := by
    intro line member
    obtain ⟨passage, inside, found⟩ := List.mem_flatMap.mp member
    exact (kept passage inside).free line found
  rw [whole, ← List.append_nil (List.flatMap _ _), Text.pieces_lines free, pieces]

end Intcode.Passage
