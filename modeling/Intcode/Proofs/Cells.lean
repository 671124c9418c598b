import Mathlib.Data.List.Basic
import Intcode.Memory

/-! A memory seen cell by cell: every cell holds the word that was stored there last, and
a loaded program is its words with zeros behind them. -/

namespace Intcode

namespace Memory

theorem cells_put (memory : Memory) (cell other : Nat) (value : Int) :
    (memory.put cell value).cells[other]? = if other = cell then some (Word.wrap value) else memory.cells[other]? := by
  unfold put
  rw [Std.ExtTreeMap.getElem?_insert]
  by_cases same : other = cell
  · simp [same]
  · have apart : ¬ cell = other := fun same' => same same'.symm
    simp [same, apart]

theorem word_put (memory : Memory) (cell other : Nat) (value : Int) :
    (memory.put cell value).word other = if other = cell then Word.wrap value else memory.word other := by
  unfold word
  rw [cells_put]
  split <;> rfl

theorem cells_place (memory : Memory) (start : Nat) (words : List Int) (cell : Nat) :
    (memory.place start words).cells[cell]? =
      if start ≤ cell ∧ words.getD (cell - start) 0 ≠ 0 then some (Word.wrap (words.getD (cell - start) 0))
      else memory.cells[cell]? := by
  induction words generalizing memory start with
  | nil => simp [place]
  | cons value rest ih =>
    rw [place, ih]
    by_cases here : cell = start
    · subst here
      have before : ¬ cell + 1 ≤ cell := by omega
      by_cases zero : value = 0
      · simp [before, zero]
      · simp [before, zero, cells_put]
    · have elsewhere (written : Memory) :
          (if value = 0 then written else written.put start value).cells[cell]? = written.cells[cell]? := by
        split
        · rfl
        · rw [cells_put, if_neg here]
      rw [elsewhere]
      by_cases after : start ≤ cell
      · obtain ⟨distance, rfl⟩ := Nat.exists_eq_add_of_le after
        cases distance with
        | zero => exact (here rfl).elim
        | succ distance =>
          have shift : start + (distance + 1) - (start + 1) = distance := by omega
          have reach : start + 1 ≤ start + (distance + 1) := by omega
          simp only [shift, reach, Nat.add_sub_cancel_left, List.getD_cons_succ, after]
      · have before : ¬ start + 1 ≤ cell := by omega
        simp only [before, after, false_and, if_false]

theorem cells_ofWords (words : List Int) (cell : Nat) :
    (ofWords words).cells[cell]? =
      if words.getD cell 0 ≠ 0 then some (Word.wrap (words.getD cell 0)) else none := by
  rw [ofWords, cells_place, Nat.sub_zero]
  simp only [Nat.zero_le, true_and]
  rfl

theorem word_ofWords (words : List Int) (cell : Nat) :
    (ofWords words).word cell = Word.wrap (words.getD cell 0) := by
  unfold word
  rw [cells_ofWords]
  by_cases zero : words.getD cell 0 = 0
  · rw [if_neg (fun held => held zero), zero]
    rfl
  · rw [if_pos zero]
    rfl

theorem toList_ascending (memory : Memory) : memory.toList.Pairwise fun first second => first.1 < second.1 := by
  have ordered := memory.cells.ordered_keys_toList
  exact ordered.imp Nat.compare_eq_lt.mp

theorem mem_toList {memory : Memory} {cell : Nat} {word : Int} :
    (cell, word) ∈ memory.toList ↔ memory.cells[cell]? = some word :=
  Std.ExtTreeMap.mem_toList_iff_getElem?_eq_some

theorem length_toList (memory : Memory) : memory.toList.length = memory.size :=
  Std.ExtTreeMap.length_toList

theorem read_eq (memory : Memory) (address : Int) :
    memory.read address =
      if 0 ≤ address then .ok (memory.word address.toNat) else .error (.negativeAddress address) := by
  unfold read cell
  split <;> rfl

theorem write_eq (memory : Memory) (address value : Int) :
    memory.write address value =
      if 0 ≤ address then .ok (memory.put address.toNat value) else .error (.negativeAddress address) := by
  unfold write cell
  split <;> rfl

def nonzero (memory : Memory) : List (Nat × Int) := memory.toList.filter (·.2 ≠ 0)

theorem nonzero_ascending (memory : Memory) : memory.nonzero.Pairwise fun first second => first.1 < second.1 :=
  memory.toList_ascending.filter _

theorem mem_nonzero {memory : Memory} {cell : Nat} {word : Int} :
    (cell, word) ∈ memory.nonzero ↔ word = memory.word cell ∧ word ≠ 0 := by
  rw [nonzero, List.mem_filter, mem_toList, decide_eq_true_eq, Memory.word]
  cases memory.cells[cell]? with
  | none => simp
  | some held => simp [eq_comm]

theorem filterMap_toList {α : Type} {line : Nat × Int → Option α}
    (skips : ∀ entry, entry.2 = 0 → line entry = none) (memory : Memory) :
    memory.toList.filterMap line = memory.nonzero.filterMap line := by
  rw [nonzero, List.filterMap_filter]
  refine List.filterMap_congr fun entry _ => ?_
  by_cases zero : entry.2 = 0
  · simp [zero, skips]
  · simp [zero]

private theorem filter_nonzero (held : Option Int) :
    held.filter (fun word => decide (word ≠ 0)) =
      if held.getD 0 = 0 then none else some (held.getD 0) := by
  cases held with
  | none => rfl
  | some word => by_cases zero : word = 0 <;> simp [Option.filter, zero]

/-- Memories that read alike list the same cells, but for those that hold zero. -/
theorem nonzero_eq {left right : Memory} (same : ∀ cell, right.word cell = left.word cell) :
    right.nonzero = left.nonzero := by
  have cells : right.cells.filter (fun _ word => decide (word ≠ 0)) =
      left.cells.filter (fun _ word => decide (word ≠ 0)) := by
    apply Std.ExtTreeMap.ext_getElem?
    intro cell
    have held : right.cells[cell]?.getD 0 = left.cells[cell]?.getD 0 := same cell
    rw [Std.ExtTreeMap.getElem?_filter', Std.ExtTreeMap.getElem?_filter', filter_nonzero,
      filter_nonzero, held]
  have listed := congrArg Std.ExtTreeMap.toList cells
  rwa [Std.ExtTreeMap.toList_filter, Std.ExtTreeMap.toList_filter] at listed

end Memory
end Intcode
