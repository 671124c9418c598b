import Mathlib.Data.List.Induction
import Intcode.Proofs.Cells
import Intcode.Proofs.LongNumbers

/-! A memory under any sequence of requests. What it answers is told by the words that it was loaded
with and the values stored since: every cell holds the last of them. Refused requests leave no trace,
and a zero counts as written only if it was stored. -/

namespace Intcode.Memory

/-- What a memory can be asked for. -/
inductive Request where
  | get (address : Int)
  | set (address value : Int)
  | size
  | list
deriving DecidableEq, Repr

inductive Reply where
  | word (word : Int)
  | stored
  | size (cells : Nat)
  | list (cells : List (Nat × Int))
deriving DecidableEq, Repr

namespace Request

/-- The reply to a request, and the memory that is left. -/
def perform (memory : Memory) : Request → Except Fault Reply × Memory
  | get address => (.word <$> memory.read address, memory)
  | set address value =>
    match memory.write address value with
    | .ok after => (.ok .stored, after)
    | .error fault => (.error fault, memory)
  | size => (.ok (.size memory.size), memory)
  | list => (.ok (.list memory.toList), memory)

/-- The value that the request stores at a cell. -/
def stores? (cell : Nat) : Request → Option Int
  | set address value => if address = cell then some value else none
  | _ => none

def isAstray : Request → Bool
  | get address | set address _ => address < 0
  | _ => false

end Request

/-- The memory that requests leave of a program's words. -/
def after (words : List Int) (past : List Request) : Memory :=
  past.foldl (fun memory request => (request.perform memory).2) (ofWords words)

/-- The values that requests store at a cell, the latest last. -/
def stored (past : List Request) (cell : Nat) : List Int := past.filterMap (·.stores? cell)

/-- A program's word was placed at the cell, or something was stored there. -/
def Written (words : List Int) (past : List Request) (cell : Nat) : Prop :=
  words.getD cell 0 ≠ 0 ∨ stored past cell ≠ []

/-- The word at a cell: what was stored last, or else what was there from the start. -/
def held (words : List Int) (past : List Request) (cell : Nat) : Int :=
  Word.wrap ((stored past cell).getLastD (words.getD cell 0))

/-- The written cells with the words they hold, each of them once and the lowest first. -/
structure Lists (words : List Int) (past : List Request) (cells : List (Nat × Int)) : Prop where
  ascending : cells.Pairwise fun first second => first.1 < second.1
  complete : ∀ cell word, (cell, word) ∈ cells ↔ Written words past cell ∧ word = held words past cell

variable {words : List Int} {past : List Request} {request : Request} {memory : Memory}

theorem perform_set (address value : Int) : (Request.set address value).perform memory =
    if 0 ≤ address then (.ok .stored, memory.put address.toNat value)
    else (.error (.negativeAddress address), memory) := by
  rw [Request.perform, write_eq]
  split
  next found =>
    split at found
    · cases found
      rw [if_pos ‹_›]
    · cases found
  next found =>
    split at found
    · cases found
    · cases found
      rw [if_neg ‹_›]

theorem perform_cases (request : Request) (memory : Memory) :
    (∃ reply left, request.perform memory = (.ok reply, left)) ∨
    ∃ address < 0, request.perform memory = (.error (.negativeAddress address), memory) := by
  cases request with
  | get address =>
    rw [Request.perform, read_eq]
    split
    · exact .inl ⟨_, _, rfl⟩
    · exact .inr ⟨address, by omega, rfl⟩
  | set address value =>
    rw [perform_set]
    split
    · exact .inl ⟨_, _, rfl⟩
    · exact .inr ⟨address, by omega, rfl⟩
  | size | list => exact .inl ⟨_, _, rfl⟩

private theorem perform_astray (astray : request.isAstray = true) : (request.perform memory).2 = memory := by
  cases request with
  | set address value =>
    have below : ¬ 0 ≤ address := Int.not_le.mpr (of_decide_eq_true astray)
    rw [perform_set, if_neg below]
  | get | size | list => rfl

theorem cells_perform (cell : Nat) : (request.perform memory).2.cells[cell]? =
    ((request.stores? cell).map Word.wrap).or memory.cells[cell]? := by
  cases request with
  | set address value =>
    rw [perform_set]
    by_cases inside : 0 ≤ address
    · have named : address = cell ↔ cell = address.toNat := by omega
      rw [if_pos inside, cells_put, Request.stores?]
      simp only [named]
      split <;> rfl
    · have elsewhere : ¬ address = cell := by omega
      rw [if_neg inside, Request.stores?, if_neg elsewhere]
      rfl
  | get | size | list => rfl

private theorem after_concat (past : List Request) (request : Request) :
    after words (past ++ [request]) = (request.perform (after words past)).2 := List.foldl_append

private theorem stored_concat (past : List Request) (request : Request) (cell : Nat) :
    stored (past ++ [request]) cell = stored past cell ++ (request.stores? cell).toList := by
  rw [stored, List.filterMap_append, stored]
  cases stores : request.stores? cell <;> simp [stores]

/-- Of all that was stored at a cell, the latest is there. -/
theorem cells_after (words : List Int) (past : List Request) (cell : Nat) : (after words past).cells[cell]? =
    ((stored past cell).getLast?.map Word.wrap).or (ofWords words).cells[cell]? := by
  induction past using List.reverseRecOn with
  | nil => rfl
  | append_singleton past request ih =>
    have latest : (request.stores? cell).toList.getLast? = request.stores? cell := by
      cases request.stores? cell <;> rfl
    rw [after_concat, cells_perform, ih, stored_concat, List.getLast?_append, latest, Option.map_or, Option.or_assoc]

private theorem cells_after_iff {cell : Nat} {word : Int} :
    (after words past).cells[cell]? = some word ↔ Written words past cell ∧ word = held words past cell := by
  rw [cells_after, cells_ofWords, Written, held, List.getLastD_eq_getLast?]
  cases latest : (stored past cell).getLast? with
  | some value =>
    have some : stored past cell ≠ [] := by
      intro none
      rw [none] at latest
      cases latest
    simp [some, eq_comm]
  | none =>
    have none : stored past cell = [] := List.getLast?_eq_none_iff.mp latest
    by_cases zero : words.getD cell 0 = 0
    · simp only [none, zero]
      simp
    · simp only [none, zero, ne_eq, not_false_eq_true, true_or, true_and]
      exact Option.some_inj.trans eq_comm

theorem word_after (words : List Int) (past : List Request) (cell : Nat) :
    (after words past).word cell = held words past cell := by
  unfold word
  rw [cells_after, cells_ofWords, held, List.getLastD_eq_getLast?]
  cases (stored past cell).getLast? with
  | some value => rfl
  | none =>
    by_cases zero : words.getD cell 0 = 0
    · rw [zero]
      rfl
    · rw [if_pos zero]
      rfl

private theorem lists_after (words : List Int) (past : List Request) : Lists words past (after words past).toList where
  ascending := toList_ascending _
  complete _ _ := mem_toList.trans cells_after_iff

private theorem after_filter_astray (words : List Int) (past : List Request) :
    after words (past.filter (!·.isAstray)) = after words past := by
  unfold after
  rw [List.foldl_filter]
  congr
  funext memory request
  cases astray : request.isAstray with
  | true => exact (perform_astray astray).symm
  | false => rfl

/-- A memory is a map from every address to the value that was written there last. There is none
below zero, which the report says unless the address cannot be written. -/
theorem last_write_wins (words : List Int) (past : List Request) :
    (∀ address, (Request.get address).perform (after words past) =
      (if 0 ≤ address then .ok (.word (held words past address.toNat)) else .error (.negativeAddress address),
        after words past)) ∧
    (∀ address value, (Request.set address value).perform (after words past) =
      if 0 ≤ address then (.ok .stored, after words (past ++ [.set address value]))
      else (.error (.negativeAddress address), after words past)) ∧
    (∀ request : Request, (∃ reply left, request.perform (after words past) = (.ok reply, left)) ∨
      ∃ address < 0, request.perform (after words past) = (.error (.negativeAddress address), after words past) ∧
        (Fault.negativeAddress address).kind =
          if Text.Numeral.isTooLong address then .unwritable else .addressing) ∧
    (∃ cells, Lists words past cells ∧
      Request.list.perform (after words past) = (.ok (.list cells), after words past) ∧
      Request.size.perform (after words past) = (.ok (.size cells.length), after words past)) ∧
    after words (past.filter (!·.isAstray)) = after words past := by
  refine ⟨?_, ?_, ?_, ?_, after_filter_astray words past⟩
  · intro address
    rw [Request.perform, read_eq, ← word_after]
    split <;> rfl
  · intro address value
    rw [after_concat, perform_set]
    split <;> rfl
  · intro request
    refine (perform_cases request (after words past)).imp_right ?_
    rintro ⟨address, below, failed⟩
    exact ⟨address, below, failed, Fault.kind_of_address (.inl rfl)⟩
  · refine ⟨_, lists_after words past, rfl, ?_⟩
    rw [length_toList]
    rfl

/-- A get and a set so far below zero that the report cannot name the address. -/
theorem requests_beyond_report : ∃ fault, fault.kind = .unwritable ∧
    (Request.get (-10 ^ Text.Numeral.maxDigits)).perform (after [99] []) = (.error fault, after [99] []) ∧
    (Request.set (-10 ^ Text.Numeral.maxDigits) 7).perform (after [99] []) = (.error fault, after [99] []) := by
  have below : ¬ 0 ≤ (-10 ^ Text.Numeral.maxDigits : Int) := Int.not_le.mpr (Text.Numeral.neg_power_neg _)
  refine ⟨.negativeAddress (-10 ^ Text.Numeral.maxDigits), Fault.kind_of_neg_power, ?_, ?_⟩
  · rw [Request.perform, read_eq, if_neg below]
    rfl
  · rw [perform_set, if_neg below]

/-- A zero in a program is not written, a zero that is stored or wrapped to is. -/
example : (after [3, 0, 0x10000000000000000] [.set 1 0, .set (-1) 7, .set 0 0x10000000000000005]).toList =
    [(0, 5), (1, 0), (2, 0)] := by decide +kernel

end Intcode.Memory
