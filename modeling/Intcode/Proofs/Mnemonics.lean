import Intcode.Proofs.Scanning

/-! The text of an instruction is read back as that instruction, whatever its operands are and however
many. No operand holds a blank, so the blanks cut a mnemonic into its operation and its operands. -/

namespace Intcode

open Text (Scanner pieces)
open Text.Scanner

namespace Operand

/-- What stands before the number tells the kind of the operand. -/
def scan : Scanner Operand :=
  relative <$> enclosed "[rb+" "]" <|> relative <$> enclosed "[rb" "]" <|> position <$> enclosed "[" "]" <|>
    bare <$> enclosed "Param(value=" ")" <|> immediate <$> integer

def comma {α : Type} (following : List α) : List Char := if following.isEmpty then [] else [',']

def ofWords? : List (List Char) → Option (List Operand)
  | [] => some []
  | word :: words => do
    let (operand, behind) ← scan word
    if behind = comma words then return operand :: (← ofWords? words) else none

def words : List Operand → List (List Char)
  | [] => []
  | operand :: operands => (operand.text.toList ++ comma operands) :: words operands

variable {rest : List Char}

private theorem exists_front (number : Int) :
    ∃ c more, (toString number).toList = c :: more ∧ c ≠ '[' ∧ c ≠ 'r' ∧ c ≠ 'P' := by
  obtain ⟨c, more, shape⟩ := List.exists_cons_of_ne_nil (Text.Numeral.toString_ne_nil number)
  have member : c ∈ (toString number).toList := shape ▸ List.mem_cons_self
  refine ⟨c, more, shape, ?_⟩
  rcases Text.Numeral.mem_toString member with rfl | decimal
  · decide
  · have range := Text.Numeral.digit_range decimal
    refine ⟨?_, ?_, ?_⟩ <;> rintro rfl <;> exact absurd range (by decide)

private theorem scan_position (address : Int) :
    scan ((position address).text.toList ++ rest) = some (position address, rest) := by
  obtain ⟨c, more, shape, -, unbased, -⟩ := exists_front address
  have missing {before : String} {others : List Char} (based : before.toList = "[".toList ++ 'r' :: others) :
      (relative <$> enclosed before "]") ((position address).text.toList ++ rest) = none := by
    rw [text, toList_between_append, shape]
    exact map_of_none _ (enclosed_of_other _ based unbased.symm)
  rw [scan, orElse_of_none (missing rfl), orElse_of_none (missing rfl)]
  exact orElse_of_some (map_of_some position (enclosed_append address (stops_cons rfl)))

private theorem scan_immediate (value : Int) (stops : Stops rest) :
    scan ((immediate value).text.toList ++ rest) = some (immediate value, rest) := by
  obtain ⟨c, more, shape, unbracketed, -, unnamed⟩ := exists_front value
  have missing (make : Int → Operand) {before after : String} {mark : Char} {others : List Char}
      (begins : before.toList = [] ++ mark :: others) (other : c ≠ mark) :
      (make <$> enclosed before after) ((immediate value).text.toList ++ rest) = none := by
    rw [text, shape]
    exact map_of_none _ (enclosed_of_other _ begins other.symm)
  rw [scan, orElse_of_none (missing relative rfl unbracketed), orElse_of_none (missing relative rfl unbracketed),
    orElse_of_none (missing position rfl unbracketed), orElse_of_none (missing bare rfl unnamed)]
  exact map_of_some immediate (integer_append value stops)

private theorem scan_relative (offset : Int) :
    scan ((relative offset).text.toList ++ rest) = some (relative offset, rest) := by
  by_cases below : offset < 0
  · have shown : (relative offset).text = "[rb" ++ toString offset ++ "]" := if_pos below
    have signed : (relative <$> enclosed "[rb+" "]") ((relative offset).text.toList ++ rest) = none := by
      rw [shown, toList_between_append, Text.Numeral.toString_eq, if_pos below]
      exact map_of_none _ (enclosed_of_other "[rb".toList rfl (by decide))
    rw [scan, orElse_of_none signed, shown]
    exact orElse_of_some (map_of_some relative (enclosed_append offset (stops_cons rfl)))
  · have shown : (relative offset).text = "[rb+" ++ toString offset ++ "]" := if_neg below
    rw [scan, shown]
    exact orElse_of_some (map_of_some relative (enclosed_append offset (stops_cons rfl)))

private theorem scan_bare (value : Int) : scan ((bare value).text.toList ++ rest) = some (bare value, rest) := by
  have missing (make : Int → Operand) {before after : String} {others : List Char}
      (bracket : before.toList = [] ++ '[' :: others) :
      (make <$> enclosed before after) ((bare value).text.toList ++ rest) = none := by
    rw [text, toList_between_append]
    exact map_of_none _ (enclosed_of_other _ bracket (by decide))
  rw [scan, orElse_of_none (missing relative rfl), orElse_of_none (missing relative rfl),
    orElse_of_none (missing position rfl)]
  exact orElse_of_some (map_of_some bare (enclosed_append value (stops_cons rfl)))

/-- An operand is read off its own text, even where that is not known to end. -/
theorem scan_text (operand : Operand) (stops : Stops rest) :
    scan (operand.text.toList ++ rest) = some (operand, rest) := by
  cases operand with
  | position address => exact scan_position address
  | immediate value => exact scan_immediate value stops
  | relative offset => exact scan_relative offset
  | bare value => exact scan_bare value

private theorem free_text (operand : Operand) : ' ' ∉ operand.text.toList := by
  have blank : ' '.isDigit = false ∧ ' ' ≠ '-' := by decide
  cases operand with
  | position address => exact Text.Numeral.not_mem_between blank (by decide) (by decide) address
  | immediate value => exact Text.Numeral.not_mem_toString blank value
  | relative offset =>
    rw [text]
    split <;> exact Text.Numeral.not_mem_between blank (by decide) (by decide) offset
  | bare value => exact Text.Numeral.not_mem_between blank (by decide) (by decide) value

private theorem isEmpty_words (operands : List Operand) : (words operands).isEmpty = operands.isEmpty := by
  cases operands <;> rfl

private theorem ofWords?_words (operands : List Operand) : ofWords? (words operands) = some operands := by
  induction operands with
  | nil => rfl
  | cons operand operands ih =>
    have same : comma (words operands) = comma operands := by rw [comma, isEmpty_words, comma]
    have stops : Stops (comma operands) := by
      unfold comma
      split
      · exact stops_nil
      · exact stops_cons rfl
    rw [words, ofWords?, scan_text operand stops, same, ih]
    exact if_pos rfl

theorem pieces_operands (operand : Operand) (operands : List Operand) :
    pieces ' ' (", ".intercalate ((operand :: operands).map text)).toList = words (operand :: operands) := by
  induction operands generalizing operand with
  | nil =>
    have alone := Text.pieces_of_free operand.free_text
    simpa [words, comma] using alone
  | cons next operands ih =>
    have free : ' ' ∉ operand.text.toList ++ [','] := by
      rw [List.mem_append, not_or]
      exact ⟨operand.free_text, by decide⟩
    have cut := Text.pieces_line free (", ".intercalate ((next :: operands).map text)).toList
    rw [ih next, List.append_assoc] at cut
    have joined : (", ".intercalate ((operand :: next :: operands).map text)).toList =
        operand.text.toList ++ ([','] ++ ' ' :: (", ".intercalate ((next :: operands).map text)).toList) := by
      rw [List.map_cons, List.map_cons, String.intercalate_cons_cons, String.toList_append, String.toList_append,
        List.append_assoc]
      rfl
    rw [joined, cut]
    rfl

end Operand

namespace Instruction

def ofWords? : List (List Char) → Option Instruction
  | [] => none
  | name :: words => do return ⟨← Operation.ofName? (String.ofList name), ← Operand.ofWords? words⟩

/-- The instruction that a mnemonic shows. -/
def ofMnemonic? (mnemonic : String) : Option Instruction := ofWords? (pieces ' ' mnemonic.toList)

private theorem pieces_mnemonic (instruction : Instruction) :
    pieces ' ' instruction.mnemonic.toList =
      instruction.operation.name.toList :: Operand.words instruction.operands := by
  obtain ⟨operation, operands⟩ := instruction
  have free : ' ' ∉ operation.name.toList := by cases operation <;> decide
  cases operands with
  | nil => exact Text.pieces_of_free free
  | cons operand operands =>
    have cut := Text.pieces_line free (", ".intercalate ((operand :: operands).map Operand.text)).toList
    rw [Operand.pieces_operands] at cut
    simp only [mnemonic, List.isEmpty_cons, Bool.false_eq_true, if_false, String.toList_append, List.append_assoc]
    exact cut

theorem ofMnemonic?_mnemonic (instruction : Instruction) : ofMnemonic? instruction.mnemonic = some instruction := by
  have named : Operation.ofName? instruction.operation.name = some instruction.operation := by
    cases instruction.operation <;> decide
  rw [ofMnemonic?, pieces_mnemonic, ofWords?, String.ofList_toList, named, Operand.ofWords?_words]
  rfl

private theorem mnemonic_injective : Function.Injective mnemonic := by
  intro left right same
  have read := ofMnemonic?_mnemonic left
  rw [same, ofMnemonic?_mnemonic right] at read
  exact (Option.some_inj.mp read).symm

end Instruction

namespace Event

/-- The event that a line of a trace tells. -/
def ofLine? (line : String) : Option Event :=
  match pieces ' ' line.toList with
  | pc :: base :: words => do
    let pc ← (labelled "pc=").whole pc
    let base ← (labelled "rb=").whole base
    return .fetched pc base (← Instruction.ofWords? words)
  | _ => none

theorem pieces_line (pc base : Int) (instruction : Instruction) :
    pieces ' ' ("pc=" ++ toString pc ++ " rb=" ++ toString base ++ " " ++ instruction.mnemonic).toList =
      ("pc=" ++ toString pc).toList :: ("rb=" ++ toString base).toList :: pieces ' ' instruction.mnemonic.toList := by
  have free (label : String) (number : Int) (blank : ' ' ∉ label.toList) :
      ' ' ∉ (label ++ toString number).toList := by
    rw [String.toList_append, List.mem_append, not_or]
    exact ⟨blank, Text.Numeral.not_mem_toString (by decide) number⟩
  have second := Text.pieces_line (free "rb=" base (by decide)) instruction.mnemonic.toList
  have first := Text.pieces_line (free "pc=" pc (by decide))
    (("rb=" ++ toString base).toList ++ ' ' :: instruction.mnemonic.toList)
  rw [second] at first
  rw [← first]
  simp only [String.toList_append, List.append_assoc]
  rfl

private theorem ofLine?_line (pc base : Int) (instruction : Instruction) :
    ((fetched pc base instruction).passage?.map Passage.text).bind ofLine? = some (fetched pc base instruction) := by
  have read := Instruction.ofMnemonic?_mnemonic instruction
  rw [Instruction.ofMnemonic?] at read
  rw [passage?, Option.map_some, Option.bind_some, ofLine?, pieces_line]
  simp only [whole_labelled, read, Option.bind_eq_bind, Option.bind_some]
  rfl

end Event

/-- A mnemonic tells the operation and all of its operands: it can be read back, alone or at the end of a
line of a trace, and no two instructions share one. -/
theorem Instruction.mnemonic_reads_back :
    (∀ instruction, ofMnemonic? instruction.mnemonic = some instruction) ∧
    (∀ left right : Instruction, left.mnemonic = right.mnemonic ↔
      left.operation = right.operation ∧ left.operands = right.operands) ∧
    ∀ pc base instruction, ((Event.fetched pc base instruction).passage?.map Passage.text).bind Event.ofLine? =
      some (.fetched pc base instruction) := by
  refine ⟨ofMnemonic?_mnemonic, ?_, Event.ofLine?_line⟩
  intro left right
  rw [mnemonic_injective.eq_iff]
  cases left
  cases right
  exact Instruction.mk.injEq _ _ _ _ ▸ Iff.rfl

example : Event.ofLine? "pc=4 rb=-2 MUL [rb-3], -4, [rb+0]" =
    some (.fetched 4 (-2) ⟨.multiply, [.relative (-3), .immediate (-4), .relative 0]⟩) := by decide +kernel

end Intcode
