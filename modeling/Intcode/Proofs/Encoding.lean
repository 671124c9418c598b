import Mathlib.Data.Int.ModEq
import Mathlib.Data.Nat.Digits.Lemmas
import Intcode.Proofs.Cells
import Intcode.Proofs.Decoding
import Intcode.Proofs.LongNumbers

/-! Instruction words taken apart and put together. A word is the code of an operation, a digit
for the mode of each operand and any number above those digits. Decoding inverts that, and what
it refuses is no such word. -/

namespace Intcode

namespace Mode

def digit : Mode → Nat
  | position => 0
  | immediate => 1
  | relative => 2

theorem ofDigit?_eq_some_iff {digit : Nat} {mode : Mode} :
    ofDigit? digit = some mode ↔ digit = mode.digit := by
  match digit with
  | 0 | 1 | 2 => cases mode <;> decide
  | digit + 3 => cases mode <;> simp [ofDigit?, Mode.digit]

private theorem digit_injective : Function.Injective digit := by
  intro mode other same
  have selected := ofDigit?_eq_some_iff.mpr same
  rw [ofDigit?_eq_some_iff.mpr rfl] at selected
  exact Option.some.inj selected

theorem digit_lt (mode : Mode) : mode.digit < 10 := by cases mode <;> decide

private theorem exists_digit_iff {digit : Nat} : (∃ mode : Mode, digit = mode.digit) ↔ digit ≤ 2 := by
  simp only [← ofDigit?_eq_some_iff, ← Option.isSome_iff_exists, ← Option.ne_none_iff_isSome, Ne,
    ofDigit?_eq_none_iff, Nat.not_lt]

end Mode

namespace Operation

theorem code_lt (operation : Operation) : operation.code < 100 := by cases operation <;> decide

theorem ofCode?_eq_some_iff {number : Nat} {operation : Operation} :
    ofCode? number = some operation ↔ number = operation.code := by
  unfold ofCode?
  constructor
  · intro found
    have coded := List.find?_some found
    exact (of_decide_eq_true coded).symm
  · rintro rfl
    cases operation <;> rfl

private theorem code_injective : Function.Injective code := by
  intro operation other same
  have named := ofCode?_eq_some_iff.mpr same
  rw [ofCode?_eq_some_iff.mpr rfl] at named
  exact Option.some.inj named

end Operation

def Operand.mode? : Operand → Option Mode
  | position _ => some .position
  | immediate _ => some .immediate
  | relative _ => some .relative
  | bare _ => none

private theorem Operand.mode?_ofMode (mode : Mode) (word : Int) : (ofMode mode word).mode? = some mode := by
  cases mode <;> rfl

namespace Instruction

/-- A word that names this operation stands at the address. -/
structure Names (memory : Memory) (address : Int) (operation : Operation) : Prop where
  inside : 0 ≤ address
  positive : 0 ≤ memory.word address.toNat
  code : memory.word address.toNat % 100 = operation.code

/-- The decimal digit that selects the mode of an operand, from the word at an address. -/
def digitAt (memory : Memory) (address : Int) (index : Nat) : Nat :=
  modeDigit ((memory.word address.toNat).toNat / 100) index

/-- Why no instruction can be decoded at an address. Of several bad digits the lowest counts. -/
inductive Undecodable (memory : Memory) (address : Int) : Fault → Prop where
  | outside (negative : address < 0) : Undecodable memory address (.negativeAddress address)
  | unnamed (inside : 0 ≤ address) (nameless : ∀ operation, ¬ Names memory address operation) :
    Undecodable memory address (.unknownOpcode (memory.word address.toNat) address)
  | unselected (named : Names memory address known) (below : index < known.arity)
    (bad : 2 < digitAt memory address index) (lowest : ∀ earlier < index, digitAt memory address earlier ≤ 2) :
    Undecodable memory address
      (.unknownMode (digitAt memory address index) (memory.word address.toNat) address)

variable {memory : Memory} {address : Int} {instruction : Instruction} {operation : Operation}
  {selected : List Mode}

/-- The operation and the modes of the operands, without the words that these stand for. -/
def shape (instruction : Instruction) : Operation × List (Option Mode) :=
  (instruction.operation, instruction.operands.map Operand.mode?)

def number (selected : List Mode) : Nat := Nat.ofDigits 10 (selected.map Mode.digit)

/-- The word for an operation and modes, with any number above their digits. -/
def encode (operation : Operation) (selected : List Mode) (surplus : Nat) : Nat :=
  operation.code + 100 * number selected + 100 * 10 ^ selected.length * surplus

private theorem number_cons (mode : Mode) (rest : List Mode) :
    number (mode :: rest) = mode.digit + 10 * number rest := by
  rw [number, List.map_cons, Nat.ofDigits_cons, number]

private theorem number_lt (selected : List Mode) : number selected < 10 ^ selected.length := by
  have below := Nat.ofDigits_lt_base_pow_length (l := selected.map Mode.digit) (by decide : 1 < 10)
    (by simpa using fun mode _ => mode.digit_lt)
  rwa [List.length_map] at below

private theorem number_inj {selected selected' : List Mode} (lengths : selected.length = selected'.length)
    (same : number selected = number selected') : selected = selected' := by
  have digits := Nat.ofDigits_inj_of_len_eq (by decide : 1 < 10) (by simpa using lengths)
    (by simpa using fun mode _ => mode.digit_lt) (by simpa using fun mode _ => mode.digit_lt) same
  exact List.map_injective_iff.mpr Mode.digit_injective digits

theorem modes_eq_ok_iff_number {arity digits : Nat} :
    modes arity digits = .ok selected ↔
      selected.length = arity ∧ ∃ surplus, digits = number selected + 10 ^ arity * surplus := by
  induction arity generalizing digits selected with
  | zero =>
    cases selected with
    | nil => simp [modes, number]
    | cons mode rest => simp [modes]
  | succ arity ih =>
    have raised (rest surplus : Nat) :
        10 * (rest + 10 ^ arity * surplus) = 10 * rest + 10 ^ (arity + 1) * surplus := by ring
    unfold modes
    constructor
    · intro read
      cases first : Mode.ofDigit? (digits % 10) with
      | none => rw [first] at read; cases read
      | some mode =>
        cases rest : modes arity (digits / 10) with
        | error digit => rw [first, rest] at read; cases read
        | ok others =>
          rw [first, rest] at read
          cases read
          obtain ⟨length, surplus, higher⟩ := ih.mp rest
          refine ⟨by rw [List.length_cons, length], surplus, ?_⟩
          have lowest := Mode.ofDigit?_eq_some_iff.mp first
          have shifted := raised (number others) surplus
          rw [number_cons]
          omega
    · rintro ⟨length, surplus, made⟩
      cases selected with
      | nil => cases length
      | cons mode others =>
        have small := mode.digit_lt
        have shifted := raised (number others) surplus
        rw [number_cons] at made
        have lowest : digits % 10 = mode.digit := by omega
        have higher : digits / 10 = number others + 10 ^ arity * surplus := by omega
        have rest := ih.mpr ⟨Nat.succ.inj length, surplus, higher⟩
        rw [lowest, Mode.ofDigit?_eq_some_iff.mpr rfl, rest]
        rfl

private theorem operationOf?_eq_some_iff {word : Int} :
    operationOf? word = some operation ↔ 0 ≤ word ∧ word % 100 = operation.code := by
  unfold operationOf?
  split
  next positive =>
    rw [Operation.ofCode?_eq_some_iff]
    omega
  next negative => simp [negative]

/-- A word names an operation and selects its modes just if it was put together from those. -/
theorem selects_iff_encode {word : Int} (length : selected.length = operation.arity) :
    (operationOf? word = some operation ∧ modes operation.arity (word.toNat / 100) = .ok selected) ↔
      ∃ surplus, word = encode operation selected surplus := by
  have small := operation.code_lt
  have raised (surplus : Nat) : 100 * (number selected + 10 ^ operation.arity * surplus) =
      100 * number selected + 100 * 10 ^ operation.arity * surplus := by ring
  unfold encode
  rw [operationOf?_eq_some_iff, modes_eq_ok_iff_number, length]
  constructor
  · rintro ⟨⟨positive, code⟩, _, surplus, digits⟩
    have whole := raised surplus
    exact ⟨surplus, by omega⟩
  · rintro ⟨surplus, made⟩
    have whole := raised surplus
    exact ⟨⟨by omega, by omega⟩, rfl, surplus, by omega⟩

/-- Decoding finds the operation and the modes that the word was put together from, and the words
behind it as operands. -/
theorem decode_eq_ok_iff_encode :
    decode memory address = .ok instruction ↔ 0 ≤ address ∧ ∃ selected surplus,
      selected.length = instruction.operation.arity ∧
      memory.word address.toNat = encode instruction.operation selected surplus ∧
      instruction.operands = operandsAt memory (address.toNat + 1) selected := by
  by_cases inside : 0 ≤ address
  · rw [decode_of_nonneg inside]
    constructor
    · intro decoded
      cases named : operationOf? (memory.word address.toNat) with
      | none => simp only [named] at decoded; cases decoded
      | some operation =>
        cases read : modes operation.arity ((memory.word address.toNat).toNat / 100) with
        | error digit => simp only [named, read] at decoded; cases decoded
        | ok selected =>
          simp only [named, read] at decoded
          cases decoded
          have length := (modes_eq_ok_iff_number.mp read).1
          obtain ⟨surplus, made⟩ := (selects_iff_encode length).mp ⟨named, read⟩
          exact ⟨inside, selected, surplus, length, made, rfl⟩
    · rintro ⟨_, selected, surplus, length, made, operands⟩
      obtain ⟨named, read⟩ := (selects_iff_encode length).mpr ⟨surplus, made⟩
      simp only [named, read, ← operands]
  · rw [decode_of_negative (Int.not_le.mp inside)]
    simp [inside]

theorem shape_eq (operands : instruction.operands = operandsAt memory (address.toNat + 1) selected) :
    instruction.shape = (instruction.operation, selected.map some) := by
  have modes (start : Nat) : (operandsAt memory start selected).map Operand.mode? = selected.map some := by
    clear operands
    induction selected generalizing start with
    | nil => rfl
    | cons mode rest ih => rw [operandsAt, List.map_cons, List.map_cons, Operand.mode?_ofMode, ih]
  rw [shape, operands, modes]

theorem encode_modEq_iff {operation' : Operation} {selected' : List Mode} {surplus surplus' : Nat}
    (length : selected.length = operation.arity) (length' : selected'.length = operation'.arity) :
    operation = operation' ∧ selected = selected' ↔
      encode operation selected surplus % 100 = encode operation' selected' surplus' % 100 ∧
        encode operation selected surplus ≡ encode operation' selected' surplus'
          [MOD 100 * 10 ^ operation.arity] := by
  have low (operation : Operation) (selected : List Mode) (surplus : Nat) :
      encode operation selected surplus % 100 = operation.code := by
    have small := operation.code_lt
    rw [encode, Nat.mul_assoc]
    omega
  have whole (operation : Operation) (selected : List Mode) (surplus : Nat) :
      encode operation selected surplus % (100 * 10 ^ selected.length) =
        operation.code + 100 * number selected := by
    have small := operation.code_lt
    have fits := number_lt selected
    rw [encode, Nat.add_mul_mod_self_left, Nat.mod_eq_of_lt]
    omega
  rw [low, low, Operation.code_injective.eq_iff]
  constructor
  · rintro ⟨rfl, rfl⟩
    refine ⟨rfl, ?_⟩
    rw [Nat.ModEq, ← length, whole, whole]
  · rintro ⟨rfl, same⟩
    rw [Nat.ModEq, ← length, whole, length, ← length', whole] at same
    exact ⟨rfl, number_inj (length.trans length'.symm) (by omega)⟩

theorem names_iff (inside : 0 ≤ address) :
    Names memory address operation ↔ operationOf? (memory.word address.toNat) = some operation := by
  rw [operationOf?_eq_some_iff]
  exact ⟨fun named => ⟨named.positive, named.code⟩, fun ⟨positive, code⟩ => ⟨inside, positive, code⟩⟩

theorem Names.unique {operation' : Operation} (named : Names memory address operation)
    (named' : Names memory address operation') : operation' = operation := by
  have known := (names_iff named.inside).mp named
  rw [(names_iff named.inside).mp named'] at known
  exact Option.some.inj known

private theorem undecodable_of_decode {fault : Fault} (failed : decode memory address = .error fault) :
    Undecodable memory address fault := by
  by_cases inside : 0 ≤ address
  · rw [decode_of_nonneg inside] at failed
    cases named : operationOf? (memory.word address.toNat) with
    | none =>
      simp only [named] at failed
      cases failed
      refine .unnamed inside fun operation names => ?_
      rw [names_iff inside, named] at names
      cases names
    | some operation =>
      cases read : modes operation.arity ((memory.word address.toNat).toNat / 100) with
      | ok selected => simp only [named, read] at failed; cases failed
      | error digit =>
        simp only [named, read] at failed
        cases failed
        obtain ⟨index, below, rfl, bad, before⟩ := modes_eq_error_iff.mp read
        refine .unselected ((names_iff inside).mpr named) below (Mode.ofDigit?_eq_none_iff.mp bad) ?_
        intro earlier smaller
        have selects := before earlier smaller
        rw [Ne, Mode.ofDigit?_eq_none_iff] at selects
        exact Nat.not_lt.mp selects
  · have negative := Int.not_le.mp inside
    rw [decode_of_negative negative] at failed
    cases failed
    exact .outside negative

theorem decode_eq_error_iff {fault : Fault} :
    decode memory address = .error fault ↔ Undecodable memory address fault := by
  refine ⟨undecodable_of_decode, fun undecodable => ?_⟩
  cases undecodable with
  | outside negative => exact decode_of_negative negative
  | unnamed inside nameless =>
    have unknown : operationOf? (memory.word address.toNat) = none := by
      rw [Option.eq_none_iff_forall_ne_some]
      exact fun operation named => nameless operation ((names_iff inside).mpr named)
    rw [decode_of_nonneg inside, unknown]
  | @unselected known index named below bad lowest =>
    have read : modes known.arity ((memory.word address.toNat).toNat / 100) =
        .error (digitAt memory address index) := by
      refine modes_eq_error_iff.mpr ⟨index, below, rfl, Mode.ofDigit?_eq_none_iff.mpr bad, ?_⟩
      intro earlier smaller
      rw [Ne, Mode.ofDigit?_eq_none_iff]
      exact Nat.not_lt.mpr (lowest earlier smaller)
    rw [decode_of_nonneg named.inside, (names_iff named.inside).mp named]
    simp only [read]

theorem Undecodable.kind_eq {fault : Fault} (undecodable : Undecodable memory address fault)
    (inRange : Word.InRange (memory.word address.toNat)) :
    fault.kind = if Text.Numeral.isTooLong address then .unwritable
      else if address < 0 then .addressing else .decoding := by
  cases undecodable with
  | outside negative => rw [Fault.kind_of_address (.inl rfl), if_pos negative]
  | unnamed inside => rw [Fault.kind_of_word inRange (.inl rfl), if_neg (Int.not_lt.mpr inside)]
  | unselected named => rw [Fault.kind_of_word inRange (.inr ⟨_, rfl⟩), if_neg (Int.not_lt.mpr named.inside)]

theorem exists_decode_iff : (∃ instruction, decode memory address = .ok instruction) ↔
    ∃ operation, Names memory address operation ∧
      ∀ index < operation.arity, digitAt memory address index ≤ 2 := by
  constructor
  · rintro ⟨instruction, decoded⟩
    have stands := decode_eq_ok_iff.mp decoded
    refine ⟨instruction.operation, (names_iff stands.inside).mpr stands.operation, fun index below => ?_⟩
    obtain ⟨mode, selects, _⟩ := stands.operand index below
    exact Mode.exists_digit_iff.mp ⟨mode, Mode.ofDigit?_eq_some_iff.mp selects⟩
  · rintro ⟨operation, named, selects⟩
    cases decoded : decode memory address with
    | ok instruction => exact ⟨instruction, rfl⟩
    | error fault =>
      cases decode_eq_error_iff.mp decoded with
      | outside negative =>
        have inside := named.inside
        omega
      | unnamed _ nameless => exact (nameless operation named).elim
      | unselected named' below bad =>
        rw [named.unique named'] at below
        exact absurd bad (Nat.not_lt.mpr (selects _ below))

private theorem decode_of_encode {surplus : Nat} (length : selected.length = operation.arity)
    (inside : 0 ≤ address) (holds : memory.word address.toNat = encode operation selected surplus) :
    ∃ instruction, decode memory address = .ok instruction ∧
      instruction.shape = (operation, selected.map some) :=
  ⟨⟨operation, operandsAt memory (address.toNat + 1) selected⟩,
    decode_eq_ok_iff_encode.mpr ⟨inside, selected, surplus, length, holds, rfl⟩, shape_eq rfl⟩

private theorem shape_eq_iff {memory' : Memory} {address' : Int} {instruction' : Instruction}
    (decoded : decode memory address = .ok instruction)
    (decoded' : decode memory' address' = .ok instruction') :
    instruction.shape = instruction'.shape ↔
      memory.word address.toNat % 100 = memory'.word address'.toNat % 100 ∧
      memory.word address.toNat ≡ memory'.word address'.toNat
        [ZMOD 100 * 10 ^ instruction.operation.arity] := by
  obtain ⟨_, selected, surplus, length, made, operands⟩ := decode_eq_ok_iff_encode.mp decoded
  obtain ⟨_, selected', surplus', length', made', operands'⟩ := decode_eq_ok_iff_encode.mp decoded'
  have modes : selected.map some = selected'.map some ↔ selected = selected' :=
    (List.map_injective_iff.mpr fun _ _ => Option.some.inj).eq_iff
  rw [shape_eq operands, shape_eq operands', Prod.mk.injEq, modes, made, made',
    encode_modEq_iff length length']
  norm_cast

/-- Decoding inverts encoding and accepts just the words that an encoding makes. Where it is
accepted, a word has named the operation, and its digits the modes of the operands, whose words
stand behind it. It is refused for the first reason there is, which the report names unless the
address cannot be written. And encoding an operation and its modes, with any number above them,
makes a word that decodes to these again, so that only the digits they take up tell two
instructions' shapes apart. -/
theorem decode_inverts_encode :
    (∀ (memory : Memory) (address : Int),
      ((∃ instruction, decode memory address = .ok instruction) ↔
        ∃ operation, Names memory address operation ∧
          ∀ index < operation.arity, digitAt memory address index ≤ 2) ∧
      (∀ instruction, decode memory address = .ok instruction →
        Names memory address instruction.operation ∧
        instruction.operands.length = instruction.operation.arity ∧
        instruction.size = instruction.operation.arity + 1 ∧
        ∀ index < instruction.operation.arity, ∃ mode, digitAt memory address index = mode.digit ∧
          instruction.operands[index]? =
            some (.ofMode mode (memory.word (address.toNat + 1 + index)))) ∧
      ∀ fault, (decode memory address = .error fault ↔ Undecodable memory address fault) ∧
        (decode memory address = .error fault → Word.InRange (memory.word address.toNat) →
          fault.kind = if Text.Numeral.isTooLong address then .unwritable
            else if address < 0 then .addressing else .decoding)) ∧
    (∀ (operation : Operation) (selected : List Mode) (surplus : Nat),
      selected.length = operation.arity → ∀ (memory : Memory) (address : Int), 0 ≤ address →
      (memory.word address.toNat = encode operation selected surplus →
        ∃ instruction, decode memory address = .ok instruction ∧
          instruction.shape = (operation, selected.map some)) ∧
      (Word.InRange (encode operation selected surplus) →
        ∃ stored, memory.write address (encode operation selected surplus) = .ok stored ∧
          stored.word address.toNat = encode operation selected surplus)) ∧
    ∀ (memory memory' : Memory) (address address' : Int) (instruction instruction' : Instruction),
      decode memory address = .ok instruction → decode memory' address' = .ok instruction' →
      (instruction.shape = instruction'.shape ↔
        memory.word address.toNat % 100 = memory'.word address'.toNat % 100 ∧
        memory.word address.toNat ≡ memory'.word address'.toNat
          [ZMOD 100 * 10 ^ instruction.operation.arity]) := by
  refine ⟨fun memory address => ⟨exists_decode_iff, fun instruction decoded => ?_, fun fault =>
    ⟨decode_eq_error_iff, fun failed => (decode_eq_error_iff.mp failed).kind_eq⟩⟩, ?_,
    fun _ _ _ _ _ _ => shape_eq_iff⟩
  · have stands := decode_eq_ok_iff.mp decoded
    refine ⟨(names_iff stands.inside).mpr stands.operation, stands.length, stands.size_eq, ?_⟩
    intro index below
    obtain ⟨mode, selects, found⟩ := stands.operand index below
    exact ⟨mode, Mode.ofDigit?_eq_some_iff.mp selects, found⟩
  · intro operation selected surplus length memory address inside
    refine ⟨decode_of_encode length inside, fun fits => ?_⟩
    refine ⟨memory.put address.toNat (encode operation selected surplus), ?_, ?_⟩
    · rw [Memory.write_eq, if_pos inside]
    · rw [Memory.word_put, if_pos rfl, Word.wrap_of_inRange fits]

/-- The word of a sum, with and without a number above its digits: both decode alike. Where two
digits are bad, the lower one is reported. -/
theorem decode_inverts_encode_of_sum : ∃ plain raised stored,
    decode (.ofWords [21101, 7, -3, 5]) 0 = .ok plain ∧
    plain.operands[2]? = some (.relative 5) ∧ plain.size = 4 ∧
    Memory.empty.write 6 (encode .add [.immediate, .immediate, .relative] 7) = .ok stored ∧
    stored.word 6 = 721101 ∧
    decode stored 6 = .ok raised ∧ plain.shape = raised.shape ∧
    decode (.ofWords [45001]) 0 = .error (.unknownMode 5 45001 0) ∧
    (Fault.unknownMode 5 45001 0).kind = .decoding := by
  obtain ⟨each, made, alike⟩ := decode_inverts_encode
  have plain : decode (.ofWords [21101, 7, -3, 5]) 0 = .ok _ := rfl
  have bad : decode (.ofWords [45001]) 0 = .error (.unknownMode 5 45001 0) := rfl
  obtain ⟨_, _, size, operands⟩ := (each _ 0).2.1 _ plain
  obtain ⟨mode, selects, third⟩ := operands 2 (by decide)
  have relative : mode = .relative := Mode.digit_injective selects.symm
  rw [relative] at third
  obtain ⟨stored, written, holds⟩ :=
    (made .add [.immediate, .immediate, .relative] 7 rfl .empty 6 (by decide)).2 (by decide)
  obtain ⟨raised, decoded, shape⟩ := (made .add _ 7 rfl stored 6 (by decide)).1 holds
  refine ⟨_, raised, stored, plain, third, size, written, holds, decoded, ?_, bad, ?_⟩
  · refine (alike _ _ _ _ _ _ plain decoded).mpr ⟨?_, ?_⟩
    · rw [holds]
      rfl
    · rw [holds]
      rfl
  · exact (((each _ 0).2.2 _).2 bad (by decide)).trans (by decide +kernel)

/-- An address below zero that is too long for a report: nothing is decoded there, but the report
says neither that nor why. -/
theorem decode_beyond_report : ∃ fault,
    decode .empty (-10 ^ Text.Numeral.maxDigits) = .error fault ∧ fault.kind = .unwritable :=
  ⟨_, decode_of_negative (Text.Numeral.neg_power_neg _), Fault.kind_of_neg_power⟩

end Instruction
end Intcode
