import Mathlib.Data.List.Sort
import Intcode.Proofs.LastWrite
import Intcode.Proofs.LongNumbers
import Intcode.Proofs.Passages
import Intcode.Proofs.Patching
import Intcode.Proofs.Resemblance
import Intcode.Proofs.Scanning
import Intcode.Proofs.WordRange

/-! The record of a machine is read back, line by line. So two machines are recorded alike only if they
agree in all that the record shows, which is everything but the limit, the trace and the written zeros.
A record is cut short by a number that is too long: one above the cells, or else the first address of a
cell that is. -/

namespace Intcode

open Text (Scanner pieces)
open Text.Numeral (isTooLong)
open Text.Scanner

theorem Listing.mem_takeWhile {α : Type} {holds : α → Bool} {items : List α}
    (falling : items.Pairwise fun first second => holds second = true → holds first = true) {item : α} :
    item ∈ items.takeWhile holds ↔ item ∈ items ∧ holds item = true := by
  refine ⟨fun taken => ⟨List.takeWhile_subset _ taken, List.mem_takeWhile_imp taken⟩, ?_⟩
  rintro ⟨member, held⟩
  induction items with
  | nil => cases member
  | cons first rest ih =>
    obtain ⟨before, falling⟩ := List.pairwise_cons.mp falling
    rcases List.mem_cons.mp member with rfl | later
    · rw [List.takeWhile_cons_of_pos held]
      exact List.mem_cons_self
    · rw [List.takeWhile_cons_of_pos (before item later held)]
      exact List.mem_cons_of_mem first (ih falling later)

namespace Machine

/-- What the record of a machine tells. -/
structure Recorded where
  pc : Int
  relativeBase : Int
  steps : Nat
  suspension : Option Suspension
  cells : List (Nat × Int)
deriving DecidableEq, Repr

def recorded (machine : Machine) : Recorded where
  pc := machine.pc
  relativeBase := machine.relativeBase
  steps := machine.steps
  suspension := machine.suspension
  cells := machine.memory.nonzero

/-- The machines agree in all that a record is meant to show. -/
structure Coincide (left right : Machine) : Prop where
  pc : left.pc = right.pc
  relativeBase : left.relativeBase = right.relativeBase
  steps : left.steps = right.steps
  suspension : left.suspension = right.suspension
  read : ∀ address, left.memory.read address = right.memory.read address

/-- No number above the cells is too long. -/
structure Headed (machine : Machine) : Prop where
  pc : isTooLong machine.pc = false
  relativeBase : isTooLong machine.relativeBase = false
  steps : isTooLong machine.steps = false
  suspension : ∀ number ∈ machine.suspension.bind Suspension.number?, isTooLong number = false

/-- No number in the record is too long, if the cells hold words. -/
structure Recordable (machine : Machine) : Prop where
  headed : machine.Headed
  near : ∀ cell : Nat, machine.memory.word cell ≠ 0 → isTooLong cell = false

section Lines

def registersChars (machine : Machine) : List Char :=
  ("pc: " ++ toString machine.pc ++ "  relative_base: " ++ toString machine.relativeBase ++
    "  steps: " ++ toString machine.steps).toList

def suspensionChars (machine : Machine) : List Char := ("state: " ++ suspensionText machine.suspension).toList

def entryChars (entry : Nat × Int) : List Char := (padded 8 entry.1 ++ ": " ++ toString entry.2).toList

def entryPassage (entry : Nat × Int) : Passage := cellLine entry.1 entry.2

def scanRegisters : Scanner (Int × Int × Nat) := do
  let pc ← labelled "pc: "
  let relativeBase ← labelled "  relative_base: "
  passing "  steps: "
  let steps ← natural
  return (pc, relativeBase, steps)

def scanSuspension : Scanner (Option Suspension) := do
  passing "state: "
  (fun address => some (.awaitingInput address)) <$> enclosed "AwaitingInput(address=" ")" <|>
    (fun value => some (.producedOutput value)) <$> enclosed "ProducedOutput(value=" ")" <|>
    (fun _ => some .complete) <$> passing "Complete()" <|> (fun _ => none) <$> passing "None"

def scanEntry : Scanner (Nat × Int) := do
  let cell ← natural
  let word ← labelled ": "
  return (cell, word)

/-- The lines between the first two empty ones. -/
def entryLines (text : String) : List (List Char) := ((pieces '\n' text.toList).drop 4).takeWhile (· ≠ [])

/-- The cells of a record, with their words. -/
def entries? (text : String) : Option (List (Nat × Int)) := (entryLines text).mapM scanEntry.whole

def Recorded.ofText? (text : String) : Option Recorded := do
  let (pc, relativeBase, steps) ← scanRegisters.whole (← (pieces '\n' text.toList)[1]?)
  let suspension ← scanSuspension.whole (← (pieces '\n' text.toList)[2]?)
  return { pc, relativeBase, steps, suspension, cells := ← entries? text }

end Lines

section Writing

variable {c : Char}

theorem toList_natural (number : Nat) : (toString number).toList = Nat.toDigits 10 number := by
  rw [Nat.toString_eq_repr, Nat.toList_repr]

private theorem mem_padded {width number : Nat} (member : c ∈ (padded width number).toList) : c.isDigit = true := by
  rw [padded, String.toList_append, List.mem_append, String.toList_ofList] at member
  rcases member with zero | digit
  · rw [List.eq_of_mem_replicate zero]
    rfl
  · rw [toList_natural] at digit
    exact Text.Numeral.digit_of_mem digit

theorem free_toString (number : Int) : '\n' ∉ (toString number).toList :=
  Text.Numeral.not_mem_toString (by decide) number

private theorem free_registersChars (machine : Machine) : '\n' ∉ machine.registersChars := by
  have steps : '\n' ∉ (toString machine.steps).toList := by
    rw [toList_natural]
    exact fun member => Bool.noConfusion (Text.Numeral.digit_of_mem member)
  unfold registersChars
  simp only [String.toList_append, List.mem_append, not_or]
  refine ⟨⟨⟨⟨⟨?_, free_toString _⟩, ?_⟩, free_toString _⟩, ?_⟩, steps⟩ <;> decide

private theorem free_suspensionChars (machine : Machine) : '\n' ∉ machine.suspensionChars := by
  have described : '\n' ∉ (suspensionText machine.suspension).toList := by
    match machine.suspension with
    | none | some .complete => decide
    | some (.awaitingInput address) => exact Text.Numeral.not_mem_between (by decide) (by decide) (by decide) address
    | some (.producedOutput value) => exact Text.Numeral.not_mem_between (by decide) (by decide) (by decide) value
  unfold suspensionChars
  rw [String.toList_append, List.mem_append, not_or]
  exact ⟨by decide, described⟩

private theorem free_entryChars (entry : Nat × Int) : '\n' ∉ entryChars entry := by
  have cell : '\n' ∉ (padded 8 entry.1).toList := by
    intro member
    cases mem_padded member
  unfold entryChars
  simp only [String.toList_append, List.mem_append, not_or]
  exact ⟨⟨cell, by decide⟩, free_toString entry.2⟩

theorem title_madeOf : title.MadeOf ["=== MEMORY DUMP ===".toList] := ⟨by decide, by decide⟩

theorem closing_madeOf : closing.MadeOf [[], "=== END DUMP ===".toList] := ⟨by decide, by decide⟩

theorem registersLine_madeOf (machine : Machine) : machine.registersLine.MadeOf [machine.registersChars] where
  text := by
    unfold registersLine registersChars
    rw [String.toList_append, List.flatMap_singleton]
    rfl
  free := by simpa using machine.free_registersChars

theorem suspensionLine_madeOf (machine : Machine) : machine.suspensionLine.MadeOf [machine.suspensionChars, []] where
  text := by
    have parted : "\n\n".toList = ['\n', '\n'] := rfl
    unfold suspensionLine suspensionChars
    rw [String.toList_append, parted]
    simp only [List.flatMap_cons, List.flatMap_nil, List.nil_append, List.append_assoc, List.append_nil,
      List.cons_append]
  free := by simpa using machine.free_suspensionChars

theorem entryPassage_madeOf (entry : Nat × Int) : (entryPassage entry).MadeOf [entryChars entry] where
  text := by
    unfold entryPassage cellLine entryChars
    rw [String.toList_append, List.flatMap_singleton]
    rfl
  free := by simpa using free_entryChars entry

theorem cellLines_eq (memory : Memory) : cellLines memory = memory.nonzero.map entryPassage := by
  rw [cellLines, Memory.filterMap_toList fun _ zero => if_pos zero, ← List.filterMap_eq_map']
  exact List.filterMap_congr fun _ member => if_neg (Memory.mem_nonzero.mp member).2

theorem passages_cases {machine : Machine} {passage : Passage} (member : passage ∈ machine.passages) :
    passage = title ∨ passage = machine.registersLine ∨ passage = machine.suspensionLine ∨
      (∃ entry, passage = entryPassage entry) ∨ passage = closing := by
  simp only [passages, heading, cellLines_eq, List.mem_append, List.mem_cons, List.mem_map, List.not_mem_nil,
    or_false] at member
  rcases member with (title | registers | suspension) | ⟨entry, -, rfl⟩ | closing
  · exact .inl title
  · exact .inr (.inl registers)
  · exact .inr (.inr (.inl suspension))
  · exact .inr (.inr (.inr (.inl ⟨entry, rfl⟩)))
  · exact .inr (.inr (.inr (.inr closing)))

theorem pieces_dump (machine : Machine) : pieces '\n' machine.dump.toList =
    (machine.passages.takeWhile Passage.isWritable).flatMap Passage.lines ++ [[]] := by
  refine Passage.pieces_written fun passage member => ?_
  rcases passages_cases member with rfl | rfl | rfl | ⟨entry, rfl⟩ | rfl
  · exact title_madeOf.self
  · exact machine.registersLine_madeOf.self
  · exact machine.suspensionLine_madeOf.self
  · exact (entryPassage_madeOf entry).self
  · exact closing_madeOf.self

end Writing

section Reading

variable {machine : Machine} {rest : List Char}

private theorem natural_padded_append (width number : Nat) (stops : Stops rest) :
    natural ((padded width number).toList ++ rest) = some (number, rest) := by
  have nonempty : (padded width number).toList ≠ [] := by
    rw [padded, String.toList_append, toList_natural]
    exact List.append_ne_nil_of_right_ne_nil _ Nat.toDigits_ne_nil
  have value : Nat.ofDigitChars 10 (padded width number).toList 0 = number := by
    rw [padded, String.toList_append, String.toList_ofList, toList_natural, Nat.ofDigitChars_append,
      Nat.ofDigitChars_replicate_zero, Nat.mul_zero, Nat.ofDigitChars_toDigits (by decide) (by decide)]
  rw [natural_append (fun c => mem_padded) nonempty stops, value]

private theorem whole_registersChars (machine : Machine) :
    scanRegisters.whole machine.registersChars = some (machine.pc, machine.relativeBase, machine.steps) := by
  have line : machine.registersChars = "pc: ".toList ++ ((toString machine.pc).toList ++ ("  relative_base: ".toList ++
      ((toString machine.relativeBase).toList ++ ("  steps: ".toList ++ (Nat.toDigits 10 machine.steps ++ []))))) := by
    unfold registersChars
    simp only [String.toList_append, toList_natural, List.append_assoc, List.append_nil]
  have based (rest : List Char) : Stops ("  relative_base: ".toList ++ rest) := stops_cons rfl
  have counted (rest : List Char) : Stops ("  steps: ".toList ++ rest) := stops_cons rfl
  apply whole_of_some
  rw [line, scanRegisters, bind_of_some (labelled_append "pc: " machine.pc (based _)),
    bind_of_some (labelled_append "  relative_base: " machine.relativeBase (counted _)),
    bind_of_some (passing_append "  steps: " _), bind_of_some (natural_toDigits_append machine.steps stops_nil)]
  rfl

private theorem whole_suspensionChars (machine : Machine) :
    scanSuspension.whole machine.suspensionChars = some machine.suspension := by
  unfold suspensionChars
  rw [String.toList_append]
  apply whole_of_some
  rw [scanSuspension, bind_of_some (passing_append "state: " _)]
  match machine.suspension with
  | none | some .complete => decide
  | some (.awaitingInput address) =>
    exact orElse_of_some (map_of_some _ (whole_enclosed address (stops_cons rfl)))
  | some (.producedOutput value) =>
    have missing : enclosed "AwaitingInput(address=" ")" ("ProducedOutput(value=" ++ toString value ++ ")").toList =
        none := by
      rw [String.toList_append, String.toList_append]
      exact enclosed_of_other [] rfl (by decide)
    exact (orElse_of_none (map_of_none _ missing)).trans
      (orElse_of_some (map_of_some _ (whole_enclosed value (stops_cons rfl))))

theorem whole_entryChars (entry : Nat × Int) : scanEntry.whole (entryChars entry) = some entry := by
  have line : entryChars entry = (padded 8 entry.1).toList ++ (": ".toList ++ ((toString entry.2).toList ++ [])) := by
    unfold entryChars
    simp only [String.toList_append, List.append_assoc, List.append_nil]
  have parted (rest : List Char) : Stops (": ".toList ++ rest) := stops_cons rfl
  apply whole_of_some
  rw [line, scanEntry, bind_of_some (natural_padded_append 8 entry.1 (parted _)),
    bind_of_some (labelled_append ": " entry.2 stops_nil)]
  rfl

theorem headed_iff : machine.Headed ↔ ∀ passage ∈ machine.heading, passage.isWritable = true := by
  constructor
  · rintro ⟨pc, relativeBase, steps, suspension⟩
    simpa [heading, title, registersLine, suspensionLine, Passage.isWritable, pc, relativeBase, steps] using suspension
  · intro writable
    simp only [heading, title, registersLine, suspensionLine, Passage.isWritable, List.forall_mem_cons,
      List.any_cons, List.any_nil, Bool.or_false, Bool.not_eq_true', Bool.or_eq_false_iff] at writable
    obtain ⟨-, ⟨pc, relativeBase, steps⟩, suspension, -⟩ := writable
    refine ⟨pc, relativeBase, steps, fun number member => ?_⟩
    simpa using List.any_eq_false.mp suspension number (Option.mem_toList.mpr member)

/-- The cells that a record gets to, unless it ends above them. -/
def shown (memory : Memory) : List (Nat × Int) :=
  memory.nonzero.takeWhile (Passage.isWritable ∘ entryPassage)

/-- Behind the cells that it gets to, a record ends or is closed. -/
theorem takeWhile_of_headed (headed : machine.Headed) :
    ∃ tail, (tail = [] ∨ tail = [closing]) ∧ machine.passages.takeWhile Passage.isWritable =
      machine.heading ++ ((shown machine.memory).map entryPassage ++ tail) := by
  have kept : (cellLines machine.memory).takeWhile Passage.isWritable =
      (shown machine.memory).map entryPassage := by
    rw [cellLines_eq, List.takeWhile_map, shown]
  rw [passages, List.takeWhile_append_of_pos (headed_iff.mp headed), List.takeWhile_append, ← kept]
  split
  next all =>
    have same := (List.takeWhile_prefix Passage.isWritable).eq_of_length all
    exact ⟨[closing], .inr rfl, by rw [same]; rfl⟩
  next => exact ⟨[], .inl rfl, by rw [List.append_nil]⟩

private theorem takeWhile_of_unheaded (unheaded : ¬ machine.Headed) :
    machine.passages.takeWhile Passage.isWritable = [title] ∨
      machine.passages.takeWhile Passage.isWritable = [title, machine.registersLine] := by
  have first : title.isWritable = true := rfl
  rw [headed_iff] at unheaded
  rw [heading, List.forall_mem_cons, List.forall_mem_cons, List.forall_mem_singleton] at unheaded
  rw [passages, heading, List.cons_append, List.takeWhile_cons_of_pos first]
  cases registers : machine.registersLine.isWritable with
  | false => exact .inl (by rw [List.cons_append, List.takeWhile_cons_of_neg (by simp [registers])])
  | true =>
    have suspension : ¬ machine.suspensionLine.isWritable = true := fun writable =>
      unheaded ⟨first, registers, writable⟩
    rw [List.cons_append, List.takeWhile_cons_of_pos registers, List.cons_append,
      List.takeWhile_cons_of_neg suspension]
    exact .inr rfl

private theorem flatMap_heading (machine : Machine) : machine.heading.flatMap Passage.lines =
    ["=== MEMORY DUMP ===".toList, machine.registersChars, machine.suspensionChars, []] := by
  simp only [heading, List.flatMap_cons, List.flatMap_nil, title_madeOf.lines_eq,
    machine.registersLine_madeOf.lines_eq, machine.suspensionLine_madeOf.lines_eq]
  rfl

private theorem flatMap_cellLines (entries : List (Nat × Int)) :
    (entries.map entryPassage).flatMap Passage.lines = entries.map entryChars := by
  rw [List.flatMap_map, List.map_eq_flatMap]
  exact List.flatMap_congr fun entry _ => (entryPassage_madeOf entry).lines_eq

theorem pieces_of_headed (headed : machine.Headed) : ∃ tail, pieces '\n' machine.dump.toList =
    "=== MEMORY DUMP ===".toList :: machine.registersChars :: machine.suspensionChars :: [] ::
      ((shown machine.memory).map entryChars ++ [] :: tail) := by
  obtain ⟨tail, ends, taken⟩ := takeWhile_of_headed headed
  rw [pieces_dump, taken, List.flatMap_append, List.flatMap_append, flatMap_heading, flatMap_cellLines]
  rcases ends with rfl | rfl
  · exact ⟨[], by simp⟩
  · refine ⟨["=== END DUMP ===".toList, []], ?_⟩
    simp only [List.flatMap_singleton, closing_madeOf.lines_eq, List.cons_append, List.append_assoc, List.nil_append]

theorem entries?_of_headed (headed : machine.Headed) : entries? machine.dump = some (shown machine.memory) := by
  have nonempty : ∀ line ∈ (shown machine.memory).map entryChars, decide (line ≠ []) = true := by
    refine List.forall_mem_map.mpr fun entry _ => decide_eq_true ?_
    intro empty
    have read := whole_entryChars entry
    rw [empty] at read
    cases read
  obtain ⟨tail, cut⟩ := pieces_of_headed headed
  have lines : entryLines machine.dump = (shown machine.memory).map entryChars := by
    rw [entryLines, cut]
    simp only [List.drop_succ_cons, List.drop_zero]
    rw [List.takeWhile_append_of_pos nonempty, List.takeWhile_cons_of_neg (by simp), List.append_nil]
  have read : scanEntry.whole ∘ entryChars = some := funext whole_entryChars
  have all := List.mapM_pure (m := Option) (f := id) (l := shown machine.memory)
  rw [List.map_id] at all
  rw [entries?, lines, List.mapM_map, read]
  exact all

private theorem entries?_of_unheaded (unheaded : ¬ machine.Headed) : entries? machine.dump = some [] := by
  have lines : entryLines machine.dump = [] := by
    rw [entryLines, pieces_dump]
    rcases takeWhile_of_unheaded unheaded with taken | taken
    · rw [taken, List.flatMap_singleton, title_madeOf.lines_eq]
      rfl
    · rw [taken]
      simp only [List.flatMap_cons, List.flatMap_nil, title_madeOf.lines_eq, machine.registersLine_madeOf.lines_eq]
      rfl
  rw [entries?, lines]
  rfl

end Reading

section Closing

variable {machine left right : Machine}

theorem dumped_eq_ok_iff : machine.dumped = .ok () ↔
    machine.Headed ∧ ∀ entry ∈ machine.memory.nonzero, (entryPassage entry).isWritable = true := by
  have closes : closing.isWritable = true := rfl
  rw [dumped, Passage.outcome_eq_ok_iff, headed_iff, passages, cellLines_eq, List.forall_mem_append,
    List.forall_mem_append, List.forall_mem_map, List.forall_mem_singleton]
  simp only [closes, and_true]

theorem shown_of_whole (whole : machine.dumped = .ok ()) : shown machine.memory = machine.memory.nonzero := by
  rw [shown, List.takeWhile_eq_self_iff]
  intro entry member
  rw [Function.comp_apply]
  exact (dumped_eq_ok_iff.mp whole).2 entry member

private theorem ofText?_of_whole (whole : machine.dumped = .ok ()) :
    Recorded.ofText? machine.dump = some machine.recorded := by
  have headed := (dumped_eq_ok_iff.mp whole).1
  obtain ⟨tail, cut⟩ := pieces_of_headed headed
  rw [Recorded.ofText?, entries?_of_headed headed, cut, shown_of_whole whole]
  simp only [List.getElem?_cons_succ, List.getElem?_cons_zero, whole_registersChars, whole_suspensionChars,
    Option.bind_eq_bind, Option.bind_some]
  rfl

private theorem closing_not_mem {passage : Passage} (member : passage ∈ machine.heading ++ cellLines machine.memory) :
    "=== END DUMP ===".toList ∉ passage.lines := by
  have other {α : Type} {scan : Scanner α} {line : List Char} {told : α} (read : scan.whole line = some told)
      (unread : scan.whole "=== END DUMP ===".toList = none) : "=== END DUMP ===".toList ≠ line := by
    rintro rfl
    rw [read] at unread
    cases unread
  simp only [heading, cellLines_eq, List.mem_append, List.mem_cons, List.mem_map, List.not_mem_nil,
    or_false] at member
  rcases member with (rfl | rfl | rfl) | ⟨entry, -, rfl⟩
  · rw [title_madeOf.lines_eq]
    decide
  · rw [machine.registersLine_madeOf.lines_eq, List.mem_singleton]
    exact other machine.whole_registersChars (by decide)
  · have filled : "=== END DUMP ===".toList ≠ [] := by decide
    rw [machine.suspensionLine_madeOf.lines_eq, List.mem_cons, List.mem_singleton, not_or]
    exact ⟨other machine.whole_suspensionChars (by decide), filled⟩
  · rw [(entryPassage_madeOf entry).lines_eq, List.mem_singleton]
    exact other (whole_entryChars entry) (by decide)

theorem closing_mem_iff : "=== END DUMP ===".toList ∈ pieces '\n' machine.dump.toList ↔ machine.dumped = .ok () := by
  have closes : closing.isWritable = true := rfl
  have apart : machine.passages = (machine.heading ++ cellLines machine.memory) ++ [closing] :=
    (List.append_assoc _ _ _).symm
  rw [pieces_dump, dumped, Passage.outcome_eq_ok_iff]
  constructor
  · intro found
    rw [List.mem_append, List.mem_singleton] at found
    obtain ⟨passage, taken, found⟩ := List.mem_flatMap.mp (found.resolve_right (by decide))
    rw [apart, List.takeWhile_append] at taken
    split at taken
    next all =>
      have same := (List.takeWhile_prefix Passage.isWritable).eq_of_length all
      rw [apart, List.forall_mem_append, List.forall_mem_singleton]
      exact ⟨List.takeWhile_eq_self_iff.mp same, closes⟩
    next => exact (closing_not_mem (List.takeWhile_subset _ taken) found).elim
  · intro writable
    have last : "=== END DUMP ===".toList ∈ closing.lines := by
      rw [closing_madeOf.lines_eq]
      exact List.mem_cons_of_mem _ List.mem_cons_self
    rw [List.takeWhile_eq_self_iff.mpr writable, apart]
    exact List.mem_append_left _ (List.mem_flatMap.mpr
      ⟨closing, List.mem_append_right _ (List.mem_singleton.mpr rfl), last⟩)

end Closing

section Restoring

variable {left right : Machine} {memory other : Memory}

private theorem nonzero_eq_iff : memory.nonzero = other.nonzero ↔ ∀ cell, memory.word cell = other.word cell := by
  constructor
  · intro same cell
    have listed (word : Int) : word = memory.word cell ∧ word ≠ 0 ↔ word = other.word cell ∧ word ≠ 0 := by
      rw [← Memory.mem_nonzero, ← Memory.mem_nonzero, same]
    by_cases zero : memory.word cell = 0
    · by_contra differs
      have held : other.word cell ≠ 0 := fun zero' => differs (zero.trans zero'.symm)
      exact differs ((listed _).mpr ⟨rfl, held⟩).1.symm
    · exact ((listed _).mp ⟨rfl, zero⟩).1
  · exact Memory.nonzero_eq

theorem read_eq_iff :
    (∀ address, memory.read address = other.read address) ↔ ∀ cell, memory.word cell = other.word cell := by
  constructor
  · intro same cell
    have here := same cell
    rw [Memory.read_eq, Memory.read_eq, if_pos (Int.natCast_nonneg cell), if_pos (Int.natCast_nonneg cell)] at here
    exact Except.ok.inj here
  · intro same address
    rw [Memory.read_eq, Memory.read_eq, same]

theorem Coincide.passages (coincide : Coincide left right) : left.passages = right.passages := by
  have alike : Resembles left { right with stepLimit := left.stepLimit } :=
    ⟨fun cell => (read_eq_iff.mp coincide.read cell).symm, coincide.pc.symm, coincide.relativeBase.symm,
      coincide.suspension.symm, coincide.steps.symm, rfl⟩
  exact alike.passages.symm

private theorem dump_eq_iff (whole : left.dumped = .ok ()) : left.dump = right.dump ↔ Coincide left right := by
  constructor
  · intro same
    have other := whole
    rw [← closing_mem_iff, same, closing_mem_iff] at other
    have read := ofText?_of_whole whole
    rw [same, ofText?_of_whole other] at read
    obtain ⟨pc, relativeBase, steps, suspension, cells⟩ := Recorded.mk.inj (Option.some.inj read)
    exact ⟨pc.symm, relativeBase.symm, steps.symm, suspension.symm, read_eq_iff.mpr (nonzero_eq_iff.mp cells.symm)⟩
  · intro coincide
    rw [dump, coincide.passages, dump]

theorem writable_iff (inRange : memory.InRange) {entry : Nat × Int} (member : entry ∈ memory.nonzero) :
    (entryPassage entry).isWritable = true ↔ isTooLong entry.1 = false := by
  have word : isTooLong entry.2 = false := by
    rw [(Memory.mem_nonzero.mp member).1]
    exact Text.Numeral.short_of_inRange (inRange entry.1)
  rw [entryPassage, cellLine, Passage.isWritable_iff, List.forall_mem_cons, List.forall_mem_singleton,
    and_iff_left word]

/-- Of the words in range, the record gets to those at addresses that can be written. -/
theorem mem_shown_iff (inRange : memory.InRange) {cell : Nat} {word : Int} :
    (cell, word) ∈ shown memory ↔ isTooLong cell = false ∧ word = memory.word cell ∧ word ≠ 0 := by
  have falling : memory.nonzero.Pairwise fun first second =>
      (Passage.isWritable ∘ entryPassage) second = true → (Passage.isWritable ∘ entryPassage) first = true := by
    refine memory.nonzero_ascending.imp_of_mem fun {first second} before after ascending => ?_
    rw [Function.comp_apply, Function.comp_apply, writable_iff inRange before, writable_iff inRange after]
    contrapose!
    rw [Bool.ne_false_iff, Bool.ne_false_iff]
    exact Text.Numeral.isTooLong_of_le (Int.natCast_nonneg _) (Int.ofNat_le.mpr (Nat.le_of_lt ascending))
  rw [shown, Listing.mem_takeWhile falling, ← Memory.mem_nonzero, Function.comp_apply, and_comm]
  exact and_congr_left fun member => writable_iff inRange member

theorem shown_ascending (memory : Memory) : (shown memory).Pairwise fun first second => first.1 < second.1 :=
  memory.nonzero_ascending.sublist (List.takeWhile_sublist _)

private theorem shown_eq (inRange : memory.InRange) (inRange' : other.InRange)
    (same : ∀ cell : Nat, isTooLong cell = false → memory.word cell = other.word cell) :
    shown memory = shown other := by
  have irrefl : Std.Irrefl fun first second : Nat × Int => first.1 < second.1 := ⟨fun _ => Nat.lt_irrefl _⟩
  have antisymm : Std.Antisymm fun first second : Nat × Int => first.1 < second.1 :=
    ⟨fun _ _ before after => (Nat.lt_asymm before after).elim⟩
  refine (shown_ascending memory).eq_of_mem_iff (shown_ascending other) fun (cell, word) => ?_
  rw [mem_shown_iff inRange, mem_shown_iff inRange']
  exact and_congr_right fun near => by rw [same cell near]

private theorem dumped_eq_ok_iff_recordable {machine : Machine} (inRange : machine.memory.InRange) :
    machine.dumped = .ok () ↔ machine.Recordable := by
  rw [dumped_eq_ok_iff]
  constructor
  · rintro ⟨headed, writable⟩
    refine ⟨headed, fun cell held => ?_⟩
    have member : (cell, machine.memory.word cell) ∈ machine.memory.nonzero := Memory.mem_nonzero.mpr ⟨rfl, held⟩
    exact (writable_iff inRange member).mp (writable _ member)
  · rintro ⟨headed, near⟩
    refine ⟨headed, fun entry member => (writable_iff inRange member).mpr (near _ ?_)⟩
    obtain ⟨same, held⟩ := Memory.mem_nonzero.mp member
    rwa [← same]

/-- Records that fail below the same heading are cut short alike, whatever the cells that they do not get to. -/
theorem dump_eq_of_cut (headed : left.Headed) (heading : left.heading = right.heading)
    (cut : left.dumped ≠ .ok ()) (cut' : right.dumped ≠ .ok ())
    (same : shown left.memory = shown right.memory) : left.dump = right.dump := by
  have open' {machine : Machine} (headed : machine.Headed) (cut : machine.dumped ≠ .ok ()) :
      machine.passages.takeWhile Passage.isWritable = machine.heading ++ (shown machine.memory).map entryPassage := by
    obtain ⟨tail, ends | ends, taken⟩ := takeWhile_of_headed headed
    · rw [taken, ends, List.append_nil]
    · refine (cut (closing_mem_iff.mp ?_)).elim
      rw [pieces_dump, taken, ends]
      simp [closing_madeOf.lines_eq]
  have headed' : right.Headed := by
    rw [headed_iff, heading] at headed
    exact headed_iff.mpr headed
  rw [dump, dump, Passage.written, Passage.written, open' headed cut, open' headed' cut', heading, same]

def restoring (cells : List (Nat × Int)) : List Memory.Request := cells.map fun (cell, word) => .set cell word

private theorem mem_stored {cells : List (Nat × Int)} {cell : Nat} {word : Int} :
    word ∈ Memory.stored (restoring cells) cell ↔ (cell, word) ∈ cells := by
  rw [Memory.stored, restoring, List.filterMap_map, List.mem_filterMap]
  constructor
  · intro found
    obtain ⟨entry, member, stores⟩ := found
    obtain ⟨same, value⟩ := Option.ite_none_right_eq_some.mp stores
    cases value
    rwa [← Int.natCast_inj.mp same]
  · intro member
    exact ⟨_, member, if_pos rfl⟩

theorem word_restored (inRange : memory.InRange) {cells : List (Nat × Int)} {cell : Nat}
    (told : ∀ word, (cell, word) ∈ cells ↔ word = memory.word cell ∧ word ≠ 0) :
    (Memory.after [] (restoring cells)).word cell = memory.word cell := by
  have latest : (Memory.stored (restoring cells) cell).getLastD 0 = memory.word cell := by
    rw [List.getLastD_eq_getLast?]
    cases last : (Memory.stored (restoring cells) cell).getLast? with
    | some word =>
      have member := mem_stored.mp (List.mem_of_getLast? last)
      exact ((told word).mp member).1
    | none =>
      by_contra held
      have member : (cell, memory.word cell) ∈ cells := (told _).mpr ⟨rfl, Ne.symm held⟩
      rw [← mem_stored, List.getLast?_eq_none_iff.mp last] at member
      cases member
  rw [Memory.word_after, Memory.held, List.getD_nil, latest, Word.wrap_of_inRange (inRange cell)]

end Restoring

/-- The record of a machine shows all that can be observed of it, as long as it can be written. A record
that is written whole is that of another machine if and only if they agree in their registers, in where they
stopped and in every word; and of a machine with any history, its lines list the cells that do not hold zero,
from which the memory is restored. A record fails exactly for a number that is too long: it still tells the
cells that have a shorter address, unless the number is above them. -/
theorem dump_loses_nothing :
    (∀ left right : Machine, (Coincide left right → left.dump = right.dump ∧ left.dumped = right.dumped) ∧
      (left.dumped = .ok () → (left.dump = right.dump ↔ Coincide left right))) ∧
    ∀ words trace limit actions observations session,
      Session.History (.load words trace limit) actions observations session →
      (session.machine.dumped = .ok () ↔ session.machine.Recordable) ∧
      (session.machine.dumped = .ok () → ∃ cells, entries? session.machine.dump = some cells ∧
        (cells.Pairwise fun first second => first.1 < second.1) ∧
        (∀ cell word, (cell, word) ∈ cells ↔ word = session.machine.memory.word cell ∧ word ≠ 0) ∧
        ∀ address, (Memory.after [] (restoring cells)).read address = session.machine.memory.read address) ∧
      (session.machine.dumped ≠ .ok () →
        (∃ fault, session.machine.dumped = .error fault ∧ fault.kind = .unwritable) ∧
        ∃ cells, entries? session.machine.dump = some cells ∧
          (cells.Pairwise fun first second => first.1 < second.1) ∧
          ∀ cell word, (cell, word) ∈ cells ↔ session.machine.Headed ∧ isTooLong cell = false ∧
            word = session.machine.memory.word cell ∧ word ≠ 0) := by
  refine ⟨fun left right => ⟨fun coincide => ?_, dump_eq_iff⟩, ?_⟩
  · rw [dump, dumped, coincide.passages]
    exact ⟨rfl, rfl⟩
  · intro words trace limit actions observations session history
    have inRange := history.inRange.1
    have recordable := dumped_eq_ok_iff_recordable inRange
    refine ⟨recordable, fun whole => ?_, fun failed => ⟨?_, ?_⟩⟩
    · have headed := (recordable.mp whole).headed
      have listed := shown_of_whole whole
      refine ⟨_, entries?_of_headed headed, shown_ascending _, fun cell word => ?_, read_eq_iff.mpr fun cell => ?_⟩
      · rw [listed, Memory.mem_nonzero]
      · refine word_restored inRange fun word => ?_
        rw [listed, Memory.mem_nonzero]
    · exact ⟨_, Passage.outcome_of_failure failed, rfl⟩
    · by_cases headed : session.machine.Headed
      · refine ⟨_, entries?_of_headed headed, shown_ascending _, fun cell word => ?_⟩
        rw [mem_shown_iff inRange]
        exact (and_iff_right headed).symm
      · exact ⟨[], entries?_of_unheaded headed, .nil, fun cell word => by simp [headed]⟩

/-- A machine awaits input, and its host has stored a zero and a word far beyond the program. -/
theorem dump_loses_nothing_of_far_word : ∃ observations session,
    Session.History (.load [3, 4, 99] false none)
      [.resume none, .access (.store 0 0), .access (.store 1234567890 (-7))] observations session ∧
    session.machine.dumped = .ok () ∧
    entries? session.machine.dump = some [(1, 4), (2, 99), (1234567890, -7)] ∧
    (∀ address, (Memory.after [] (restoring [(1, 4), (2, 99), (1234567890, -7)])).read address =
      session.machine.memory.read address) ∧
    session.machine.dump ≠ (load [3, 4, 99] false none).dump := by
  obtain ⟨observations, session, history, stands, whole⟩ : ∃ observations session,
      Session.History (.load [3, 4, 99] false none)
        [.resume none, .access (.store 0 0), .access (.store 1234567890 (-7))] observations session ∧
      session.machine.recorded = ⟨2, 0, 1, some (.awaitingInput 4), [(1, 4), (2, 99), (1234567890, -7)]⟩ ∧
      session.machine.dumped = .ok () :=
    ⟨_, _, .next ⟨9, rfl⟩ (.next ⟨9, rfl⟩ (.next ⟨9, rfl⟩ .start)), by decide +kernel⟩
  obtain ⟨pc, -, -, -, cells⟩ := Recorded.mk.inj stands
  obtain ⟨alike, told⟩ := dump_loses_nothing
  obtain ⟨entries, listed, -, -, restored⟩ := (told _ _ _ _ _ _ history).2.1 whole
  have shown : some entries = some [(1, 4), (2, 99), (1234567890, -7)] := by
    rw [← listed, entries?_of_headed (dumped_eq_ok_iff.mp whole).1, shown_of_whole whole, cells]
  cases shown
  refine ⟨_, _, history, whole, listed, restored, fun same => ?_⟩
  have unmoved := (((alike _ _).2 whole).mp same).pc
  rw [pc] at unmoved
  cases unmoved

private theorem cut_of_far_word {session : Session} (inRange : session.machine.memory.InRange) {cell : Nat}
    (far : isTooLong cell = true) {word : Int} (held : Word.wrap word ≠ 0) :
    (session.stored cell word).machine.dumped ≠ .ok () := by
  have stays : (session.stored cell word).machine.memory.InRange := inRange.put cell word
  have there : (session.stored cell word).machine.memory.word cell = Word.wrap word :=
    (Memory.word_put _ _ _ _).trans (if_pos rfl)
  rw [Ne, dumped_eq_ok_iff_recordable stays]
  rintro ⟨-, near⟩
  have short := near cell (by rwa [there])
  rw [far] at short
  cases short

/-- Words that are stored where the record does not get to are not told apart by it. -/
theorem dump_hides_far_words : ∃ observations observations' left right,
    Session.History (.load [99] false none) [.access (.store (10 ^ Text.Numeral.maxDigits : Nat) 1)] observations left ∧
    Session.History (.load [99] false none) [.access (.store (10 ^ Text.Numeral.maxDigits : Nat) 2)] observations' right ∧
    left.machine.dump = right.machine.dump ∧ left.machine.dumped = .error .numberTooLong ∧
    right.machine.dumped = .error .numberTooLong ∧ ¬ Coincide left.machine right.machine := by
  have far : isTooLong (10 ^ Text.Numeral.maxDigits : Nat) = true := Text.Numeral.isTooLong_natCast.mpr (Nat.le_refl _)
  generalize 10 ^ Text.Numeral.maxDigits = cell at far ⊢
  let left := (Session.load [99] false none).stored cell 1
  let right := (Session.load [99] false none).stored cell 2
  have inRange := Memory.inRange_ofWords [99]
  have zero : isTooLong 0 = false := by decide +kernel
  have headed : left.machine.Headed := ⟨zero, zero, zero, fun _ member => by cases member⟩
  have stores (word : Int) : (Session.Action.access (.store cell word)).perform.Ends (.load [99] false none)
      (.ok .done) ((Session.load [99] false none).stored cell word) := by
    refine ⟨0, ?_⟩
    rw [Session.Action.perform, Session.Access.perform, Call.map_apply, Session.store_cell]
    rfl
  have words (word : Int) (other : Nat) : ((Memory.ofWords [99]).put cell word).word other =
      if other = cell then Word.wrap word else (Memory.ofWords [99]).word other := Memory.word_put _ _ _ _
  have cut : left.machine.dumped ≠ .ok () := cut_of_far_word inRange far (by decide)
  have cut' : right.machine.dumped ≠ .ok () := cut_of_far_word inRange far (by decide)
  have same : shown left.machine.memory = shown right.machine.memory := by
    refine shown_eq (inRange.put cell 1) (inRange.put cell 2) fun other near => ?_
    have apart : other ≠ cell := by
      rintro rfl
      rw [far] at near
      cases near
    exact (words 1 other).trans ((if_neg apart).trans ((words 2 other).trans (if_neg apart)).symm)
  refine ⟨_, _, left, right, .next (stores 1) .start, .next (stores 2) .start,
    dump_eq_of_cut headed rfl cut cut' same, Passage.outcome_of_failure cut, Passage.outcome_of_failure cut', ?_⟩
  intro coincide
  have reads := read_eq_iff.mp coincide.read cell
  have told : (1 : Int) = 2 := by
    calc (1 : Int)
      _ = left.machine.memory.word cell := ((words 1 cell).trans (if_pos rfl)).symm
      _ = right.machine.memory.word cell := reads
      _ = 2 := (words 2 cell).trans (if_pos rfl)
  cases told

end Machine
end Intcode
