import Intcode.Machine
import Intcode.Passage

/-! The text that records a machine: its registers, then every non-zero word. A
written zero reads the same as a cell that was never written, so neither is
listed. The text ends before the first line that cannot be written. -/

namespace Intcode.Machine

def padded (width number : Nat) : String :=
  let digits := toString number
  String.ofList (List.replicate (width - digits.length) '0') ++ digits

def title : Passage := ⟨"=== MEMORY DUMP ===\n", []⟩

def closing : Passage := ⟨"\n=== END DUMP ===\n", []⟩

def registersLine (machine : Machine) : Passage where
  text := "pc: " ++ toString machine.pc ++ "  relative_base: " ++ toString machine.relativeBase ++
    "  steps: " ++ toString machine.steps ++ "\n"
  numbers := [machine.pc, machine.relativeBase, machine.steps]

def suspensionText : Option Suspension → String
  | none => "None"
  | some suspension => suspension.describe

def suspensionLine (machine : Machine) : Passage where
  text := "state: " ++ suspensionText machine.suspension ++ "\n\n"
  numbers := (machine.suspension.bind Suspension.number?).toList

def cellLine (cell : Nat) (word : Int) : Passage where
  text := padded 8 cell ++ ": " ++ toString word ++ "\n"
  numbers := [cell, word]

def cellLines (memory : Memory) : List Passage :=
  memory.toList.filterMap fun (cell, word) => if word = 0 then none else some (cellLine cell word)

def heading (machine : Machine) : List Passage := [title, machine.registersLine, machine.suspensionLine]

def passages (machine : Machine) : List Passage := machine.heading ++ (cellLines machine.memory ++ [closing])

/-- The record as far as it can be written. -/
def dump (machine : Machine) : String := Passage.written machine.passages

/-- How writing the record ends. -/
def dumped (machine : Machine) : Except Fault Unit := Passage.outcome machine.passages

end Intcode.Machine
