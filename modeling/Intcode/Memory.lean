import Std.Data.ExtTreeMap
import Intcode.Fault
import Intcode.Word

/-! A sparse store of words. Every address from zero up holds a word, zero until
something else is stored; which cells were ever written is kept as well, because
listing a memory shows a written zero. -/

namespace Intcode

/-- The written cells, by address. -/
structure Memory where
  cells : Std.ExtTreeMap Nat Int

namespace Memory

def empty : Memory := ⟨∅⟩

def word (memory : Memory) (cell : Nat) : Int := memory.cells[cell]?.getD 0

/-- Store `value` at a cell as the word it wraps to. -/
def put (memory : Memory) (cell : Nat) (value : Int) : Memory :=
  ⟨memory.cells.insert cell (Word.wrap value)⟩

def cell (address : Int) : Except Fault Nat :=
  if 0 ≤ address then .ok address.toNat else .error (.negativeAddress address)

def read (memory : Memory) (address : Int) : Except Fault Int :=
  memory.word <$> cell address

def write (memory : Memory) (address value : Int) : Except Fault Memory :=
  (memory.put · value) <$> cell address

/-- Place `words` from `start` on. Zeros are left unwritten; a value that only
wraps to zero is not a zero yet and is written. -/
def place (memory : Memory) (start : Nat) : List Int → Memory
  | [] => memory
  | value :: rest => (if value = 0 then memory else memory.put start value).place (start + 1) rest

def ofWords (words : List Int) : Memory := empty.place 0 words

def toList (memory : Memory) : List (Nat × Int) := memory.cells.toList

def size (memory : Memory) : Nat := memory.cells.size

end Memory
end Intcode
