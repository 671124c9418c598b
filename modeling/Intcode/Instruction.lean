/-! The operations of the machine, the operands they take and the text that
shows an instruction in a trace. -/

namespace Intcode

inductive Mode where
  | position
  | immediate
  | relative
deriving DecidableEq, Repr

/-- The mode that a decimal digit of an instruction word selects. -/
def Mode.ofDigit? : Nat → Option Mode
  | 0 => some .position
  | 1 => some .immediate
  | 2 => some .relative
  | _ => none

/-- An operand as it stands in the instruction, not yet looked up. -/
inductive Operand where
  /-- The word at an absolute address. -/
  | position (address : Int)
  /-- The value itself. -/
  | immediate (value : Int)
  /-- The word at an offset from the relative base. -/
  | relative (offset : Int)
  /-- A value whose mode was never settled; decoding makes none of these. -/
  | bare (value : Int)
deriving DecidableEq, Repr

namespace Operand

def ofMode : Mode → Int → Operand
  | .position => position
  | .immediate => immediate
  | .relative => relative

/-- Brackets mark a look-up, and an offset always shows its sign. -/
def text : Operand → String
  | position address => "[" ++ toString address ++ "]"
  | immediate value => toString value
  | relative offset =>
    if offset < 0 then "[rb" ++ toString offset ++ "]" else "[rb+" ++ toString offset ++ "]"
  | bare value => "Param(value=" ++ toString value ++ ")"

def number : Operand → Int
  | position number | immediate number | relative number | bare number => number

end Operand

inductive Operation where
  | add
  | multiply
  | input
  | output
  | jumpIfTrue
  | jumpIfFalse
  | lessThan
  | equals
  | adjustBase
  | halt
deriving DecidableEq, Repr

namespace Operation

def all : List Operation :=
  [add, multiply, input, output, jumpIfTrue, jumpIfFalse, lessThan, equals, adjustBase, halt]

/-- The two low digits of an instruction word. -/
def code : Operation → Nat
  | add => 1
  | multiply => 2
  | input => 3
  | output => 4
  | jumpIfTrue => 5
  | jumpIfFalse => 6
  | lessThan => 7
  | equals => 8
  | adjustBase => 9
  | halt => 99

def arity : Operation → Nat
  | add | multiply | lessThan | equals => 3
  | jumpIfTrue | jumpIfFalse => 2
  | input | output | adjustBase => 1
  | halt => 0

def name : Operation → String
  | add => "ADD"
  | multiply => "MUL"
  | input => "IN"
  | output => "OUT"
  | jumpIfTrue => "JT"
  | jumpIfFalse => "JF"
  | lessThan => "LT"
  | equals => "EQ"
  | adjustBase => "RBO"
  | halt => "HALT"

def ofCode? (number : Nat) : Option Operation := all.find? (·.code = number)

def ofName? (label : String) : Option Operation := all.find? (·.name = label)

end Operation

/-- An operation with its operands. An instruction built by hand may have more
or fewer operands than the operation uses. -/
structure Instruction where
  operation : Operation
  operands : List Operand
deriving DecidableEq, Repr

namespace Instruction

def size (instruction : Instruction) : Nat := instruction.operands.length + 1

def mnemonic (instruction : Instruction) : String :=
  if instruction.operands.isEmpty then instruction.operation.name
  else instruction.operation.name ++ " " ++
    ", ".intercalate (instruction.operands.map Operand.text)

def numbers (instruction : Instruction) : List Int := instruction.operands.map Operand.number

end Instruction
end Intcode
