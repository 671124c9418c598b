import Intcode.Value

/-! The order in which a set of numbers holds its members: that of their places in a
table, which follow from the numbers alone. -/

namespace Intcode.Value

/-- Places follow from numbers modulo this prime. -/
def hashModulus : Nat := Double.pow2 61 - 1

/-- Powers of two repeat modulo the prime with this period. -/
def hashPeriod : Nat := 61

def infiniteHash : Int := 314159

/-- The number that stands for a number in a table. The number -1 has another use. -/
def reduced (negative : Bool) (size : Nat) : Int :=
  let hash : Int := if negative then -((size % hashModulus : Nat) : Int) else size % hashModulus
  if hash = -1 then -2 else hash

/-- What stands for a value in a table, if it is a number that equals itself. A power of
two with a negative exponent is an inverse modulo the prime. -/
def hash? : Value → Option Int
  | bool value => some (if value then 1 else 0)
  | int value => some (reduced (value < 0) value.natAbs)
  | float .nan => none
  | float (.infinity negative) => some (if negative then -infiniteHash else infiniteHash)
  | float (.finite negative mantissa exponent) =>
    some (reduced negative (mantissa * Double.pow2 (exponent.emod hashPeriod).toNat))
  | _ => none

def hashSpan : Nat := Double.pow2 64

def hashWord (hash : Int) : Nat := (hash.emod hashSpan).toNat

def leastTable : Nat := 8

def tableSize : (fuel members size : Nat) → Nat
  | 0, _, size => size
  | fuel + 1, members, size =>
    if size ≤ 2 * members then tableSize fuel members (2 * size) else size

def sizeFor (members : Nat) : Nat :=
  if 5 * members < 3 * (leastTable - 1) then leastTable
  else tableSize members members leastTable

def neighbours : Nat := 9

/-- The first free place among `count + 1` of them. -/
def freePlace? {α : Type} (table : Array (Option α)) : (count place : Nat) → Option Nat
  | 0, place => if (table[place]?).join.isNone then some place else none
  | count + 1, place =>
    if (table[place]?).join.isNone then some place else freePlace? table count (place + 1)

/-- Put a member into a table, from a place on. Where its neighbours are taken as well,
another place follows from what is left of the number that stands for it. -/
def insert {α : Type} (member : α) :
    (fuel rest place : Nat) → Array (Option α) → Array (Option α)
  | 0, _, _, table => table
  | fuel + 1, rest, place, table =>
    let count := if place + neighbours < table.size then neighbours else 0
    match freePlace? table count place with
    | some free => table.setIfInBounds free (some member)
    | none =>
      let rest := rest / 32
      insert member fuel rest ((5 * place + 1 + rest) % table.size) table

/-- The number of tries after which nothing is left of a number, and every place has
come up. -/
def tries (size : Nat) : Nat := size + 16

/-- The members in the order of their places. If a place does not follow from a
member alone, all keep the order in which they came. -/
def tableOrder {α : Type} (value : α → Value) (members : List α) : List α :=
  match members.mapM fun member => (member, ·) <$> (value member).hash? with
  | none => members
  | some hashed =>
    let size := sizeFor members.length
    let table := hashed.foldl (fun table (member, hash) =>
      insert member (tries size) (hashWord hash) (hashWord hash % size) table)
      (Array.replicate size none)
    table.toList.filterMap id

end Intcode.Value
