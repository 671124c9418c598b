/-! A finite map that remembers the order in which its keys first came. Setting a
key again changes its value and leaves its place. -/

namespace Intcode

/-- The entries, the oldest key first. `set` keeps the keys distinct. -/
structure Chart (κ ν : Type) where
  entries : List (κ × ν) := []
deriving DecidableEq, Repr

namespace Chart

variable {κ ν : Type} [DecidableEq κ]

def lookup (key : κ) : List (κ × ν) → Option ν
  | [] => none
  | (other, value) :: rest => if other = key then some value else lookup key rest

/-- Replace the value at a key in a list of entries, or append the key. -/
def assign (key : κ) (value : ν) : List (κ × ν) → List (κ × ν)
  | [] => [(key, value)]
  | (other, old) :: rest =>
    if other = key then (other, value) :: rest else (other, old) :: assign key value rest

def get? (chart : Chart κ ν) (key : κ) : Option ν := lookup key chart.entries

def set (chart : Chart κ ν) (key : κ) (value : ν) : Chart κ ν := ⟨assign key value chart.entries⟩

def keys (chart : Chart κ ν) : List κ := chart.entries.map Prod.fst

def values (chart : Chart κ ν) : List ν := chart.entries.map Prod.snd

def size (chart : Chart κ ν) : Nat := chart.entries.length

def find? (chart : Chart κ ν) (test : ν → Bool) : Option κ :=
  (chart.entries.find? fun entry => test entry.2).map Prod.fst

end Chart
end Intcode
