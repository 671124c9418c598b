import Intcode.Proofs.Hosting

/-! Everything that a memory holds, and so everything that a machine reads, emits or jumps to,
is a signed 64-bit word. Only storing wraps: the program counter, the relative base and the
addresses are plain integers, and it takes no more than the memory to keep the rest in range. -/

namespace Intcode

theorem Word.wrap_inRange (value : Int) : InRange (wrap value) := by
  have above : -((count : Int) / 2) ≤ value.bmod count := Int.le_bmod (by decide)
  have below : value.bmod count ≤ ((count : Int) - 1) / 2 := Int.bmod_le (by decide)
  exact ⟨above, below⟩

namespace Memory

variable {memory : Memory}

def InRange (memory : Memory) : Prop := ∀ cell, Word.InRange (memory.word cell)

theorem InRange.put (inRange : memory.InRange) (cell : Nat) (value : Int) :
    (memory.put cell value).InRange := by
  intro other
  rw [word_put]
  split
  · exact Word.wrap_inRange value
  · exact inRange other

theorem inRange_ofWords (words : List Int) : (ofWords words).InRange := by
  intro cell
  rw [word_ofWords]
  exact Word.wrap_inRange _

theorem InRange.write (inRange : memory.InRange) {address value : Int} {after : Memory}
    (written : memory.write address value = .ok after) : after.InRange := by
  rw [write_eq] at written
  split at written
  · cases written
    exact inRange.put _ value
  · cases written

theorem InRange.read (inRange : memory.InRange) {address value : Int}
    (found : memory.read address = .ok value) : Word.InRange value := by
  rw [read_eq] at found
  split at found
  · cases found
    exact inRange _
  · cases found

theorem InRange.written (inRange : memory.InRange) {entry : Nat × Int} (member : entry ∈ memory.toList) :
    Word.InRange entry.2 := by
  have held : memory.cells[entry.1]? = some entry.2 :=
    Std.ExtTreeMap.mem_toList_iff_getElem?_eq_some.mp member
  have word : memory.word entry.1 = entry.2 := by rw [Memory.word, held, Option.getD_some]
  rw [← word]
  exact inRange entry.1

end Memory

namespace Machine

variable {machine after : Machine}

theorem value_inRange (inRange : machine.memory.InRange) {mode : Mode} {word value : Int}
    (fits : Word.InRange word) (found : machine.value (.ofMode mode word) = .ok value) :
    Word.InRange value := by
  cases mode with
  | immediate =>
    cases found
    exact fits
  | position | relative => exact inRange.read found

private theorem valueOf_inRange (inRange : machine.memory.InRange) {instruction : Instruction} {index : Nat}
    {value : Int} (stands : Instruction.Stands machine.memory machine.pc instruction)
    (below : index < instruction.operation.arity)
    (found : instruction.valueOf machine index = .ok value) : Word.InRange value := by
  obtain ⟨mode, operand⟩ := stands.operand_eq below
  rw [Instruction.valueOf, operand] at found
  exact value_inRange inRange (inRange _) found

theorem effect_inRange (inRange : machine.memory.InRange) {instruction : Instruction} {value : Int}
    (fetched : machine.fetch = .ok instruction)
    (found : instruction.effect machine = .ok (.emit value) ∨
      instruction.effect machine = .ok (.jump value)) : Word.InRange value := by
  have stands := Instruction.decode_eq_ok_iff.mp (decode_of_fetch fetched)
  rcases found with emits | jumps
  · cases Instruction.effect_yields emits with
    | emit known read => exact valueOf_inRange inRange stands (by rw [known]; decide) read
  · cases Instruction.effect_yields jumps with
    | jump tests read => exact valueOf_inRange inRange stands (by rw [tests]; decide) read

/-- No effect brings anything but words into memory, whoever asks for it. -/
theorem apply_inRange (inRange : machine.memory.InRange) (effect : Effect) :
    (machine.apply effect).memory.InRange := by
  cases effect with
  | write cell value => exact inRange.put cell value
  | _ => exact inRange

private theorem advance_inRange (inRange : machine.memory.InRange) (advanced : machine.advance = .ok after) :
    after.memory.InRange := by
  obtain ⟨instruction, effect, _, _, rfl⟩ := advance_eq_ok advanced
  exact apply_inRange inRange effect

private theorem passes_inRange {count : Nat} (inRange : machine.memory.InRange)
    (passes : Round.Passes round count machine after) : after.memory.InRange :=
  passes.preserves (fun inRange went => advance_inRange inRange (round_goes_iff.mp went).1) inRange

private theorem awake_inRange {value : Option Int} (inRange : machine.memory.InRange)
    (woken : machine.awake value = .ok after) : after.memory.InRange := by
  obtain ⟨memory, rfl, same | ⟨address, word, _, _, written⟩⟩ := awake_eq_ok woken
  · rw [same]
    exact inRange
  · exact inRange.write written

theorem emitted_inRange {suspension : Suspension} (inRange : machine.memory.InRange)
    (awake : machine.suspension = none) (advanced : machine.advance = .ok after)
    (stopped : after.suspension = some suspension) : ∀ word ∈ suspension.words, Word.InRange word := by
  obtain ⟨instruction, effect, fetched, found, rfl⟩ := advance_eq_ok advanced
  cases effect with
  | emit value =>
    cases stopped
    intro word member
    rw [List.mem_singleton.mp member]
    exact effect_inRange inRange fetched (.inl found)
  | await address | halt =>
    cases stopped
    exact nofun
  | write | shiftBase | jump | pass =>
    have still : machine.suspension = some suspension := stopped
    rw [awake] at still
    cases still

end Machine

namespace Session

open Call (Paired)

variable {session after : Session}

theorem resume_inRange {value : Option Int} {outcome : Except Fault Suspension}
    (inRange : session.machine.memory.InRange) (ends : (resume value).Ends session outcome after) :
    after.machine.memory.InRange ∧
      ∀ suspension, outcome = .ok suspension → Stops Word.InRange suspension after := by
  rcases ends_resume.mp ends with ⟨fault, _, rfl, rfl⟩ | ⟨start, woken, ran⟩
  · exact ⟨inRange, nofun⟩
  obtain ⟨count, last, passes, closes⟩ := Round.ends_iff.mp ran
  have passed := passes_machine passes
  have kept := Machine.passes_inRange (Machine.awake_inRange inRange woken) passed
  cases outcome with
  | error fault =>
    obtain ⟨_, left⟩ := Machine.round_fails_iff.mp (closes_machine closes)
    rw [left]
    exact ⟨kept, nofun⟩
  | ok suspension =>
    obtain ⟨advanced, stopped⟩ := Machine.round_stops_iff.mp (Round.closes_ok.mp (closes_machine closes))
    refine ⟨Machine.advance_inRange kept advanced, ?_⟩
    rintro _ ⟨rfl⟩
    have still := Machine.passes_suspension passed (Machine.awake_suspension woken)
    exact ⟨stopped, Machine.emitted_inRange kept still advanced stopped⟩

/-- The invariant of one session, as a relation of the session to itself. -/
def KeptInRange (left right : Session) : Prop := right = left ∧ left.machine.memory.InRange

private theorem access_inRange (what : Access) (inRange : session.machine.memory.InRange) :
    Paired KeptInRange (fun answer _ => answer.words = []) what.perform what.perform session session := by
  cases what with
  | read address =>
    refine .get_bind ?_
    cases session.machine.memory.read address with
    | error fault => exact .bind_of_failed (fun _ => rfl) (fun _ => rfl) ⟨rfl, inRange⟩
    | ok value => exact .bind_of_found (fun _ => rfl) (fun _ => rfl) (.pure ⟨rfl, inRange⟩ rfl)
  | store address value =>
    have stored : Paired KeptInRange (fun _ _ => True) (store address value) (store address value)
        session session := by
      intro bound
      rw [store_apply]
      cases written : session.machine.memory.write address value with
      | error fault => exact .fails ⟨rfl, inRange⟩
      | ok memory => exact .answers ⟨rfl, inRange.write written⟩ trivial
    exact stored.map fun _ _ _ => rfl
  | dump => exact .get_bind (.pure ⟨rfl, inRange⟩ rfl)
  | execute instruction =>
    intro bound
    simp only [Access.perform, execute]
    cases instruction.effect session.machine with
    | error fault => exact .fails ⟨rfl, inRange⟩
    | ok effect => exact .answers ⟨rfl, Machine.apply_inRange inRange effect⟩ rfl
  | setPc pc => exact .modify_bind (.pure ⟨rfl, inRange⟩ rfl)
  | setBase base => exact .modify_bind (.pure ⟨rfl, inRange⟩ rfl)
  | setLimit limit => exact .modify_bind (.pure ⟨rfl, inRange⟩ rfl)

private theorem indistinct_inRange : Indistinct KeptInRange Eq Word.InRange where
  suspension := fun ⟨same, _⟩ => by rw [same]
  unfed := fun ⟨same, inRange⟩ => by
    rw [same]
    exact .of_kept (resume_inRange inRange)
  fed := fun words ⟨same, inRange⟩ => by
    rw [same, ← words]
    exact .of_kept (resume_inRange inRange)
  observe := fun ⟨same, _⟩ _ => by rw [same]
  access := fun accesses ⟨same, inRange⟩ => by
    rw [same]
    cases accesses with
    | same => exact access_inRange _ inRange
    | store address words =>
      cases words
      exact access_inRange _ inRange

theorem History.inRange {words : List Int} {trace : Bool} {limit : Option Int} {actions : List Action}
    {observations : List Observation} (history : History (load words trace limit) actions observations session) :
    session.machine.memory.InRange ∧ ∀ observation ∈ observations, ∀ word ∈ observation.words, Word.InRange word := by
  have selves : List.Forall₂ (Action.Matches Eq) actions actions :=
    List.forall₂_same.mpr fun action _ => action.matches_self
  have start : KeptInRange (load words trace limit) (load words trace limit) := ⟨rfl, Memory.inRange_ofWords words⟩
  obtain ⟨⟨_, _, _, inRange⟩, fits⟩ := indistinct_inRange.history selves start history
  exact ⟨inRange, fits⟩

/-- Whatever a host does with a session, every cell that was written and every word that was
reported holds a signed 64-bit word, and so does every target that a resumption jumps to. All
other actions run the machine by resuming it. -/
theorem history_inRange {words : List Int} {trace : Bool} {limit : Option Int} {actions : List Action}
    {observations : List Observation}
    (history : History (load words trace limit) actions observations session) :
    (∀ entry ∈ session.machine.memory.toList, 0 ≤ (entry.1 : Int) ∧ Word.InRange entry.2) ∧
    (∀ observation ∈ observations, ∀ word ∈ observation.words, Word.InRange word) ∧
    ∀ value start count machine instruction target, session.machine.awake value = .ok start →
      Round.Passes Machine.round count start machine → machine.fetch = .ok instruction →
      instruction.effect machine = .ok (.jump target) → Word.InRange target := by
  obtain ⟨inRange, fits⟩ := history.inRange
  refine ⟨fun entry member => ⟨Int.natCast_nonneg _, inRange.written member⟩, fits, ?_⟩
  intro value start count machine instruction target woken passes fetched jumps
  have kept := Machine.passes_inRange (Machine.awake_inRange inRange woken) passes
  exact Machine.effect_inRange kept fetched (.inr jumps)

/-- The product of two words is emitted as the word it wraps to. Before that the host stores an
integer that is no word, and afterwards it supplies one that nobody awaits. -/
theorem history_inRange_of_product : ∃ observations session,
    History (load [1102, 4611686018427387904, 3, 11, 4, 11, 99] false none)
      [.access (.store 20 18446744073709551621), .resume none, .step 36893488147419103232]
      observations session ∧
    observations.map (·.words) = [[], [-4611686018427387904], []] ∧
    (∀ entry ∈ session.machine.memory.toList, 0 ≤ (entry.1 : Int) ∧ Word.InRange entry.2) ∧
    ∀ observation ∈ observations, ∀ word ∈ observation.words, Word.InRange word := by
  have history : History (load [1102, 4611686018427387904, 3, 11, 4, 11, 99] false none)
      [.access (.store 20 18446744073709551621), .resume none, .step 36893488147419103232] _ _ :=
    .next ⟨9, rfl⟩ (.next ⟨9, rfl⟩ (.next ⟨9, rfl⟩ .start))
  obtain ⟨written, fits, _⟩ := history_inRange history
  exact ⟨_, _, history, rfl, written, fits⟩

end Session
end Intcode
