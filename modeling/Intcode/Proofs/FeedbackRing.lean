import Intcode.Proofs.Closure
import Intcode.Proofs.Priming

/-! A feedback loop as the network that it computes. The loop is told by the table of its turns,
one row for each round and one column for each amplifier. Down a column stands what one
amplifier does on its own, along a row how the signal goes around. -/

namespace Intcode.Amplifier

open Session (Awaits Served Stepped)

/-- What a step of an amplifier was given and what it answered. -/
structure Turn where
  taken : Int
  given : Option Int
deriving DecidableEq, Repr

/-- The turns of one round. The place of an amplifier that has halted is empty. -/
abbrev Row := List (Option Turn)

/-- What an amplifier does in one round: nothing once it has halted, otherwise a step. -/
inductive Moves : Amplifier → Option Turn → Amplifier → Prop where
  | halted (done : amplifier.done = true) : Moves amplifier none amplifier
  | turn (going : amplifier.done = false)
    (steps : (Session.step taken).Ends amplifier.session (.ok (given, halts)) left) :
    Moves amplifier (some ⟨taken, given⟩) ⟨left, halts⟩

/-- One round: every turn takes the signal, and what it gives is the signal from then on. -/
inductive Turns : Int → List Amplifier → Row → Int → List Amplifier → Prop where
  | done : Turns signal [] [] signal []
  | next (moves : Moves amplifier place moved) (takes : ∀ turn, place = some turn → turn.taken = signal)
    (turns : Turns ((place.bind (·.given)).getD signal) rest row last others) :
    Turns signal (amplifier :: rest) (place :: row) last (moved :: others)

/-- Rounds that are repeated as long as an amplifier has not halted. -/
inductive Settles : Int → List Amplifier → List Row → Int → Prop where
  | settled (all : ∀ amplifier ∈ amplifiers, amplifier.done = true) : Settles signal amplifiers [] signal
  | round (going : ¬ ∀ amplifier ∈ amplifiers, amplifier.done = true)
    (turns : Turns signal amplifiers row last after) (settles : Settles last after table result) :
    Settles signal amplifiers (row :: table) result

/-- The table records the loop over amplifiers that were told these phases. -/
def Records (program : Program) (phases : List Int) (signal : Int) (table : List Row) (result : Int) : Prop :=
  ∃ sessions, List.Forall₂ (Primed program) phases sessions ∧
    Settles signal (sessions.map (⟨·, false⟩)) table result

/-- The turns of one amplifier. -/
def column (table : List Row) (index : Nat) : List Turn := table.filterMap (·[index]?.join)

def taken (table : List Row) (index : Nat) : List Int := (column table index).map (·.taken)

def given (table : List Row) (index : Nat) : List Int := (column table index).filterMap (·.given)

def outputs (table : List Row) : List Int := table.flatten.filterMap (·.bind (·.given))

section Runs

variable {σ : Type} {signal last result : Int} {amplifiers after : List Amplifier} {row : Row}
  {table : List Row}

private theorem turns_of_ends {before state : σ}
    (ends : (round signal amplifiers).Ends before (.ok (last, after)) state) :
    (∃ row, Turns signal amplifiers row last after) ∧ state = before := by
  induction amplifiers generalizing signal after with
  | nil =>
    obtain ⟨same, rfl⟩ := Call.ends_pure.mp ends
    cases same
    exact ⟨⟨[], .done⟩, rfl⟩
  | cons amplifier rest ih =>
    rw [round] at ends
    split at ends
    next done =>
      obtain ⟨⟨final, others⟩, middle, went, ends⟩ := ends.of_bind_ok
      obtain ⟨same, rfl⟩ := Call.ends_pure.mp ends
      cases same
      obtain ⟨⟨row, turns⟩, same⟩ := ih went
      exact ⟨⟨none :: row, .next (.halted done) nofun turns⟩, same⟩
    next going =>
      obtain ⟨⟨⟨given, done⟩, session⟩, middle, ran, onward⟩ := ends.of_bind_ok
      obtain ⟨reply, own, steps, made, rfl⟩ := Call.ends_onOwn.mp ran
      cases reply with
      | error fault => cases made
      | ok answer =>
        cases made
        obtain ⟨⟨final, others⟩, middle, went, ends⟩ := onward.of_bind_ok
        obtain ⟨same, rfl⟩ := Call.ends_pure.mp ends
        cases same
        obtain ⟨⟨row, turns⟩, same⟩ := ih went
        have moves : amplifier.Moves (some ⟨signal, given⟩) ⟨session, done⟩ :=
          .turn (eq_false_of_ne_true going) steps
        refine ⟨⟨_, .next moves ?_ turns⟩, same⟩
        rintro _ ⟨rfl⟩
        rfl

private theorem settles_of_ends {rounds total bound : Nat} {before state : σ}
    (ends : (settle rounds signal amplifiers bound).Ends before (.ok (result, total)) state) :
    (∃ table, Settles signal amplifiers table result ∧ total = rounds + table.length) ∧ state = before := by
  induction bound generalizing rounds signal amplifiers with
  | zero =>
    rw [settle] at ends
    split at ends
    next all =>
      obtain ⟨same, rfl⟩ := Call.ends_pure.mp ends
      cases same
      exact ⟨⟨[], .settled (List.all_eq_true.mp all), rfl⟩, rfl⟩
    next =>
      obtain ⟨_, impossible⟩ := ends
      cases impossible
  | succ bound ih =>
    rw [settle] at ends
    split at ends
    next all =>
      obtain ⟨same, rfl⟩ := Call.ends_pure.mp ends
      cases same
      exact ⟨⟨[], .settled (List.all_eq_true.mp all), rfl⟩, rfl⟩
    next running =>
      obtain ⟨⟨final, others⟩, middle, went, onward⟩ := ends.of_bind_ok
      obtain ⟨⟨row, turns⟩, rfl⟩ := turns_of_ends went
      obtain ⟨⟨table, settles, total⟩, same⟩ := ih onward
      have going : ¬ ∀ amplifier ∈ amplifiers, amplifier.done = true :=
        fun all => running (List.all_eq_true.mpr all)
      exact ⟨⟨row :: table, .round going turns settles, by rw [total, List.length_cons]; omega⟩, same⟩

end Runs

section Uniqueness

variable {signal last last' result result' : Int} {amplifier moved moved' : Amplifier}
  {amplifiers after after' : List Amplifier} {row row' : Row} {table table' : List Row}
  {place place' : Option Turn}

theorem Moves.unique (moves : Moves amplifier place moved) (again : Moves amplifier place' moved')
    (alike : ∀ turn turn', place = some turn → place' = some turn' → turn'.taken = turn.taken) :
    place' = place ∧ moved' = moved := by
  cases moves with
  | halted done =>
    cases again with
    | halted => exact ⟨rfl, rfl⟩
    | turn going =>
      rw [done] at going
      cases going
  | turn going steps =>
    cases again with
    | halted done =>
      rw [going] at done
      cases done
    | turn _ steps' =>
      cases alike _ _ rfl rfl
      obtain ⟨same, rfl⟩ := steps.unique (Session.closed_steady.step _) steps'
      cases same
      exact ⟨rfl, rfl⟩

theorem Turns.unique (turns : Turns signal amplifiers row last after)
    (again : Turns signal amplifiers row' last' after') : row' = row ∧ last' = last ∧ after' = after := by
  induction turns generalizing row' last' after' with
  | done =>
    cases again
    exact ⟨rfl, rfl, rfl⟩
  | next moves takes _ ih =>
    cases again with
    | next moves' takes' turns' =>
      obtain ⟨rfl, rfl⟩ := moves.unique moves' fun turn turn' stood stood' => by
        rw [takes turn stood, takes' turn' stood']
      obtain ⟨rfl, rfl, rfl⟩ := ih turns'
      exact ⟨rfl, rfl, rfl⟩

theorem Settles.unique (settles : Settles signal amplifiers table result)
    (again : Settles signal amplifiers table' result') : table' = table ∧ result' = result := by
  induction settles generalizing table' result' with
  | settled all =>
    cases again with
    | settled => exact ⟨rfl, rfl⟩
    | round going => exact (going all).elim
  | round going turns _ ih =>
    cases again with
    | settled all => exact (going all).elim
    | round _ turns' settles' =>
      obtain ⟨rfl, rfl, rfl⟩ := turns.unique turns'
      obtain ⟨rfl, rfl⟩ := ih settles'
      exact ⟨rfl, rfl⟩

theorem Records.unique {program : Program} {phases : List Int}
    (records : Records program phases signal table result)
    (again : Records program phases signal table' result') : table' = table ∧ result' = result := by
  obtain ⟨sessions, primed, settles⟩ := records
  obtain ⟨sessions', primed', settles'⟩ := again
  have only : Relator.RightUnique (Primed program) := fun _ _ _ first second => second.unique first
  cases only.forall₂ primed primed'
  exact settles.unique settles'

end Uniqueness

section Columns

/-- The turns that an amplifier has until it halts. -/
inductive Performs : Amplifier → List Turn → Prop where
  | halted (done : amplifier.done = true) : Performs amplifier []
  | turn (moves : Moves amplifier (some turn) moved) (performs : Performs moved turns) :
    Performs amplifier (turn :: turns)

/-- An amplifier stands where its flag says, and awaits a word if it has not halted. -/
def Stands (amplifier : Amplifier) : Prop :=
  if amplifier.done then amplifier.session.machine.suspension = some .complete
  else amplifier.session.Awaits

variable {signal last result : Int} {amplifiers after : List Amplifier} {row : Row}
  {table : List Row} {amplifier moved : Amplifier} {turn : Turn} {turns : List Turn} {index : Nat}

theorem Moves.stepped (moves : Moves amplifier (some turn) moved) : amplifier.done = false ∧
    Stepped amplifier.session turn.taken turn.given moved.done moved.session := by
  cases moves with
  | turn going steps => exact ⟨going, Session.stepped steps⟩

theorem Moves.stands (moves : Moves amplifier (some turn) moved) : moved.Stands := by
  rcases moves.stepped.2.rests with ⟨done, halted⟩ | ⟨going, asks, _⟩
  · simpa [Stands, done] using halted
  · simpa [Stands, going] using asks

private theorem Performs.of_done (performs : Performs amplifier turns) (done : amplifier.done = true) :
    turns = [] := by
  cases performs with
  | halted => rfl
  | turn moves _ =>
    rw [moves.stepped.1] at done
    cases done

private theorem Performs.ne_nil (performs : Performs amplifier turns) (going : amplifier.done = false) :
    turns ≠ [] := by
  rintro rfl
  cases performs with
  | halted done =>
    rw [going] at done
    cases done

private theorem given_cons (turn : Turn) (turns : List Turn) :
    (turn :: turns).filterMap (·.given) = turn.given.toList ++ turns.filterMap (·.given) := by
  rw [List.filterMap_cons]
  cases turn.given <;> rfl

/-- Taken together, the turns of an amplifier are the service of all the words it took. -/
theorem Performs.served (performs : Performs amplifier turns) (stands : amplifier.Stands) :
    ∃ final, Served amplifier.session (turns.map (·.taken)) (.ok ()) []
      (turns.filterMap (·.given)) final := by
  induction performs with
  | halted done =>
    rw [Stands, if_pos done] at stands
    exact ⟨_, .halted stands⟩
  | turn moves _ ih =>
    obtain ⟨going, stepped⟩ := moves.stepped
    obtain ⟨final, service⟩ := ih moves.stands
    rw [Stands, going] at stands
    rw [given_cons]
    exact ⟨final, stepped.served stands service⟩

theorem Performs.length (performs : Performs amplifier turns) :
    (turns.filterMap (·.given)).length = turns.length ∨
      (turns.filterMap (·.given)).length + 1 = turns.length := by
  induction performs with
  | halted => exact .inl rfl
  | @turn _ turn _ _ moves performs ih =>
    rw [given_cons]
    cases gave : turn.given with
    | some output => simpa using ih
    | none =>
      rcases moves.stepped.2.rests with ⟨done, _⟩ | ⟨_, _, answered⟩
      · rw [performs.of_done done]
        exact .inr rfl
      · exact (answered gave).elim

theorem Turns.place (round : Turns signal amplifiers row last after)
    (found : amplifiers[index]? = some amplifier) :
    ∃ place moved, row[index]? = some place ∧ after[index]? = some moved ∧ Moves amplifier place moved := by
  induction round generalizing index with
  | done => cases found
  | next moves _ _ ih =>
    cases index with
    | zero =>
      cases found
      exact ⟨_, _, rfl, rfl, moves⟩
    | succ index => exact ih found

theorem Turns.length (round : Turns signal amplifiers row last after) :
    row.length = amplifiers.length ∧ after.length = amplifiers.length := by
  induction round with
  | done => exact ⟨rfl, rfl⟩
  | next _ _ _ ih => exact ⟨congrArg (· + 1) ih.1, congrArg (· + 1) ih.2⟩

theorem column_cons (row : Row) (table : List Row) (index : Nat) :
    column (row :: table) index = row[index]?.join.toList ++ column table index := by
  unfold column
  rw [List.filterMap_cons]
  cases row[index]?.join <;> rfl

private theorem length_column_le (table : List Row) (index : Nat) :
    (column table index).length ≤ table.length := List.length_filterMap_le _ _

theorem Settles.performs (settles : Settles signal amplifiers table result)
    (found : amplifiers[index]? = some amplifier) : Performs amplifier (column table index) := by
  induction settles generalizing amplifier with
  | settled all => exact .halted (all _ (List.mem_of_getElem? found))
  | round _ turns _ ih =>
    obtain ⟨place, moved, stood, reached, moves⟩ := turns.place found
    rw [column_cons, stood]
    cases moves with
    | halted done => exact ih reached
    | turn going steps => exact .turn (.turn going steps) (ih reached)

theorem Turns.extends (round : Turns signal amplifiers row last after)
    (found : amplifiers[index]? = some amplifier) (going : amplifier.done = false) (table : List Row) :
    (column (row :: table) index).length = (column table index).length + 1 := by
  obtain ⟨place, moved, stood, _, moves⟩ := round.place found
  rw [column_cons, stood]
  cases moves with
  | halted done =>
    rw [going] at done
    cases done
  | turn => simp

/-- Some amplifier has a turn in every round, since it is one that halts in the last. -/
theorem Settles.exists_full (settles : Settles signal amplifiers table result)
    (going : ¬ ∀ amplifier ∈ amplifiers, amplifier.done = true) :
    ∃ index < amplifiers.length, (column table index).length = table.length := by
  induction settles with
  | settled all => exact (going all).elim
  | round _ turns settles ih =>
    have whole := Settles.round going turns settles
    cases settles with
    | settled all =>
      obtain ⟨amplifier, unfinished⟩ := not_forall.mp going
      obtain ⟨member, running⟩ := Classical.not_imp.mp unfinished
      obtain ⟨index, inside, rfl⟩ := List.mem_iff_getElem.mp member
      have found := List.getElem?_eq_getElem inside
      exact ⟨index, inside, turns.extends found (eq_false_of_ne_true running) []⟩
    | round going' turns' settles' =>
      obtain ⟨index, inside, full⟩ := ih going'
      rw [turns.length.2] at inside
      have found := List.getElem?_eq_getElem inside
      refine ⟨index, inside, ?_⟩
      rw [turns.extends found _, full]
      · rfl
      · -- One that had halted would have no turns in the rounds that follow.
        by_contra done
        have none := (whole.performs found).of_done (eq_true_of_ne_false done)
        rw [column_cons, List.append_eq_nil_iff] at none
        rw [none.2] at full
        cases full

private theorem last_cons (place : Option Turn) (row : Row) (signal : Int) :
    ((place :: row).filterMap (·.bind (·.given))).getLastD signal =
      (row.filterMap (·.bind (·.given))).getLastD ((place.bind (·.given)).getD signal) := by
  rw [List.filterMap_cons]
  cases place.bind (·.given) with
  | none => rfl
  | some output => exact List.getLastD_cons ..

private theorem Turns.last_eq (round : Turns signal amplifiers row last after) :
    last = (row.filterMap (·.bind (·.given))).getLastD signal := by
  induction round with
  | done => rfl
  | next _ _ _ ih => rw [ih, last_cons]

private theorem Settles.result_eq (settles : Settles signal amplifiers table result) :
    result = (outputs table).getLastD signal := by
  induction settles with
  | settled => rfl
  | round _ turns _ ih =>
    rw [ih, turns.last_eq]
    simp [outputs, List.getLastD_eq_getLast?, List.getLast?_append]

end Columns

section Lockstep

variable {signal last result : Int} {amplifiers after : List Amplifier} {row : Row}
  {table : List Row} {index : Nat}

/-- The amplifier has a turn in every round, and gives an output in each. -/
def Full (table : List Row) (index : Nat) : Prop :=
  ∀ row ∈ table, ∃ word output, row[index]? = some (some ⟨word, some output⟩)

private theorem full_of_length (steady : (taken table index).length = table.length)
    (giving : (given table index).length = table.length) : Full table index := by
  unfold taken at steady
  unfold given at giving
  rw [List.length_map] at steady
  have turns := List.filterMap_length_eq_length.mp steady
  have outputs := List.filterMap_length_eq_length.mp (giving.trans steady.symm)
  intro row member
  obtain ⟨⟨word, gave⟩, stood⟩ := Option.isSome_iff_exists.mp (turns row member)
  have answered := outputs ⟨word, gave⟩ (List.mem_filterMap.mpr ⟨row, member, stood⟩)
  obtain ⟨output, rfl⟩ := Option.isSome_iff_exists.mp answered
  exact ⟨word, output, Option.join_eq_some_iff.mp stood⟩

theorem Turns.passes (round : Turns signal amplifiers row last after) {word output : Int} {turn : Turn}
    (gives : row[index]? = some (some ⟨word, some output⟩)) (takes : row[index + 1]? = some (some turn)) :
    turn.taken = output := by
  induction round generalizing index with
  | done => cases gives
  | next _ _ round ih =>
    cases index with
    | zero =>
      cases gives
      cases round with
      | done => cases takes
      | next _ accepts _ =>
        cases takes
        exact accepts turn rfl
    | succ index => exact ih gives takes

theorem Turns.starts (round : Turns signal amplifiers row last after) {turn : Turn}
    (takes : row[0]? = some (some turn)) : turn.taken = signal := by
  cases round with
  | done => cases takes
  | next _ accepts _ =>
    cases takes
    exact accepts turn rfl

theorem Turns.finishes (round : Turns signal amplifiers row last after) {word output : Int}
    (gives : row[index]? = some (some ⟨word, some output⟩)) (width : amplifiers.length = index + 1) :
    last = output := by
  induction round generalizing index with
  | done => cases gives
  | next _ _ round ih =>
    cases index with
    | zero =>
      cases gives
      cases List.eq_nil_of_length_eq_zero (Nat.succ.inj width)
      cases round
      rfl
    | succ index => exact ih gives (Nat.succ.inj width)

theorem Settles.passes (settles : Settles signal amplifiers table result) (full : Full table index)
    (next : Full table (index + 1)) : taken table (index + 1) = given table index := by
  induction settles with
  | settled => rfl
  | @round _ _ row _ _ table _ _ turns _ ih =>
    obtain ⟨first, others⟩ := List.forall_mem_cons.mp full
    obtain ⟨first', others'⟩ := List.forall_mem_cons.mp next
    obtain ⟨word, output, gives⟩ := first
    obtain ⟨word', output', takes⟩ := first'
    cases turns.passes gives takes
    have rest := ih others others'
    unfold taken given at rest ⊢
    rw [column_cons, column_cons, gives, takes]
    exact congrArg (word' :: ·) rest

/-- The first amplifier takes the signal, and then what the last one gives, up to the result. -/
theorem Settles.closes (settles : Settles signal amplifiers table result) (first : Full table 0)
    (final : Full table index) (width : amplifiers.length = index + 1) :
    taken table 0 ++ [result] = signal :: given table index := by
  induction settles with
  | settled => rfl
  | @round _ _ row _ _ table _ _ turns _ ih =>
    obtain ⟨⟨word, output, starts⟩, others⟩ := List.forall_mem_cons.mp first
    obtain ⟨⟨word', output', finishes⟩, others'⟩ := List.forall_mem_cons.mp final
    cases turns.starts starts
    cases turns.finishes finishes width
    have rest := ih others others' (turns.length.2.trans width)
    unfold taken given at rest ⊢
    rw [column_cons, column_cons, starts, finishes]
    exact congrArg (word :: ·) rest

/-- If every amplifier gives an output in every round, the signal goes around the whole ring. -/
theorem Settles.lockstep (settles : Settles signal amplifiers table result)
    (full : ∀ index < amplifiers.length, Full table index) (fed : taken table 0 ≠ []) {final : Nat}
    (width : amplifiers.length = final + 1) :
    (∀ index < final, taken table (index + 1) = given table index) ∧
      taken table 0 = signal :: (given table final).dropLast ∧ (given table final).getLast? = some result := by
  have whole := settles.closes (full 0 (by omega)) (full final (by omega)) width
  rcases List.eq_nil_or_concat (given table final) with none | ⟨front, output, split⟩
  · rw [none, ← List.nil_append [signal]] at whole
    exact (fed (List.append_inj' whole rfl).1).elim
  · rw [List.concat_eq_append] at split
    rw [split, ← List.cons_append] at whole
    obtain ⟨takes, last⟩ := List.append_inj' whole rfl
    cases last
    rw [split, List.dropLast_concat, List.getLast?_concat]
    exact ⟨fun index inside => settles.passes (full index (by omega)) (full (index + 1) (by omega)), takes, rfl⟩

end Lockstep

/-- An amplifier that took these words and gave these outputs did what its program does when it
is driven on the phase and the words. It gave an output for each, or for each but the last. -/
structure Alone (program : Program) (phase : Int) (taken given : List Int) : Prop where
  fed : taken ≠ []
  drives : ∃ halted, Exchange.drive.Ends (program.exchange (phase :: taken) false none) (.ok ()) halted ∧
    halted.inputs = [] ∧ halted.outputs.toList = given
  answers : given.length = taken.length ∨ given.length + 1 = taken.length

variable {program : Program} {phases : List Int} {signal result : Int}

theorem Performs.alone {phase : Int} {session : Session} {turns : List Turn}
    (performs : Performs ⟨session, false⟩ turns) (primed : Primed program phase session)
    (waits : session.Awaits) :
    Alone program phase (turns.map (·.taken)) (turns.filterMap (·.given)) where
  fed := by
    intro none
    exact performs.ne_nil rfl (List.map_eq_nil_iff.mp none)
  drives := by
    obtain ⟨final, served⟩ := performs.served waits
    exact ⟨_, primed.ends_drive_iff.mpr ⟨_, _, final, served, rfl⟩, rfl, by simp [Exchange.advanced, Program.exchange]⟩
  answers := by
    rw [List.length_map]
    exact performs.length

private theorem records_of_feedback {before after : Array Settlement}
    (ends : (feedback program phases signal).Ends before (.ok result) after) :
    ∃ table, Records program phases signal table result ∧
      after = before.push ⟨phases, table.length, result⟩ := by
  obtain ⟨sessions, told, primes, loops⟩ := ends.of_bind_ok
  obtain ⟨primed, same⟩ : List.Forall₂ (Primed program) phases sessions ∧ told = before :=
    Call.ends_mapM primed_of_ends primes
  obtain ⟨bound, _, ⟨_, reads⟩, loops⟩ := loops.of_bind_ok
  rw [Call.read_apply] at reads
  cases reads
  obtain ⟨⟨last, rounds⟩, _, went, enters⟩ := loops.of_bind_ok
  obtain ⟨⟨table, settles, counted⟩, unchanged⟩ := settles_of_ends went
  obtain ⟨_, _, ⟨_, logs⟩, answers⟩ := enters.of_bind_ok
  rw [Call.modify_apply] at logs
  cases logs
  obtain ⟨answer, logged⟩ := Call.ends_pure.mp answers
  cases answer
  rw [Nat.zero_add] at counted
  exact ⟨table, ⟨sessions, primed, settles⟩, by rw [logged, unchanged, same, counted]⟩

/-- Whenever a feedback loop settles, one table records it. There each amplifier did to the words
that it took what its program does alone, in as many rounds as the amplifier with the most turns
had, and the result is the last output of all. If they all had a turn with an output in each round,
every amplifier took what the one before it gave, and the first took the signal and then what the
last one gave. -/
theorem feedback_ring {before after : Array Settlement} (nonempty : phases ≠ [])
    (waits : ∀ phase ∈ phases, ∀ session, Primed program phase session → session.Awaits)
    (ends : (feedback program phases signal).Ends before (.ok result) after) :
    ∃ table, Records program phases signal table result ∧
      (∀ table' result', Records program phases signal table' result' → table' = table) ∧
      after = before.push ⟨phases, table.length, result⟩ ∧
      (∀ index phase, phases[index]? = some phase →
        Alone program phase (taken table index) (given table index) ∧
          (taken table index).length ≤ table.length) ∧
      (∃ index < phases.length, (taken table index).length = table.length) ∧
      result = (outputs table).getLastD signal ∧
      ((∀ index < phases.length,
          (taken table index).length = table.length ∧ (given table index).length = table.length) →
        (∀ index, index + 1 < phases.length → taken table (index + 1) = given table index) ∧
        taken table 0 = signal :: (given table (phases.length - 1)).dropLast ∧
        (given table (phases.length - 1)).getLast? = some result) := by
  obtain ⟨table, records, logged⟩ := records_of_feedback ends
  have only (table' : List Row) (result' : Int)
      (again : Records program phases signal table' result') : table' = table := (records.unique again).1
  obtain ⟨sessions, primed, settles⟩ := id records
  obtain ⟨size, each⟩ := List.forall₂_iff_get.mp primed
  have width : (sessions.map (⟨·, false⟩ : Session → Amplifier)).length = phases.length := by
    rw [List.length_map, size]
  have alone (index : Nat) (inside : index < phases.length) :
      Alone program phases[index] (taken table index) (given table index) := by
    have within : index < sessions.length := size ▸ inside
    have told := each index inside within
    have found : (sessions.map (⟨·, false⟩ : Session → Amplifier))[index]? =
        some ⟨sessions[index], false⟩ := by simp [within]
    exact (settles.performs found).alone told (waits _ (List.getElem_mem inside) _ told)
  have positive : 0 < phases.length := List.length_pos_iff.mpr nonempty
  have going : ¬ ∀ amplifier ∈ sessions.map (⟨·, false⟩ : Session → Amplifier), amplifier.done = true := by
    intro all
    obtain ⟨session, member⟩ := List.exists_mem_of_length_pos (size ▸ positive)
    cases all _ (List.mem_map_of_mem member)
  refine ⟨table, records, only, logged, ?_, ?_, settles.result_eq, fun lockstep => ?_⟩
  · intro index phase found
    obtain ⟨inside, rfl⟩ := List.getElem?_eq_some_iff.mp found
    refine ⟨alone index inside, ?_⟩
    rw [taken, List.length_map]
    exact length_column_le table index
  · obtain ⟨index, inside, full⟩ := settles.exists_full going
    rw [width] at inside
    refine ⟨index, inside, ?_⟩
    rw [taken, List.length_map, full]
  · obtain ⟨final, last⟩ := Nat.exists_eq_add_one.mpr positive
    rw [last] at lockstep width ⊢
    have full (index : Nat) (inside : index < final + 1) : Full table index :=
      full_of_length (lockstep index inside).1 (lockstep index inside).2
    have ring := settles.lockstep (width ▸ full) (alone 0 positive).fed width
    exact ⟨fun index inside => ring.1 index (Nat.lt_of_succ_lt_succ inside), ring.2⟩

/-- A program that twice adds its phase to the signal and then halts. -/
def twiceAdding : Program := ⟨[3, 19, 3, 20, 1, 19, 20, 20, 4, 20, 1001, 18, -1, 18, 1005, 18, 2, 99, 2]⟩

/-- The signal goes around two amplifiers twice. -/
theorem feedback_ring_of_sums : ∃ table,
    (feedback twiceAdding [1, 10] 0).Ends #[] (.ok 22) #[⟨[1, 10], 2, 22⟩] ∧
    table = [[some ⟨0, some 1⟩, some ⟨1, some 11⟩], [some ⟨11, some 12⟩, some ⟨12, some 22⟩]] ∧
    Alone twiceAdding 10 (taken table 1) (given table 1) ∧ taken table 1 = given table 0 ∧
    taken table 0 = 0 :: (given table 1).dropLast := by
  have ends : (feedback twiceAdding [1, 10] 0).Ends #[] (.ok 22) #[⟨[1, 10], 2, 22⟩] :=
    ⟨9, by decide +kernel⟩
  have waits : ∀ phase ∈ [1, 10], ∀ session, Primed twiceAdding phase session → session.Awaits := by
    intro phase member session primed
    obtain ⟨other, told, asks⟩ : ∃ other, Primed twiceAdding phase other ∧ other.Awaits := by
      rcases List.mem_pair.mp member with rfl | rfl
      all_goals
        refine ⟨_, .told ⟨9, rfl⟩ ⟨9, rfl⟩, ?_⟩
        exact ⟨_, rfl⟩
    rw [told.unique primed]
    exact asks
  have records : Records twiceAdding [1, 10] 0
      [[some ⟨0, some 1⟩, some ⟨1, some 11⟩], [some ⟨11, some 12⟩, some ⟨12, some 22⟩]] 22 := by
    refine ⟨_, .cons (.told ⟨9, rfl⟩ ⟨9, rfl⟩) (.cons (.told ⟨9, rfl⟩ ⟨9, rfl⟩) .nil), ?_⟩
    have takes (word : Int) (given : Option Int) (turn : Turn)
        (same : some (Turn.mk word given) = some turn) : turn.taken = word := by
      cases same
      rfl
    refine .round (by decide) (.next (.turn rfl ⟨9, rfl⟩) (takes _ _)
      (.next (.turn rfl ⟨9, rfl⟩) (takes _ _) .done)) ?_
    refine .round (by decide) (.next (.turn rfl ⟨9, rfl⟩) (takes _ _)
      (.next (.turn rfl ⟨9, rfl⟩) (takes _ _) .done)) ?_
    exact .settled (by decide)
  obtain ⟨table, _, only, _, alone, _, _, lockstep⟩ := feedback_ring (by decide) waits ends
  cases only _ _ records
  obtain ⟨passes, closes, _⟩ := lockstep (by decide)
  exact ⟨_, ends, rfl, (alone 1 10 rfl).1, passes 0 (by decide), closes⟩

end Intcode.Amplifier
