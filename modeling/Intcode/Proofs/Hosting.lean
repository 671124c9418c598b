import Intcode.Machine.Dump
import Intcode.Proofs.Pairing
import Intcode.Proofs.RaisedLimit

/-! Everything that a host may do with one session, in any order and whether it succeeds or
fails, and what the host can observe of it. Sessions that stay related under each action
alone stay related, and are observed alike, through all of them. -/

namespace Intcode.Session

open Call (Paired)

/-- The host looks at a machine or changes it, and does not let it run. -/
inductive Access where
  | read (address : Int)
  | store (address value : Int)
  | dump
  | execute (instruction : Instruction)
  | setPc (pc : Int)
  | setBase (base : Int)
  | setLimit (limit : Option Int)
deriving DecidableEq, Repr

inductive Action where
  | access (what : Access)
  | resume (value : Option Int)
  | step (value : Int)
  | stepRead (count : Int)
  | stepN (values : List Int) (count : Int)
  | waitForInput
  | drive (inputs : List Int)
deriving DecidableEq, Repr

/-- What an action answers. A drive that fails still delivered its outputs, and a dump that fails left the
text before the number that it failed for. -/
inductive Answer where
  | done
  | word (value : Int)
  | dumped (outcome : Except Fault Unit) (text : String)
  | target (address : Option Int)
  | stopped (suspension : Suspension)
  | stepped (output : Option Int) (halted : Bool)
  | collected (outputs : Option (List Int))
  | asked (requested : Bool)
  | drove (outcome : Except Fault Unit) (outputs : List Int)

/-- The words that the machine emitted, as far as the answer reports them. -/
def Answer.words : Answer → List Int
  | stopped suspension => suspension.words
  | stepped output _ => output.toList
  | collected outputs => outputs.getD []
  | drove _ outputs => outputs
  | _ => []

def Access.perform : Access → Call Session Answer
  | read address => do return .word (← Call.ofExcept ((← get).machine.memory.read address))
  | store address value => (fun _ => .done) <$> Session.store address value
  | dump => do
    let machine := (← get).machine
    return .dumped machine.dumped machine.dump
  | execute instruction => fun _ session =>
    let (outcome, after) := session.execute instruction
    some (.target <$> outcome, after)
  | setPc pc => do
    modify fun session => session.withMachine { session.machine with pc }
    return .done
  | setBase relativeBase => do
    modify fun session => session.withMachine { session.machine with relativeBase }
    return .done
  | setLimit limit => do
    modify (·.limited limit)
    return .done

/-- Connect the session to inputs, let it run to its end and take it back. -/
def driven (inputs : List Int) : Call Session Answer := fun bound session =>
  (Exchange.drive bound { session, inputs }).map fun (outcome, after) =>
    (.ok (.drove outcome after.outputs.toList), after.session)

def Action.perform : Action → Call Session Answer
  | access what => what.perform
  | resume value => .stopped <$> Session.resume value
  | step value => (fun (output, halted) => .stepped output halted) <$> Session.step value
  | stepRead count => .collected <$> Session.stepRead count
  | stepN values count => .collected <$> Session.stepN values count
  | waitForInput => .asked <$> Session.waitForInput
  | drive inputs => driven inputs

def Action.Runs (action : Action) : Prop := ∀ what, action ≠ .access what

/-- What the host observes when an action is over. -/
structure Observation where
  outcome : Except Fault Answer
  pc : Int
  relativeBase : Int
  steps : Nat
  suspension : Option Suspension

def observe (outcome : Except Fault Answer) (session : Session) : Observation where
  outcome
  pc := session.machine.pc
  relativeBase := session.machine.relativeBase
  steps := session.machine.steps
  suspension := session.machine.suspension

def Observation.words (observation : Observation) : List Int :=
  match observation.outcome with
  | .ok answer => answer.words
  | .error _ => []

/-- Actions performed one after the other, and what is observed after each. -/
inductive History : Session → List Action → List Observation → Session → Prop where
  | start : History session [] [] session
  | next (ends : action.perform.Ends before outcome middle)
    (history : History middle actions observations after) :
    History before (action :: actions) (observe outcome middle :: observations) after

/-- What each of the actions preserves, all of them preserve. -/
theorem History.preserves {before after : Session} {actions : List Action}
    {observations : List Observation} (holds : Session → Prop)
    (history : History before actions observations after)
    (kept : ∀ action ∈ actions, ∀ {session outcome left}, holds session →
      action.perform.Ends session outcome left → holds left)
    (initially : holds before) : holds after := by
  induction history with
  | start => exact initially
  | next ends _ ih =>
    have middle := kept _ List.mem_cons_self initially ends
    exact ih (fun action member => kept action (List.mem_cons_of_mem _ member)) middle

section Matching

variable (matched : Int → Int → Prop)

/-- Accesses that are the same, or store matching words at one address. -/
inductive Access.Matches : Access → Access → Prop where
  | same (what : Access) : Matches what what
  | store (address : Int) (same : matched value value') :
    Matches (.store address value) (.store address value')

/-- Actions that are the same but for matching words supplied to the machine. -/
inductive Action.Matches : Action → Action → Prop where
  | access (same : what.Matches matched what') : Matches (.access what) (.access what')
  | unfed : Matches (.resume none) (.resume none)
  | fed (same : matched value value') : Matches (.resume (some value)) (.resume (some value'))
  | step (same : matched value value') : Matches (.step value) (.step value')
  | stepRead (count : Int) : Matches (.stepRead count) (.stepRead count)
  | stepN (same : List.Forall₂ matched values values') (count : Int) :
    Matches (.stepN values count) (.stepN values' count)
  | waitForInput : Matches .waitForInput .waitForInput
  | drive (same : List.Forall₂ matched inputs inputs') : Matches (.drive inputs) (.drive inputs')

variable {matched}

theorem Action.matches_refl (same : ∀ value, matched value value) (action : Action) :
    action.Matches matched action := by
  have each (values : List Int) : List.Forall₂ matched values values :=
    List.forall₂_same.mpr fun value _ => same value
  cases action with
  | access what => exact .access (.same what)
  | resume value => cases value with
    | none => exact .unfed
    | some value => exact .fed (same value)
  | step value => exact .step (same value)
  | stepRead count => exact .stepRead count
  | stepN values count => exact .stepN (each values) count
  | waitForInput => exact .waitForInput
  | drive inputs => exact .drive (each inputs)

theorem Action.matches_self (action : Action) : action.Matches Eq action :=
  action.matches_refl fun _ => rfl

theorem Access.Matches.symm {what what' : Access} (same : what.Matches matched what')
    (symmetric : ∀ {left right}, matched left right → matched right left) :
    what'.Matches matched what := by
  cases same with
  | same what => exact .same what
  | store address same => exact .store address (symmetric same)

theorem Action.Matches.symm {action action' : Action} (same : action.Matches matched action')
    (symmetric : ∀ {left right}, matched left right → matched right left) :
    action'.Matches matched action := by
  have each {values values' : List Int} (same : List.Forall₂ matched values values') :
      List.Forall₂ matched values' values := (same.imp fun _ _ => symmetric).flip
  cases same with
  | access same => exact .access (same.symm symmetric)
  | unfed => exact .unfed
  | fed same => exact .fed (symmetric same)
  | step same => exact .step (symmetric same)
  | stepRead count => exact .stepRead count
  | stepN same count => exact .stepN (each same) count
  | waitForInput => exact .waitForInput
  | drive same => exact .drive (each same)

end Matching

namespace Companions

variable {related : Session → Session → Prop} {matched : Int → Int → Prop} {fits : Int → Prop}
  {left right : Session}

theorem driven (companions : Companions related matched fits) {inputs inputs' : List Int}
    (same : List.Forall₂ matched inputs inputs') (start : related left right) :
    Paired related (fun answer _ => ∀ word ∈ answer.words, fits word)
      (Session.driven inputs) (Session.driven inputs') left right := by
  have beside : Exchange.Beside related matched fits { session := left, inputs }
      { session := right, inputs := inputs' } := ⟨start, same, rfl, rfl, nofun⟩
  intro bound
  have both := beside.drive companions bound
  unfold Session.driven
  generalize Exchange.drive bound { session := left, inputs } = reply,
    Exchange.drive bound { session := right, inputs := inputs' } = reply' at both ⊢
  cases both with
  | unfinished => exact .unfinished
  | fails kept | answers kept =>
    have delivered := congrArg Array.toList kept.outputs
    simp only [Option.map_some, delivered]
    exact .answers kept.session fun word member => kept.fit word (Array.mem_toList_iff.mp member)

theorem perform (companions : Companions related matched fits) {action action' : Action}
    (runs : action.Runs) (same : action.Matches matched action') (start : related left right) :
    Paired related (fun answer _ => ∀ word ∈ answer.words, fits word) action.perform action'.perform
      left right := by
  cases same with
  | access same => exact (runs _ rfl).elim
  | unfed => exact (companions.unfed start).map fun _ _ stops => stops.2
  | fed same => exact (companions.fed same start).map fun _ _ stops => stops.2
  | step same => exact (companions.step same start).map fun _ _ fit => fit
  | stepRead count => exact (companions.stepRead count start).map fun _ _ fit => fit
  | stepN same count => exact (companions.stepN count same start).map fun _ _ fit => fit
  | waitForInput => exact (companions.waitForInput start).map fun _ _ _ => nofun
  | drive same => exact companions.driven same start

theorem of_kept {holds : Session → Prop} (kept : ∀ {value session outcome after}, holds session →
      (Session.resume value).Ends session outcome after → holds after) :
    Companions (fun left right => right = left ∧ holds left) Eq (fun _ => True) where
  suspension := fun ⟨same, _⟩ => by rw [same]
  unfed := fun ⟨same, initially⟩ => by
    rw [same]
    refine .of_kept fun ends => ⟨kept initially ends, ?_⟩
    rintro suspension rfl
    exact ⟨(resume_emits ends).1, fun _ _ => trivial⟩
  fed := fun words ⟨same, initially⟩ => by
    rw [same, ← words]
    refine .of_kept fun ends => ⟨kept initially ends, ?_⟩
    rintro suspension rfl
    exact ⟨(resume_emits ends).1, fun _ _ => trivial⟩

end Companions

theorem Action.Runs.preserves {action : Action} (runs : action.Runs) {holds : Session → Prop}
    (kept : ∀ {value session outcome after}, holds session →
      (Session.resume value).Ends session outcome after → holds after)
    {session after : Session} {outcome : Except Fault Answer} (initially : holds session)
    (ends : action.perform.Ends session outcome after) : holds after := by
  have beside : session = session ∧ holds session := ⟨rfl, initially⟩
  have paired := (Companions.of_kept kept).perform runs action.matches_self beside
  obtain ⟨_, _, ⟨_, held⟩, _⟩ := paired.ends ends
  exact held

/-- Companions that the host cannot tell apart by its accesses either. -/
structure Indistinct (related : Session → Session → Prop) (matched : Int → Int → Prop)
    (fits : Int → Prop) : Prop extends Companions related matched fits where
  observe : related left right → ∀ outcome, observe outcome right = observe outcome left
  access : Access.Matches matched what what' → related left right →
    Paired related (fun answer _ => answer.words = []) what.perform what'.perform left right

namespace Indistinct

variable {related : Session → Session → Prop} {matched : Int → Int → Prop} {fits : Int → Prop}
  {left right after : Session}

theorem perform (indistinct : Indistinct related matched fits) {action action' : Action}
    (same : action.Matches matched action') (start : related left right) :
    Paired related (fun answer _ => ∀ word ∈ answer.words, fits word) action.perform action'.perform
      left right := by
  by_cases runs : action.Runs
  · exact indistinct.toCompanions.perform runs same start
  · cases same with
    | access same =>
      refine (indistinct.access same start).weaken fun answer _ none => ?_
      rw [none]
      exact nofun
    | _ => exact (runs nofun).elim

private theorem observe_fit {outcome : Except Fault Answer}
    (met : ∀ answer, outcome = .ok answer → ∀ word ∈ answer.words, fits word) :
    ∀ word ∈ (Session.observe outcome after).words, fits word := by
  cases outcome with
  | error fault => exact nofun
  | ok answer => exact met answer rfl

theorem history (indistinct : Indistinct related matched fits) {actions actions' : List Action}
    {observations : List Observation} (same : List.Forall₂ (Action.Matches matched) actions actions')
    (start : related left right) (history : History left actions observations after) :
    (∃ after', History right actions' observations after' ∧ related after after') ∧
      ∀ observation ∈ observations, ∀ word ∈ observation.words, fits word := by
  induction history generalizing actions' right with
  | start =>
    cases same
    exact ⟨⟨right, .start, start⟩, List.forall_mem_nil _⟩
  | next ends _ ih =>
    cases same with
    | cons first rest =>
      obtain ⟨middle', ended, kept, met⟩ := (indistinct.perform first start).ends ends
      obtain ⟨⟨after', others, related⟩, fits⟩ := ih rest kept
      rw [← indistinct.observe kept]
      refine ⟨⟨after', .next ended others, related⟩, ?_⟩
      intro observation member
      rcases List.mem_cons.mp member with rfl | member
      · exact observe_fit met
      · exact fits observation member

end Indistinct
end Intcode.Session
