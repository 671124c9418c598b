import Intcode.Amplifier
import Intcode.Proofs.Closure

/-! Chains of amplifiers compose. A chain primes all of its amplifiers before the first one gets its
signal, but each of them is a machine of its own: priming those that come later can be put off until
the signal reaches them. -/

namespace Intcode

variable {σ τ α β γ : Type}

namespace Call

/-- However the call ends, the state is as it was. -/
def Keeps (call : Call σ α) : Prop :=
  ∀ {before outcome after}, call.Ends before outcome after → after = before

private theorem keeps_pure (value : α) : (pure value : Call σ α).Keeps := fun ends => (ends_pure.mp ends).2

private theorem keeps_throw (fault : Fault) : (throw fault : Call σ α).Keeps := fun ends => (ends_throw.mp ends).2

theorem keeps_bind {call : Call σ α} {next : α → Call σ β} (first : call.Keeps) (rest : ∀ value, (next value).Keeps) :
    (call >>= next).Keeps := by
  intro before outcome after ends
  rcases ends.of_bind with ⟨fault, _, failed⟩ | ⟨value, middle, went, ends⟩
  · exact first failed
  · rw [rest value ends, first went]

private theorem keeps_onOwn (own : τ) (call : Call τ α) : (onOwn own call : Call σ (α × τ)).Keeps := by
  intro before outcome after ends
  obtain ⟨_, _, _, _, same⟩ := ends_onOwn.mp ends
  exact same

theorem returns_swap {first : Call σ α} {second : Call σ β} {next : α → β → Call σ γ} (steady : first.Steady)
    (steady' : second.Steady) (onward : ∀ a b, (next a b).Steady) (keeps : first.Keeps) (keeps' : second.Keeps)
    {before after : σ} {result : γ}
    (ends : (first >>= fun a => second >>= fun b => next a b).Ends before (.ok result) after) :
    (second >>= fun b => first >>= fun a => next a b).Ends before (.ok result) after := by
  obtain ⟨a, middle, one, ends⟩ := ends.of_bind_ok
  obtain ⟨b, last, two, ends⟩ := ends.of_bind_ok
  cases keeps one
  cases keeps' two
  rw [returns_bind steady' fun b => steady_bind steady fun a => onward a b]
  refine ⟨b, before, two, ?_⟩
  rw [returns_bind steady fun a => onward a b]
  exact ⟨a, before, one, ends⟩

end Call

namespace Amplifier

/-- A property of calls that sequencing keeps, and that calls on a machine of their own have where
those are steady. -/
structure Closed (holds : (α : Type) → Call σ α → Prop) : Prop where
  pure : ∀ {α : Type} (value : α), holds α (Pure.pure value)
  throw : ∀ {α : Type} (fault : Fault), holds α (MonadExcept.throw fault)
  bind : ∀ {α β : Type} {call : Call σ α} {next : α → Call σ β}, holds α call →
    (∀ value, holds β (next value)) → holds β (call >>= next)
  own : ∀ {α : Type} (session : Session) {call : Call Session α}, call.Steady → holds _ (Call.onOwn session call)

def passOn (rest : List Session) : (Option Int × Bool) × Session → Call σ Int
  | ((none, _), _) => throw .noSignal
  | ((some output, _), _) => relay output rest

theorem relay_cons (signal : Int) (session : Session) (rest : List Session) :
    (relay signal (session :: rest) : Call σ Int) = Call.onOwn session (Session.step signal) >>= passOn rest := rfl

namespace Closed

variable {holds : (α : Type) → Call σ α → Prop} (closed : Closed holds)
include closed

theorem mapM {call : α → Call σ β} (each : ∀ item, holds β (call item)) (items : List α) :
    holds _ (items.mapM call) := by
  induction items with
  | nil => exact closed.pure _
  | cons item items ih =>
    rw [List.mapM_cons]
    exact closed.bind (each item) fun _ => closed.bind ih fun _ => closed.pure _

theorem prime (program : Program) (phase : Int) : holds _ (prime program phase) := by
  apply closed.bind
  · apply closed.own
    apply Call.steady_bind (Session.steady_resume none)
    intro found
    cases found with
    | awaitingInput address => exact Session.closed_steady.map _ (Session.steady_resume _)
    | producedOutput value | complete => exact Call.steady_throw _
  · exact fun _ => closed.pure _

theorem primes (program : Program) (phases : List Int) : holds _ (phases.mapM (Amplifier.prime program)) :=
  closed.mapM (closed.prime program) phases

theorem relay (signal : Int) (sessions : List Session) : holds _ (relay signal sessions) := by
  induction sessions generalizing signal with
  | nil => exact closed.pure _
  | cons session rest ih =>
    rw [relay_cons]
    apply closed.bind (closed.own session (Session.closed_steady.step signal))
    rintro ⟨⟨_ | output, _⟩, _⟩
    · exact closed.throw _
    · exact ih output

theorem chain (program : Program) (phases : List Int) (signal : Int) : holds _ (chain program phases signal) :=
  closed.bind (closed.primes program phases) (closed.relay signal)

end Closed

theorem closed_steady : Closed fun _ (call : Call σ _) => call.Steady where
  pure := Call.steady_pure
  throw := Call.steady_throw
  bind := Call.steady_bind
  own := fun _ _ steady => Call.steady_onOwn steady

theorem closed_keeps : Closed fun _ (call : Call σ _) => call.Keeps where
  pure := Call.keeps_pure
  throw := Call.keeps_throw
  bind := Call.keeps_bind
  own := fun session call _ => Call.keeps_onOwn session call

variable {program : Program} {signal : Int}

private theorem relay_append (signal : Int) (first second : List Session) :
    (relay signal (first ++ second) : Call σ Int) = relay signal first >>= fun passed => relay passed second := by
  induction first generalizing signal with
  | nil => rw [List.nil_append, relay, pure_bind]
  | cons session rest ih =>
    rw [List.cons_append, relay_cons, relay_cons, bind_assoc]
    congr 1
    funext ⟨⟨given, done⟩, left⟩
    cases given with
    | none => rfl
    | some output => exact ih output

private theorem chain_append (program : Program) (first second : List Int) (signal : Int) :
    (chain program (first ++ second) signal : Call σ Int) = (do
      let sessions ← first.mapM (prime program)
      let others ← second.mapM (prime program)
      let passed ← relay signal sessions
      relay passed others) := by
  simp only [chain, List.mapM_append, bind_assoc, pure_bind, relay_append]

private theorem chain_bind_chain (program : Program) (first second : List Int) (signal : Int) :
    (chain program first signal >>= chain program second : Call σ Int) = (do
      let sessions ← first.mapM (prime program)
      let passed ← relay signal sessions
      let others ← second.mapM (prime program)
      relay passed others) := by
  simp only [chain, bind_assoc]
  rfl

theorem returns_chain_append {first second : List Int} {before after : σ} {result : Int} :
    (chain program (first ++ second) signal).Ends before (.ok result) after ↔
      (chain program first signal >>= chain program second).Ends before (.ok result) after := by
  have early (sessions : List Session) : (do
      let others ← second.mapM (prime program)
      let passed ← relay signal sessions
      relay passed others : Call σ Int).Steady :=
    Call.steady_bind (closed_steady.primes program second) fun _ =>
      Call.steady_bind (closed_steady.relay signal sessions) fun _ => closed_steady.relay _ _
  have late (sessions : List Session) : (do
      let passed ← relay signal sessions
      let others ← second.mapM (prime program)
      relay passed others : Call σ Int).Steady :=
    Call.steady_bind (closed_steady.relay signal sessions) fun _ =>
      Call.steady_bind (closed_steady.primes program second) fun _ => closed_steady.relay _ _
  -- Both prime the first part and step the second part last. In between they differ by one swap.
  rw [chain_append, chain_bind_chain, Call.returns_bind (closed_steady.primes program first) early,
    Call.returns_bind (closed_steady.primes program first) late]
  apply exists_congr
  intro sessions
  apply exists_congr
  intro middle
  apply and_congr_right
  intro _
  constructor
  · exact Call.returns_swap (closed_steady.primes program second) (closed_steady.relay signal sessions)
      (fun _ _ => closed_steady.relay _ _) (closed_keeps.primes program second) (closed_keeps.relay signal sessions)
  · exact Call.returns_swap (closed_steady.relay signal sessions) (closed_steady.primes program second)
      (fun _ _ => closed_steady.relay _ _) (closed_keeps.relay signal sessions) (closed_keeps.primes program second)

private theorem returns_chain_folded {phases : List Int} {before after : σ} {result : Int} :
    (chain program phases signal).Ends before (.ok result) after ↔
      (phases.foldlM (fun signal phase => chain program [phase] signal) signal).Ends before (.ok result) after := by
  have steady (phases : List Int) (signal : Int) : (chain program phases signal : Call σ Int).Steady :=
    closed_steady.chain program phases signal
  induction phases generalizing signal before with
  | nil => rfl
  | cons phase rest ih =>
    rw [List.foldlM_cons, Call.returns_bind (steady [phase] signal) (Call.steady_foldlM (fun _ _ => steady _ _) rest)]
    rw [← List.singleton_append, returns_chain_append, Call.returns_bind (steady [phase] signal) (steady rest)]
    apply exists_congr
    intro passed
    apply exists_congr
    intro middle
    apply and_congr_right
    intro _
    exact ih

/-- A chain of the phases of two lists returns just if the chain of the first list returns a signal
that the chain of the second turns into the result. So it is one amplifier after the other, however
many of them were primed before, and without phases the signal is the result. -/
theorem chain_composes (program : Program) (signal : Int) (before after : σ) :
    (∀ first second result, (chain program (first ++ second) signal).Ends before (.ok result) after ↔
      ∃ passed, (chain program first signal).Ends before (.ok passed) before ∧
        (chain program second passed).Ends before (.ok result) after) ∧
    (∀ phases result, (chain program phases signal).Ends before (.ok result) after ↔
      (phases.foldlM (fun signal phase => chain program [phase] signal) signal).Ends before (.ok result) after) ∧
    ∀ outcome, (chain program [] signal).Ends before outcome after ↔ outcome = .ok signal ∧ after = before := by
  refine ⟨fun first second result => ?_, fun phases result => returns_chain_folded, fun outcome => Call.ends_pure⟩
  rw [returns_chain_append,
    Call.returns_bind (closed_steady.chain program first signal) (closed_steady.chain program second)]
  apply exists_congr
  intro passed
  constructor
  · intro ⟨middle, one, two⟩
    cases closed_keeps.chain program first signal one
    exact ⟨one, two⟩
  · intro ⟨one, two⟩
    exact ⟨before, one, two⟩

/-- Of two amplifiers that append their phases to the decimal digits of the signal, each does so in
a chain of its own, too. -/
theorem chain_composes_digits :
    (chain ⟨[3, 15, 3, 16, 1002, 16, 10, 16, 1, 16, 15, 15, 4, 15, 99]⟩ [4, 3] 0 : Call Unit Int).Ends ()
      (.ok 43) () := by
  apply ((chain_composes _ 0 () ()).1 [4] [3] 43).mpr
  exact ⟨4, ⟨9, by decide +kernel⟩, ⟨9, by decide +kernel⟩⟩

end Amplifier
end Intcode
