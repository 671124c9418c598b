import Intcode.Call

/-! What a call answers, apart from the bound it was given. A call ends if some bound
suffices. A steady call answers the same within every larger bound, so what it ends
with is unique and a sequence of steady calls ends where its parts do. -/

namespace Intcode

namespace Outcome

variable {ε α β : Type}

@[simp]
theorem ok_bind (value : α) (next : α → Except ε β) : (.ok value >>= next) = next value := rfl

@[simp]
theorem error_bind (error : ε) (next : α → Except ε β) :
    (.error error >>= next) = (.error error : Except ε β) := rfl

@[simp]
theorem map_ok (f : α → β) (value : α) : f <$> (.ok value : Except ε α) = .ok (f value) := rfl

@[simp]
theorem map_error (f : α → β) (error : ε) : f <$> (.error error : Except ε α) = .error error := rfl

theorem bind_eq_error_iff {outcome : Except ε α} {next : α → Except ε β} {error : ε} :
    (outcome >>= next) = .error error ↔
      outcome = .error error ∨ ∃ value, outcome = .ok value ∧ next value = .error error := by
  cases outcome <;> simp

theorem bind_eq_ok_iff {outcome : Except ε α} {next : α → Except ε β} {result : β} :
    (outcome >>= next) = .ok result ↔ ∃ value, outcome = .ok value ∧ next value = .ok result := by
  cases outcome <;> simp

theorem map_eq_error_iff {f : α → β} {outcome : Except ε α} {error : ε} :
    f <$> outcome = .error error ↔ outcome = .error error := by
  cases outcome <;> simp

theorem map_eq_ok_iff {f : α → β} {outcome : Except ε α} {result : β} :
    f <$> outcome = .ok result ↔ ∃ value, outcome = .ok value ∧ f value = result := by
  cases outcome <;> simp

end Outcome

namespace Call

variable {σ τ α β : Type}

/-- Some bound is enough for the call to answer `outcome` and leave `after`. -/
def Ends (call : Call σ α) (before : σ) (outcome : Except Fault α) (after : σ) : Prop :=
  ∃ bound, call bound before = some (outcome, after)

/-- A larger bound never changes an answer. -/
def Steady (call : Call σ α) : Prop :=
  ∀ ⦃bound larger : Nat⦄ ⦃before : σ⦄ ⦃result : Except Fault α × σ⦄, bound ≤ larger →
    call bound before = some result → call larger before = some result

theorem Ends.unique {call : Call σ α} (steady : call.Steady) {before after after' : σ}
    {outcome outcome' : Except Fault α} (ends : call.Ends before outcome after)
    (ends' : call.Ends before outcome' after') : outcome = outcome' ∧ after = after' := by
  obtain ⟨bound, answered⟩ := ends
  obtain ⟨bound', answered'⟩ := ends'
  have first := steady (Nat.le_max_left bound bound') answered
  have second := steady (Nat.le_max_right bound bound') answered'
  rw [first] at second
  cases second
  exact ⟨rfl, rfl⟩

theorem Ends.iff_same {call : Call σ α} (steady : call.Steady) {before after after' : σ}
    {outcome outcome' : Except Fault α} (ends : call.Ends before outcome after) :
    call.Ends before outcome' after' ↔ outcome' = outcome ∧ after' = after := by
  constructor
  · exact fun ends' => ends'.unique steady ends
  · rintro ⟨rfl, rfl⟩
    exact ends

theorem ends_of_view {γ : Type} (view : σ → γ) {call : Call σ α} {before : σ} {outcome : Except Fault α}
    {seen : γ} (bound : Nat)
    (answered : (call bound before).map (Prod.map id view) = some (outcome, seen)) :
    ∃ after, call.Ends before outcome after ∧ view after = seen := by
  obtain ⟨⟨reply, after⟩, found, same⟩ := Option.map_eq_some_iff.mp answered
  cases same
  exact ⟨after, ⟨bound, found⟩, rfl⟩

theorem exists_ends {call : Call σ α} {before : σ} {outcome : Except Fault α} (bound : Nat)
    (answered : (call bound before).map Prod.fst = some outcome) : ∃ after, call.Ends before outcome after := by
  obtain ⟨⟨_, after⟩, found, rfl⟩ := Option.map_eq_some_iff.mp answered
  exact ⟨after, bound, found⟩

/-- A call whose answer never looks at the bound is steady. -/
theorem steady_of_instant {call : Call σ α} (instant : ∀ bound larger, call bound = call larger) :
    call.Steady := by
  intro bound larger before result _ answered
  rw [instant larger bound]
  exact answered

theorem steady_pure (value : α) : (pure value : Call σ α).Steady :=
  steady_of_instant fun _ _ => rfl

theorem steady_throw (fault : Fault) : (throw fault : Call σ α).Steady :=
  steady_of_instant fun _ _ => rfl

theorem steady_bind {call : Call σ α} {next : α → Call σ β} (first : call.Steady)
    (rest : ∀ value, (next value).Steady) : (call >>= next).Steady := by
  intro bound larger before result enough answered
  rw [bind_apply] at answered ⊢
  cases found : call bound before with
  | none => rw [found] at answered; cases answered
  | some pair =>
    obtain ⟨outcome, middle⟩ := pair
    rw [first enough found]
    rw [found] at answered
    cases outcome with
    | error fault => exact answered
    | ok value => exact rest value enough answered

theorem steady_onPart {part : σ → τ} {replace : τ → σ → σ} {call : Call τ α} (steady : call.Steady) :
    (onPart part replace call).Steady := by
  intro bound larger before result enough answered
  obtain ⟨pair, found, rfl⟩ := Option.map_eq_some_iff.mp answered
  exact Option.map_eq_some_iff.mpr ⟨pair, steady enough found, rfl⟩

theorem steady_onOwn {own : τ} {call : Call τ α} (steady : call.Steady) : (onOwn own call : Call σ (α × τ)).Steady := by
  intro bound larger before result enough answered
  obtain ⟨pair, found, rfl⟩ := Option.map_eq_some_iff.mp answered
  exact Option.map_eq_some_iff.mpr ⟨pair, steady enough found, rfl⟩

theorem steady_foldlM {step : β → α → Call σ β} (each : ∀ state item, (step state item).Steady) (items : List α)
    (start : β) : (items.foldlM step start).Steady := by
  induction items generalizing start with
  | nil => exact steady_pure _
  | cons item items ih =>
    rw [List.foldlM_cons]
    exact steady_bind (each start item) ih

theorem ends_onPart {part : σ → τ} {replace : τ → σ → σ} {call : Call τ α} {before after : σ}
    {outcome : Except Fault α} :
    (onPart part replace call).Ends before outcome after ↔
      ∃ left, call.Ends (part before) outcome left ∧ after = replace left before := by
  constructor
  · intro ⟨bound, answered⟩
    obtain ⟨⟨reply, left⟩, found, same⟩ := Option.map_eq_some_iff.mp answered
    cases same
    exact ⟨left, ⟨bound, found⟩, rfl⟩
  · intro ⟨left, ⟨bound, found⟩, same⟩
    exact ⟨bound, Option.map_eq_some_iff.mpr ⟨_, found, by rw [same]⟩⟩

theorem ends_onOwn {own : τ} {call : Call τ α} {before after : σ} {outcome : Except Fault (α × τ)} :
    (onOwn own call).Ends before outcome after ↔
      ∃ reply left, call.Ends own reply left ∧ outcome = reply.map (·, left) ∧ after = before := by
  constructor
  · intro ⟨bound, answered⟩
    obtain ⟨⟨reply, left⟩, found, same⟩ := Option.map_eq_some_iff.mp answered
    cases same
    exact ⟨reply, left, ⟨bound, found⟩, rfl, rfl⟩
  · intro ⟨reply, left, ⟨bound, found⟩, made, same⟩
    exact ⟨bound, Option.map_eq_some_iff.mpr ⟨_, found, by rw [made, same]⟩⟩

@[simp]
theorem ends_pure {value : α} {before after : σ} {outcome : Except Fault α} :
    (pure value : Call σ α).Ends before outcome after ↔ outcome = .ok value ∧ after = before := by
  simp [Ends, eq_comm]

@[simp]
theorem ends_throw {fault : Fault} {before after : σ} {outcome : Except Fault α} :
    (throw fault : Call σ α).Ends before outcome after ↔ outcome = .error fault ∧ after = before := by
  simp [Ends, eq_comm]

@[simp]
theorem ends_get_bind {next : σ → Call σ α} {before after : σ} {outcome : Except Fault α} :
    (get >>= next).Ends before outcome after ↔ (next before).Ends before outcome after := by
  simp [Ends, bind_apply]

theorem ends_ofExcept {reply outcome : Except Fault α} {before after : σ} :
    (ofExcept reply).Ends before outcome after ↔ outcome = reply ∧ after = before := by
  simp [Ends, ofExcept, eq_comm]

theorem ends_bind_of_ok {call : Call σ α} {next : α → Call σ β} {before middle after : σ} {value : α}
    {outcome : Except Fault β} (found : ∀ bound, call bound before = some (.ok value, middle)) :
    (call >>= next).Ends before outcome after ↔ (next value).Ends middle outcome after := by
  simp only [Ends, bind_apply, found]

theorem ends_bind_of_error {call : Call σ α} {next : α → Call σ β} {before middle after : σ}
    {fault : Fault} {outcome : Except Fault β}
    (found : ∀ bound, call bound before = some (.error fault, middle)) :
    (call >>= next).Ends before outcome after ↔ outcome = .error fault ∧ after = middle := by
  simp [Ends, bind_apply, found, eq_comm]

theorem Ends.of_bind {call : Call σ α} {next : α → Call σ β} {before after : σ}
    {outcome : Except Fault β} (ends : (call >>= next).Ends before outcome after) :
    (∃ fault, outcome = .error fault ∧ call.Ends before (.error fault) after) ∨
    ∃ value middle, call.Ends before (.ok value) middle ∧ (next value).Ends middle outcome after := by
  obtain ⟨bound, answered⟩ := ends
  rw [bind_apply] at answered
  cases found : call bound before with
  | none => rw [found] at answered; cases answered
  | some pair =>
    obtain ⟨reply, middle⟩ := pair
    rw [found] at answered
    cases reply with
    | error fault =>
      cases answered
      exact Or.inl ⟨fault, rfl, bound, found⟩
    | ok value => exact Or.inr ⟨value, middle, ⟨bound, found⟩, bound, answered⟩

theorem Ends.of_bind_ok {call : Call σ α} {next : α → Call σ β} {before after : σ} {result : β}
    (ends : (call >>= next).Ends before (.ok result) after) :
    ∃ value middle, call.Ends before (.ok value) middle ∧ (next value).Ends middle (.ok result) after := by
  rcases ends.of_bind with ⟨fault, impossible, _⟩ | parts
  · cases impossible
  · exact parts

theorem map_apply (f : α → β) (call : Call σ α) (bound : Nat) (before : σ) :
    (f <$> call) bound before = (call bound before).map fun (outcome, after) => (f <$> outcome, after) := by
  change (call bound before).bind _ = _
  cases call bound before with
  | none => rfl
  | some result =>
    obtain ⟨outcome, after⟩ := result
    cases outcome <;> rfl

theorem Ends.of_map_ok {f : α → β} {call : Call σ α} {before after : σ} {result : β}
    (ends : (f <$> call).Ends before (.ok result) after) :
    ∃ value, call.Ends before (.ok value) after ∧ f value = result := by
  obtain ⟨bound, answered⟩ := ends
  rw [map_apply] at answered
  obtain ⟨⟨outcome, middle⟩, found, same⟩ := Option.map_eq_some_iff.mp answered
  obtain ⟨mapped, rfl⟩ := Prod.mk.inj same
  obtain ⟨value, rfl, made⟩ := Outcome.map_eq_ok_iff.mp mapped
  exact ⟨value, ⟨bound, found⟩, made⟩

/-- A sequence fails where its first call fails and otherwise goes on from there. -/
theorem ends_bind {call : Call σ α} {next : α → Call σ β} (first : call.Steady)
    (rest : ∀ value, (next value).Steady) {before after : σ} {outcome : Except Fault β} :
    (call >>= next).Ends before outcome after ↔
      (∃ fault, outcome = .error fault ∧ call.Ends before (.error fault) after) ∨
      ∃ value middle, call.Ends before (.ok value) middle ∧ (next value).Ends middle outcome after := by
  refine ⟨Ends.of_bind, ?_⟩
  rintro (⟨fault, rfl, bound, found⟩ | ⟨value, middle, ⟨bound, found⟩, bound', answered⟩)
  · exact ⟨bound, by rw [bind_apply, found]⟩
  · refine ⟨max bound bound', ?_⟩
    rw [bind_apply, first (Nat.le_max_left bound bound') found]
    exact rest value (Nat.le_max_right bound bound') answered

/-- A sequence returns just if its first call does and what follows does. -/
theorem returns_bind {call : Call σ α} {next : α → Call σ β} (first : call.Steady)
    (rest : ∀ value, (next value).Steady) {before after : σ} {result : β} :
    (call >>= next).Ends before (.ok result) after ↔
      ∃ value middle, call.Ends before (.ok value) middle ∧ (next value).Ends middle (.ok result) after := by
  refine ⟨Ends.of_bind_ok, fun parts => (ends_bind first rest).mpr (.inr parts)⟩

end Call
end Intcode
