import Intcode.Proofs.Orders
import Intcode.Proofs.Repeatable

/-! The search for the best order. It tries all the orders of the phases, one after the other, and
keeps the first of the best ones. An attempt answers alike whatever was tried before it, so that
what the search answers is said by what each attempt answers on its own. -/

namespace Intcode.Amplifier

variable {σ α β γ : Type}

/-- Of all the orders, this is the first that gives the greatest signal. -/
def FirstMost (signal : List Int → Int) (orders : List (List Int)) (best : Best) : Prop :=
  ∃ earlier later, orders = earlier ++ best.phases :: later ∧ best.signal = signal best.phases ∧
    (∀ order ∈ earlier, signal order < best.signal) ∧ ∀ order ∈ later, signal order ≤ best.signal

section Keeping

variable {signal : List Int → Int} {tried rest : List (List Int)} {order : List Int} {best : Best}

theorem FirstMost.most (first : FirstMost signal tried best) (member : order ∈ tried) : signal order ≤ best.signal := by
  obtain ⟨earlier, later, rfl, attained, less, most⟩ := first
  rw [List.mem_append, List.mem_cons] at member
  rcases member with member | rfl | member
  · exact Int.le_of_lt (less order member)
  · exact Int.le_of_eq attained.symm
  · exact most order member

theorem FirstMost.improve (first : FirstMost signal tried best) (named : best.phases ≠ []) (order : List Int) :
    FirstMost signal (tried ++ [order]) (best.improve (signal order) order) := by
  have kept : best.phases.isEmpty = false := List.isEmpty_eq_false_iff.mpr named
  unfold Best.improve
  rw [kept, Bool.or_false]
  -- What is greater than the best so far exceeds all that were tried. A tie leaves the earlier order.
  by_cases better : best.signal < signal order
  · rw [decide_eq_true better, if_pos rfl]
    refine ⟨tried, [], rfl, rfl, ?_, List.forall_mem_nil _⟩
    intro earlier member
    exact Int.lt_of_le_of_lt (first.most member) better
  · rw [decide_eq_false better, if_neg Bool.false_ne_true]
    obtain ⟨earlier, later, rfl, attained, less, most⟩ := first
    refine ⟨earlier, later ++ [order], by simp, attained, less, ?_⟩
    intro another member
    rcases List.mem_append.mp member with member | member
    · exact most another member
    · rw [List.mem_singleton.mp member]
      exact Int.not_lt.mp better

private theorem improve_named (named : best.phases ≠ []) {found : Int} (other : order ≠ []) :
    (best.improve found order).phases ≠ [] := by
  unfold Best.improve
  split
  · exact other
  · exact named

def keep (signal : List Int → Int) (best : Best) (order : List Int) : Best := best.improve (signal order) order

theorem FirstMost.foldl (first : FirstMost signal tried best) (named : best.phases ≠ [])
    (others : ∀ order ∈ rest, order ≠ []) : FirstMost signal (tried ++ rest) (rest.foldl (keep signal) best) := by
  induction rest generalizing tried best with
  | nil =>
    rw [List.append_nil]
    exact first
  | cons order rest ih =>
    obtain ⟨other, others⟩ := List.forall_mem_cons.mp others
    have onward := ih (first.improve named order) (improve_named named other) others
    rw [List.append_assoc] at onward
    exact onward

/-- The marker of having tried nothing yet is mistaken for an order only where there is no other. -/
theorem firstMost_orders (signal : List Int → Int) (phases : List Int) :
    FirstMost signal (orders phases) ((orders phases).foldl (keep signal) {}) := by
  have begins (order : List Int) : keep signal {} order = ⟨signal order, order⟩ := by
    simp [keep, Best.improve]
  have begun (order : List Int) : FirstMost signal [order] ⟨signal order, order⟩ :=
    ⟨[], [], rfl, rfl, List.forall_mem_nil _, List.forall_mem_nil _⟩
  by_cases none : phases = []
  · rw [none]
    change FirstMost signal [[]] (keep signal {} [])
    rw [begins]
    exact begun []
  · have nonempty : ∀ order ∈ orders phases, order ≠ [] := by
      rintro order member rfl
      exact none (mem_orders.mp member).nil_eq.symm
    cases all : orders phases with
    | nil =>
      have itself : phases ∈ orders phases := mem_orders.mpr (List.Perm.refl phases)
      rw [all] at itself
      cases itself
    | cons order rest =>
      rw [all] at nonempty
      obtain ⟨first, others⟩ := List.forall_mem_cons.mp nonempty
      rw [List.foldl_cons, begins]
      exact (begun order).foldl first others

end Keeping

section Trying

variable {attempt : List Int → Call σ Int} {phases order : List Int} {tried rest : List (List Int)} {best : Best}
  {before : σ} {outcome : Except Fault Best} {fault : Fault}

def trying (attempt : List Int → Call σ Int) (best : Best) (order : List Int) : Call σ Best :=
  return best.improve (← attempt order) order

private theorem foldlM_flatMap {step : β → γ → Call σ β} {each : α → List γ} (items : List α) (start : β) :
    (items.flatMap each).foldlM step start = items.foldlM (fun state item => (each item).foldlM step state) start := by
  induction items generalizing start with
  | nil => rfl
  | cons item items ih =>
    rw [List.flatMap_cons, List.foldlM_append, List.foldlM_cons]
    congr 1
    funext state
    exact ih state

private theorem searchFrom_eq (attempt : List Int → Call σ Int) (count : Nat) (chosen phases : List Int) (best : Best) :
    searchFrom attempt count chosen phases best =
      (ordersFrom count phases).foldlM (fun best order => trying attempt best (chosen.reverse ++ order)) best := by
  induction count generalizing chosen phases best with
  | zero => simp [searchFrom, ordersFrom, trying]
  | succ count ih =>
    rw [searchFrom, ordersFrom, foldlM_flatMap]
    congr 1
    funext best picked
    obtain ⟨phase, others⟩ := picked
    dsimp only
    rw [ih, List.foldlM_map]
    simp

theorem search_eq (attempt : List Int → Call σ Int) (phases : List Int) :
    search attempt phases = (orders phases).foldlM (trying attempt) {} :=
  searchFrom_eq attempt phases.length [] phases {}

variable (repeatable : ∀ order, (attempt order).Repeatable)
include repeatable

private theorem repeatable_trying (best : Best) (order : List Int) : (trying attempt best order).Repeatable :=
  Call.repeatable_bind (repeatable order) fun _ => closed_repeatable.pure _

private theorem repeatable_tries (best : Best) (orders : List (List Int)) :
    (orders.foldlM (trying attempt) best).Repeatable := by
  induction orders generalizing best with
  | nil => exact closed_repeatable.pure best
  | cons order rest ih =>
    rw [List.foldlM_cons]
    exact Call.repeatable_bind (repeatable_trying repeatable best order) ih

theorem tries_cons_iff : ((order :: rest).foldlM (trying attempt) best).Answers before outcome ↔
    (∃ fault, outcome = .error fault ∧ (attempt order).Answers before (.error fault)) ∨
    ∃ found, (attempt order).Answers before (.ok found) ∧
      (rest.foldlM (trying attempt) (best.improve found order)).Answers before outcome := by
  have same : (order :: rest).foldlM (trying attempt) best =
      attempt order >>= fun found => rest.foldlM (trying attempt) (best.improve found order) := by
    rw [List.foldlM_cons, trying, bind_assoc]
    simp only [pure_bind]
  rw [same]
  exact (repeatable order).bind_answers_iff fun found => repeatable_tries repeatable _ rest

private theorem tries_return {signal : List Int → Int}
    (each : ∀ order ∈ rest, (attempt order).Answers before (.ok (signal order))) :
    (rest.foldlM (trying attempt) best).Answers before (.ok (rest.foldl (keep signal) best)) := by
  induction rest generalizing best with
  | nil => exact ⟨before, 0, rfl⟩
  | cons order rest ih =>
    obtain ⟨first, others⟩ := List.forall_mem_cons.mp each
    exact (tries_cons_iff repeatable).mpr (.inr ⟨_, first, ih others⟩)

private theorem tries_returned {kept : Best} (answers : (rest.foldlM (trying attempt) best).Answers before (.ok kept)) :
    ∀ order ∈ rest, ∃ found, (attempt order).Answers before (.ok found) := by
  induction rest generalizing best with
  | nil => exact List.forall_mem_nil _
  | cons order rest ih =>
    rcases (tries_cons_iff repeatable).mp answers with ⟨fault, same, _⟩ | ⟨found, first, onward⟩
    · cases same
    · exact List.forall_mem_cons.mpr ⟨⟨found, first⟩, ih onward⟩

private theorem tries_fail (each : ∀ order ∈ tried, ∃ found, (attempt order).Answers before (.ok found))
    (fails : (attempt order).Answers before (.error fault)) :
    ((tried ++ order :: rest).foldlM (trying attempt) best).Answers before (.error fault) := by
  induction tried generalizing best with
  | nil => exact (tries_cons_iff repeatable).mpr (.inl ⟨fault, rfl, fails⟩)
  | cons earlier tried ih =>
    obtain ⟨⟨found, first⟩, others⟩ := List.forall_mem_cons.mp each
    exact (tries_cons_iff repeatable).mpr (.inr ⟨found, first, ih others⟩)

private theorem tries_failed (answers : (rest.foldlM (trying attempt) best).Answers before (.error fault)) :
    ∃ tried order others, rest = tried ++ order :: others ∧
      (∀ order ∈ tried, ∃ found, (attempt order).Answers before (.ok found)) ∧
      (attempt order).Answers before (.error fault) := by
  induction rest generalizing best with
  | nil =>
    obtain ⟨_, ends⟩ := answers
    cases (Call.ends_pure.mp ends).1
  | cons order rest ih =>
    rcases (tries_cons_iff repeatable).mp answers with ⟨cause, same, failed⟩ | ⟨found, first, onward⟩
    · cases same
      exact ⟨[], order, rest, rfl, List.forall_mem_nil _, failed⟩
    · obtain ⟨tried, failing, others, rfl, each, failed⟩ := ih onward
      exact ⟨order :: tried, failing, others, rfl, List.forall_mem_cons.mpr ⟨⟨found, first⟩, each⟩, failed⟩

end Trying

/-- The best order: `places` is the first order of the places, lexicographically, in which the phases
give a signal that no other order of them exceeds. -/
structure FirstBest (attempt : List Int → Call σ Int) (phases : List Int) (before : σ) (best : Best)
    (places : List (Fin phases.length)) : Prop where
  ordered : places.Perm (List.finRange phases.length)
  named : best.phases = placed phases places
  permuted : best.phases.Perm phases
  attains : (attempt best.phases).Answers before (.ok best.signal)
  most : ∀ order, order.Perm phases → ∃ signal, (attempt order).Answers before (.ok signal) ∧ signal ≤ best.signal
  first : ∀ earlier, earlier.Perm (List.finRange phases.length) → earlier < places →
    ∃ signal, (attempt (placed phases earlier)).Answers before (.ok signal) ∧ signal < best.signal

/-- The search tries every order: it answers with the first best one, or fails as the first order
that fails. -/
structure Exhausts (find : List Int → Call σ Best) (attempt : List Int → Call σ Int) (phases : List Int)
    (before : σ) : Prop where
  best : ∀ best, (find phases).Answers before (.ok best) → ∃ places, FirstBest attempt phases before best places
  returns : (∃ best, (find phases).Answers before (.ok best)) ↔
    ∀ order, order.Perm phases → ∃ signal, (attempt order).Answers before (.ok signal)
  fails : ∀ fault, (find phases).Answers before (.error fault) ↔
    ∃ places, places.Perm (List.finRange phases.length) ∧
      (attempt (placed phases places)).Answers before (.error fault) ∧
      ∀ earlier, earlier.Perm (List.finRange phases.length) → earlier < places →
        ∃ signal, (attempt (placed phases earlier)).Answers before (.ok signal)
  reordered : ∀ other best, other.Perm phases → (find phases).Answers before (.ok best) →
    ∃ again, (find other).Answers before (.ok again) ∧ again.signal = best.signal

section Exhaustion

variable {attempt : List Int → Call σ Int} {phases : List Int} {before : σ} {best : Best}

variable (repeatable : ∀ order, (attempt order).Repeatable)
include repeatable

theorem search_returns_iff : (∃ best, (search attempt phases).Answers before (.ok best)) ↔
    ∀ order, order.Perm phases → ∃ signal, (attempt order).Answers before (.ok signal) := by
  rw [search_eq]
  constructor
  · intro ⟨best, answers⟩ order ordered
    exact tries_returned repeatable answers order (mem_orders.mpr ordered)
  · intro each
    choose! signal answers using each
    exact ⟨_, tries_return repeatable fun order member => answers order (mem_orders.mp member)⟩

theorem search_best (answers : (search attempt phases).Answers before (.ok best)) :
    ∃ places, FirstBest attempt phases before best places := by
  rw [search_eq] at answers
  have each := tries_returned repeatable answers
  choose! signal gives using each
  have kept : (orders phases).foldl (keep signal) {} = best := by
    have same := (repeatable_tries repeatable {} (orders phases)).unique answers (tries_return repeatable gives)
    exact Except.ok.inj same
  -- From here on the search is the pure fold over the signals that the attempts give.
  have firstMost := firstMost_orders signal phases
  rw [kept] at firstMost
  have ⟨earlier, later, split, attained, less, _⟩ := firstMost
  have member : best.phases ∈ orders phases := by
    rw [split]
    simp
  obtain ⟨first, places, last, all, rfl, named⟩ := exists_places split
  refine ⟨places, ?_, named, mem_orders.mp member, ?_, ?_, ?_⟩
  · exact mem_orders.mp (all ▸ by simp)
  · rw [attained]
    exact gives best.phases member
  · intro order ordered
    exact ⟨signal order, gives order (mem_orders.mpr ordered), firstMost.most (mem_orders.mpr ordered)⟩
  · intro earlier ordered less'
    have stands := List.mem_map_of_mem (f := placed phases) ((mem_earlier_iff all).mpr ⟨ordered, less'⟩)
    exact ⟨_, gives _ (placed_mem_orders ordered), less _ stands⟩

private theorem search_fails_iff {fault : Fault} : (search attempt phases).Answers before (.error fault) ↔
    ∃ places, places.Perm (List.finRange phases.length) ∧
      (attempt (placed phases places)).Answers before (.error fault) ∧
      ∀ earlier, earlier.Perm (List.finRange phases.length) → earlier < places →
        ∃ signal, (attempt (placed phases earlier)).Answers before (.ok signal) := by
  rw [search_eq]
  constructor
  · intro answers
    obtain ⟨tried, order, others, split, each, failed⟩ := tries_failed repeatable answers
    obtain ⟨first, places, last, all, rfl, rfl⟩ := exists_places split
    refine ⟨places, mem_orders.mp (all ▸ by simp), failed, ?_⟩
    intro earlier ordered less
    exact each _ (List.mem_map_of_mem ((mem_earlier_iff all).mpr ⟨ordered, less⟩))
  · intro ⟨places, ordered, failed, each⟩
    obtain ⟨first, last, all⟩ := List.append_of_mem (mem_orders.mpr ordered)
    have split : orders phases = first.map (placed phases) ++ placed phases places :: last.map (placed phases) := by
      rw [orders_eq_places, all, List.map_append, List.map_cons]
    rw [split]
    apply tries_fail repeatable _ failed
    intro order member
    obtain ⟨earlier, stands, rfl⟩ := List.mem_map.mp member
    obtain ⟨ordered, less⟩ := (mem_earlier_iff all).mp stands
    exact each earlier ordered less

private theorem search_reordered {other : List Int} (same : other.Perm phases)
    (answers : (search attempt phases).Answers before (.ok best)) :
    ∃ again, (search attempt other).Answers before (.ok again) ∧ again.signal = best.signal := by
  have returns := (search_returns_iff repeatable).mp ⟨best, answers⟩
  obtain ⟨again, answers'⟩ := (search_returns_iff repeatable).mpr fun order ordered =>
    returns order (ordered.trans same)
  obtain ⟨_, here⟩ := search_best repeatable answers
  obtain ⟨_, there⟩ := search_best repeatable answers'
  obtain ⟨signal, gives, most⟩ := here.most again.phases (there.permuted.trans same)
  obtain ⟨signal', gives', most'⟩ := there.most best.phases (here.permuted.trans same.symm)
  cases (repeatable _).unique there.attains gives
  cases (repeatable _).unique here.attains gives'
  exact ⟨again, answers', Int.le_antisymm most most'⟩

private theorem search_exhausts (phases : List Int) (before : σ) : Exhausts (search attempt) attempt phases before where
  best := fun _ => search_best repeatable
  returns := search_returns_iff repeatable
  fails := fun _ => search_fails_iff repeatable
  reordered := fun _ _ => search_reordered repeatable

end Exhaustion

/-- The searches for the best order of a chain and of a feedback loop are exhaustive, whatever the
phases are and whether or not any signal is positive: they answer with the first best order if every
order gives a signal, and otherwise fail as the first order that fails. -/
theorem bestOrders_exhaust (program : Program) (phases : List Int) :
    (∀ before : σ, Exhausts (bestChain program) (chain program · 0) phases before) ∧
    ∀ log, Exhausts (bestFeedback program) (feedback program · 0) phases log := by
  constructor
  · intro before
    exact search_exhausts (fun order => closed_repeatable.chain program order 0) phases before
  · intro log
    exact search_exhausts (fun order => repeatable_feedback program order 0) phases log

/-- Where every order gives the same negative signal, the first order is kept with that. -/
theorem bestOrders_exhaust_ties :
    (bestChain ⟨[3, 9, 3, 9, 104, -1, 99]⟩ [1, 0]).Answers () (.ok ⟨-1, [1, 0]⟩) ∧
    ∀ order, order.Perm [1, 0] →
      ∃ signal, (chain ⟨[3, 9, 3, 9, 104, -1, 99]⟩ order 0).Answers () (.ok signal) ∧ signal ≤ -1 := by
  have answers : (bestChain ⟨[3, 9, 3, 9, 104, -1, 99]⟩ [1, 0]).Answers () (.ok ⟨-1, [1, 0]⟩) :=
    ⟨(), 9, by decide +kernel⟩
  obtain ⟨_, first⟩ := ((bestOrders_exhaust ⟨[3, 9, 3, 9, 104, -1, 99]⟩ [1, 0]).1 ()).best _ answers
  exact ⟨answers, first.most⟩
end Intcode.Amplifier
