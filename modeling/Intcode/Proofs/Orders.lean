import Mathlib.Data.List.FinRange
import Intcode.Amplifier.Search

/-! The orders that a search tries. They are all the permutations of the phases, and an order comes
before another one if it takes an earlier phase at the first place where they differ. -/

namespace Intcode.Amplifier

variable {α β : Type}

theorem mem_picks {l others : List α} {x : α} :
    (x, others) ∈ picks l ↔ ∃ before after, l = before ++ x :: after ∧ others = before ++ after := by
  induction l generalizing others with
  | nil => simp [picks]
  | cons y rest ih =>
    rw [picks, List.mem_cons, List.mem_map]
    constructor
    · rintro (same | ⟨⟨z, left⟩, picked, same⟩)
      · cases same
        exact ⟨[], rest, rfl, rfl⟩
      · cases same
        obtain ⟨before, after, rfl, rfl⟩ := ih.mp picked
        exact ⟨y :: before, after, rfl, rfl⟩
    · rintro ⟨before, after, split, rfl⟩
      cases before with
      | nil =>
        cases split
        exact .inl rfl
      | cons first before =>
        cases split
        exact .inr ⟨(x, before ++ after), ih.mpr ⟨before, after, rfl, rfl⟩, rfl⟩

private theorem picks_map (f : α → β) (l : List α) :
    picks (l.map f) = (picks l).map fun (x, others) => (f x, others.map f) := by
  induction l with
  | nil => rfl
  | cons y rest ih =>
    simp only [List.map_cons, picks, ih, List.map_map]
    rfl

private theorem picks_fst (l : List α) : (picks l).map Prod.fst = l := by
  induction l with
  | nil => rfl
  | cons y rest ih =>
    rw [picks, List.map_cons, List.map_map]
    exact congrArg (y :: ·) ih

/-- The orders of so many elements of a list, in the sequence in which they are tried. -/
def ordersFrom : (count : Nat) → (rest : List α) → List (List α)
  | 0, _ => [[]]
  | count + 1, rest => (picks rest).flatMap fun (x, others) => (ordersFrom count others).map (x :: ·)

def orders (l : List α) : List (List α) := ordersFrom l.length l

private theorem mem_ordersFrom_succ {count : Nat} {l order : List α} :
    order ∈ ordersFrom (count + 1) l ↔
      ∃ x others rest, (x, others) ∈ picks l ∧ rest ∈ ordersFrom count others ∧ order = x :: rest := by
  rw [ordersFrom, List.mem_flatMap]
  constructor
  · rintro ⟨⟨x, others⟩, picked, member⟩
    obtain ⟨rest, ordered, rfl⟩ := List.mem_map.mp member
    exact ⟨x, others, rest, picked, ordered, rfl⟩
  · rintro ⟨x, others, rest, picked, ordered, rfl⟩
    exact ⟨(x, others), picked, List.mem_map.mpr ⟨rest, ordered, rfl⟩⟩

theorem mem_orders {l order : List α} : order ∈ orders l ↔ order.Perm l := by
  unfold orders
  -- What a pick leaves is shorter, but in general no part of the list in one piece.
  induction count : l.length generalizing l order with
  | zero =>
    cases List.length_eq_zero_iff.mp count
    rw [ordersFrom, List.mem_singleton, List.perm_nil]
  | succ length ih =>
    have left {before after : List α} {x : α} (split : l = before ++ x :: after) :
        (before ++ after).length = length := by
      rw [split, List.length_append, List.length_cons] at count
      rw [List.length_append]
      omega
    rw [mem_ordersFrom_succ]
    constructor
    · rintro ⟨x, others, rest, picked, ordered, rfl⟩
      obtain ⟨before, after, split, rfl⟩ := mem_picks.mp picked
      have same : rest.Perm (before ++ after) := (ih (left split)).mp ordered
      rw [split]
      exact (same.cons x).trans List.perm_middle.symm
    · intro same
      cases order with
      | nil =>
        cases same.symm.eq_nil
        cases count
      | cons x rest =>
        obtain ⟨before, after, split⟩ := List.append_of_mem (same.subset List.mem_cons_self)
        have shorter : rest.Perm (before ++ after) := by
          rw [split] at same
          exact (same.trans List.perm_middle).cons_inv
        exact ⟨x, _, rest, mem_picks.mpr ⟨before, after, split, rfl⟩, (ih (left split)).mpr shorter, rfl⟩

private theorem ordersFrom_map (f : α → β) (count : Nat) (l : List α) :
    ordersFrom count (l.map f) = (ordersFrom count l).map (List.map f) := by
  induction count generalizing l with
  | zero => rfl
  | succ count ih =>
    simp only [ordersFrom, picks_map, List.flatMap_map, List.map_flatMap, ih, List.map_map]
    rfl

/-- What stands at these places of a list. -/
def placed (l : List α) (places : List (Fin l.length)) : List α := places.map l.get

theorem orders_eq_places (l : List α) : orders l = (orders (List.finRange l.length)).map (placed l) := by
  have same : ordersFrom l.length ((List.finRange l.length).map l.get) = orders l := by
    rw [List.map_get_finRange, orders]
  rw [← same, ordersFrom_map, orders, List.length_finRange]
  rfl

theorem placed_mem_orders {l : List α} {places : List (Fin l.length)}
    (ordered : places.Perm (List.finRange l.length)) : placed l places ∈ orders l := by
  rw [orders_eq_places]
  exact List.mem_map.mpr ⟨places, mem_orders.mpr ordered, rfl⟩

theorem exists_places {l order : List α} {earlier later : List (List α)}
    (split : orders l = earlier ++ order :: later) :
    ∃ first places last, orders (List.finRange l.length) = first ++ places :: last ∧
      earlier = first.map (placed l) ∧ order = placed l places := by
  rw [orders_eq_places] at split
  obtain ⟨first, rest, all, rfl, onward⟩ := List.map_eq_append_iff.mp split
  obtain ⟨places, last, rfl, rfl, _⟩ := List.map_eq_cons_iff.mp onward
  exact ⟨first, places, last, all, rfl, rfl⟩

private theorem ordersFrom_increasing [LT α] {count : Nat} {l : List α} (increasing : l.Pairwise (· < ·)) :
    (ordersFrom count l).Pairwise (· < ·) := by
  induction count generalizing l with
  | zero => exact List.pairwise_singleton _ _
  | succ count ih =>
    rw [ordersFrom, List.pairwise_flatMap]
    constructor
    · intro ⟨x, others⟩ picked
      obtain ⟨before, after, rfl, rfl⟩ := mem_picks.mp picked
      have fewer : (before ++ after).Sublist (before ++ x :: after) :=
        (List.sublist_cons_self x after).append_left before
      rw [List.pairwise_map]
      apply (ih (increasing.sublist fewer)).imp
      intro order later earlier
      exact List.cons_lt_cons_iff.mpr (.inr ⟨rfl, earlier⟩)
    · have firsts : (picks l).Pairwise fun picked other => picked.1 < other.1 := by
        rw [← List.pairwise_map, picks_fst]
        exact increasing
      apply firsts.imp
      intro picked other less order member later member'
      obtain ⟨rest, _, rfl⟩ := List.mem_map.mp member
      obtain ⟨rest', _, rfl⟩ := List.mem_map.mp member'
      exact List.cons_lt_cons_iff.mpr (.inl less)

/-- The orders of the places come in lexicographic sequence. -/
theorem orders_finRange_increasing (count : Nat) : (orders (List.finRange count)).Pairwise (· < ·) :=
  ordersFrom_increasing (List.pairwise_lt_finRange count)

theorem mem_earlier_iff {count : Nat} {earlier later : List (List (Fin count))} {places other : List (Fin count)}
    (split : orders (List.finRange count) = earlier ++ places :: later) :
    other ∈ earlier ↔ other.Perm (List.finRange count) ∧ other < places := by
  have increasing := orders_finRange_increasing count
  rw [split, List.pairwise_append, List.pairwise_cons] at increasing
  obtain ⟨_, ⟨after, _⟩, before⟩ := increasing
  constructor
  · intro member
    refine ⟨mem_orders.mp ?_, before other member places List.mem_cons_self⟩
    rw [split]
    exact List.mem_append_left _ member
  · intro ⟨ordered, less⟩
    have member : other ∈ orders (List.finRange count) := mem_orders.mpr ordered
    rw [split, List.mem_append, List.mem_cons] at member
    rcases member with member | rfl | member
    · exact member
    · exact (List.lt_irrefl _ less).elim
    · exact (List.lt_asymm less (after other member)).elim

end Intcode.Amplifier
