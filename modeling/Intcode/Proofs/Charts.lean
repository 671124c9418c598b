import Mathlib.Data.Finset.Card
import Mathlib.Data.List.Induction
import Intcode.Chart

/-! Charts told by what was set. Of the values that were set at a key the last one is there, and the
keys stand in the order in which each of them first came. -/

namespace Intcode.Chart

variable {κ ν μ : Type} [DecidableEq κ]

theorem get?_set (chart : Chart κ ν) (key other : κ) (value : ν) :
    (chart.set key value).get? other = if other = key then some value else chart.get? other := by
  obtain ⟨entries⟩ := chart
  change lookup other (assign key value entries) = if other = key then some value else lookup other entries
  induction entries with
  | nil =>
    by_cases same : other = key
    · simp [assign, lookup, same]
    · simp [assign, lookup, same, Ne.symm same]
  | cons entry rest ih =>
    obtain ⟨first, held⟩ := entry
    by_cases found : first = key
    · subst found
      by_cases same : first = other
      · simp [assign, lookup, same]
      · simp [assign, lookup, same, Ne.symm same]
    · by_cases same : first = other
      · subst same
        simp [assign, lookup, found]
      · simp [assign, lookup, found, same, ih]

theorem set_set (chart : Chart κ ν) (key : κ) (first second : ν) :
    (chart.set key first).set key second = chart.set key second := by
  obtain ⟨entries⟩ := chart
  apply congrArg Chart.mk
  change assign key second (assign key first entries) = assign key second entries
  induction entries with
  | nil => simp [assign]
  | cons entry rest ih =>
    by_cases found : entry.1 = key
    · simp [assign, found]
    · simp [assign, found, ih]

theorem set_eq_self_iff {chart : Chart κ ν} {key : κ} {value : ν} :
    chart.set key value = chart ↔ chart.get? key = some value := by
  constructor
  · intro same
    rw [← same, get?_set, if_pos rfl]
  · intro held
    obtain ⟨entries⟩ := chart
    apply congrArg Chart.mk
    change lookup key entries = some value at held
    change assign key value entries = entries
    induction entries with
    | nil => cases held
    | cons entry rest ih =>
      by_cases found : entry.1 = key
      · have same : entry.2 = value := by simpa [lookup, found] using held
        rw [assign, if_pos found, ← same]
      · have later : lookup key rest = some value := by simpa [lookup, found] using held
        simp [assign, found, ih later]

theorem size_set (chart : Chart κ ν) (key : κ) (value : ν) :
    (chart.set key value).size = if (chart.get? key).isSome then chart.size else chart.size + 1 := by
  obtain ⟨entries⟩ := chart
  change (assign key value entries).length =
    if (lookup key entries).isSome then entries.length else entries.length + 1
  induction entries with
  | nil => rfl
  | cons entry rest ih =>
    by_cases found : entry.1 = key
    · simp [assign, lookup, found]
    · simp only [assign, lookup, if_neg found, List.length_cons, ih]
      split <;> rfl

theorem keys_set (chart : Chart κ ν) (key : κ) (value : ν) :
    (chart.set key value).keys = if key ∈ chart.keys then chart.keys else chart.keys ++ [key] := by
  obtain ⟨entries⟩ := chart
  change (assign key value entries).map Prod.fst =
    if key ∈ entries.map Prod.fst then entries.map Prod.fst else entries.map Prod.fst ++ [key]
  induction entries with
  | nil => rfl
  | cons entry rest ih =>
    by_cases found : entry.1 = key
    · simp [assign, found]
    · rw [assign, if_neg found, List.map_cons, ih, List.map_cons]
      simp only [List.mem_cons, Ne.symm found, false_or]
      split <;> rfl

theorem mem_entries_iff {chart : Chart κ ν} (distinct : chart.keys.Nodup) {key : κ} {value : ν} :
    (key, value) ∈ chart.entries ↔ chart.get? key = some value := by
  obtain ⟨entries⟩ := chart
  change (entries.map Prod.fst).Nodup at distinct
  change (key, value) ∈ entries ↔ lookup key entries = some value
  induction entries with
  | nil => simp [lookup]
  | cons entry rest ih =>
    obtain ⟨first, held⟩ := entry
    obtain ⟨fresh, distinct⟩ := List.nodup_cons.mp distinct
    by_cases found : first = key
    · subst found
      have apart : (first, value) ∉ rest := fun member => fresh (List.mem_map.mpr ⟨_, member, rfl⟩)
      simp [lookup, apart, eq_comm]
    · simp [lookup, found, Ne.symm found, ih distinct]

theorem mem_keys_iff {chart : Chart κ ν} {key : κ} : key ∈ chart.keys ↔ ∃ value, chart.get? key = some value := by
  obtain ⟨entries⟩ := chart
  change key ∈ entries.map Prod.fst ↔ ∃ value, lookup key entries = some value
  induction entries with
  | nil => simp [lookup]
  | cons entry rest ih =>
    by_cases found : entry.1 = key
    · simp [lookup, found]
    · rw [List.map_cons, List.mem_cons, ih, lookup, if_neg found]
      simp [Ne.symm found]

omit [DecidableEq κ] in
theorem find?_eq_none_iff {chart : Chart κ ν} {test : ν → Bool} : chart.find? test = none ↔ chart.values.countP test = 0 := by
  rw [find?, Option.map_eq_none_iff, List.find?_eq_none, List.countP_eq_zero, values, List.forall_mem_map]

section Filled

def filled (past : List (κ × ν)) : Chart κ ν := past.foldl (fun chart entry => chart.set entry.1 entry.2) {}

/-- The values that were set at a key, the latest last. -/
def valuesAt (past : List (κ × ν)) (key : κ) : List ν :=
  past.filterMap fun entry => if entry.1 = key then some entry.2 else none

variable {past : List (κ × ν)} {key : κ} {value : ν} {test : ν → Bool}

theorem filled_concat (past : List (κ × ν)) (key : κ) (value : ν) :
    filled (past ++ [(key, value)]) = (filled past).set key value := List.foldl_append

theorem valuesAt_concat (past : List (κ × ν)) (entry : κ × ν) (key : κ) : valuesAt (past ++ [entry]) key =
    valuesAt past key ++ if entry.1 = key then [entry.2] else [] := by
  rw [valuesAt, List.filterMap_append, valuesAt]
  by_cases same : entry.1 = key <;> simp [same]

theorem valuesAt_map (change : ν → μ) (past : List (κ × ν)) (key : κ) :
    valuesAt (past.map fun entry => (entry.1, change entry.2)) key = (valuesAt past key).map change := by
  rw [valuesAt, List.filterMap_map, valuesAt, List.map_filterMap]
  refine List.filterMap_congr fun entry _ => ?_
  by_cases same : entry.1 = key <;> simp [same]

theorem get?_filled (past : List (κ × ν)) (key : κ) : (filled past).get? key = (valuesAt past key).getLast? := by
  induction past using List.reverseRecOn with
  | nil => rfl
  | append_singleton past entry ih =>
    rw [filled_concat, get?_set, valuesAt_concat, ih]
    by_cases same : key = entry.1
    · rw [if_pos same, if_pos same.symm, List.getLast?_concat]
    · rw [if_neg same, if_neg (Ne.symm same), List.append_nil]

theorem mem_keys_filled : key ∈ (filled past).keys ↔ key ∈ past.map Prod.fst := by
  rw [mem_keys_iff, get?_filled, ← Option.isSome_iff_exists, List.getLast?_isSome, valuesAt]
  simp [List.filterMap_eq_nil_iff]

/-- A key that was set earlier stands earlier. -/
theorem keys_filled_ordered [BEq κ] [LawfulBEq κ] (past : List (κ × ν)) : (filled past).keys.Pairwise
    fun first second => (past.map Prod.fst).idxOf first < (past.map Prod.fst).idxOf second := by
  induction past using List.reverseRecOn with
  | nil => exact .nil
  | append_singleton past entry ih =>
    have kept {key : κ} (member : key ∈ (filled past).keys) :
        ((past ++ [entry]).map Prod.fst).idxOf key = (past.map Prod.fst).idxOf key := by
      rw [List.map_append]
      exact List.idxOf_append_of_mem (mem_keys_filled.mp member)
    have still : (filled past).keys.Pairwise fun first second =>
        ((past ++ [entry]).map Prod.fst).idxOf first < ((past ++ [entry]).map Prod.fst).idxOf second := by
      refine ih.imp_of_mem fun first second earlier => ?_
      rwa [kept first, kept second]
    rw [filled_concat, keys_set]
    by_cases old : entry.1 ∈ (filled past).keys
    · rwa [if_pos old]
    · rw [if_neg old]
      refine List.pairwise_append.mpr ⟨still, List.pairwise_singleton _ _, fun key member other same => ?_⟩
      rw [List.mem_singleton.mp same, kept member, List.map_append,
        List.idxOf_append_of_notMem (mt mem_keys_filled.mpr old)]
      exact Nat.lt_add_right _ (List.idxOf_lt_length_of_mem (mem_keys_filled.mp member))

theorem nodup_keys_filled (past : List (κ × ν)) : (filled past).keys.Nodup := by
  refine (keys_filled_ordered past).imp fun earlier => ?_
  rintro rfl
  exact Nat.lt_irrefl _ earlier

theorem size_filled (past : List (κ × ν)) : (filled past).size = (past.map Prod.fst).toFinset.card := by
  have same : (past.map Prod.fst).toFinset = (filled past).keys.toFinset := by
    ext key
    rw [List.mem_toFinset, List.mem_toFinset, mem_keys_filled]
  rw [same, List.toFinset_card_of_nodup (nodup_keys_filled past), keys, List.length_map, size]

theorem mem_entries_filled : (key, value) ∈ (filled past).entries ↔ (filled past).get? key = some value :=
  mem_entries_iff (nodup_keys_filled past)

theorem find?_eq_some_iff_least {α : Type} {passes : α → Bool} {rank : α → Nat} {elements : List α} {found : α}
    (ordered : elements.Pairwise fun first second => rank first < rank second) :
    elements.find? passes = some found ↔
      found ∈ elements ∧ passes found = true ∧ ∀ other ∈ elements, passes other = true → rank found ≤ rank other := by
  induction elements with
  | nil => simp
  | cons first rest ih =>
    obtain ⟨lowest, ordered⟩ := List.pairwise_cons.mp ordered
    cases passed : passes first with
    | true =>
      rw [List.find?_cons_of_pos passed, Option.some_inj]
      constructor
      · rintro rfl
        refine ⟨List.mem_cons_self, passed, List.forall_mem_cons.mpr ⟨fun _ => Nat.le_refl _, ?_⟩⟩
        exact fun other member _ => Nat.le_of_lt (lowest other member)
      · rintro ⟨member, _, least⟩
        rcases List.mem_cons.mp member with rfl | member
        · rfl
        · exact absurd (lowest found member) (Nat.not_lt.mpr (least first List.mem_cons_self passed))
    | false =>
      have apart (other : α) (passing : passes other = true) : other ≠ first := by
        rintro rfl
        rw [passed] at passing
        cases passing
      rw [List.find?_cons_of_neg (by simp [passed]), ih ordered]
      constructor
      · rintro ⟨member, passing, least⟩
        refine ⟨List.mem_cons_of_mem _ member, passing, List.forall_mem_cons.mpr ⟨fun impossible => ?_, least⟩⟩
        exact absurd rfl (apart first impossible)
      · rintro ⟨member, passing, least⟩
        exact ⟨List.mem_of_ne_of_mem (apart found passing) member, passing,
          fun other member => least other (List.mem_cons_of_mem _ member)⟩

theorem find?_filled_eq_some_iff [BEq κ] [LawfulBEq κ] : (filled past).find? test = some key ↔
    (∃ value, (filled past).get? key = some value ∧ test value = true) ∧
    ∀ other value, (filled past).get? other = some value → test value = true →
      (past.map Prod.fst).idxOf key ≤ (past.map Prod.fst).idxOf other := by
  have ordered := List.pairwise_map.mp (keys_filled_ordered past)
  simp only [find?, Option.map_eq_some_iff, Prod.exists, exists_and_right, exists_eq_right,
    find?_eq_some_iff_least ordered, Prod.forall, mem_entries_filled]
  constructor
  · rintro ⟨value, held, passed, least⟩
    exact ⟨⟨value, held, passed⟩, least⟩
  · rintro ⟨⟨value, held, passed⟩, least⟩
    exact ⟨value, held, passed, least⟩

end Filled
end Intcode.Chart
