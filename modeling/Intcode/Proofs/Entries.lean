import Mathlib.Data.List.Basic
import Intcode.Value

/-! The entries of a mapping, as far as they are looked up and set under names. Only a text is
the same key as a text, so a name leads to one entry, and setting it leaves all others where
they are. -/

namespace Intcode.Value

variable {name other : String} {key value : Value} {entries : List (Value × Value)}

theorem sameKey_text_iff : key.sameKey (.text name) = true ↔ key = .text name := by
  cases key with
  | text held => simp [sameKey, wholeNumber?]
  | float number => cases whole : number.whole? <;> simp [sameKey, wholeNumber?, whole]
  | _ => simp [sameKey, wholeNumber?]

theorem lookup_cons (name : String) (entry : Value × Value) (rest : List (Value × Value)) :
    lookup name (entry :: rest) =
      if entry.1.sameKey (.text name) then some entry.2 else lookup name rest := by
  obtain ⟨key, value⟩ := entry
  cases key with
  | text held => simp [lookup, sameKey, wholeNumber?]
  | float number => cases whole : number.whole? <;> simp [lookup, sameKey, wholeNumber?, whole]
  | _ => simp [lookup, sameKey, wholeNumber?]

theorem assign_cons (key value : Value) (entry : Value × Value) (rest : List (Value × Value)) :
    assign key value (entry :: rest) =
      if entry.1.sameKey key then (entry.1, value) :: rest else entry :: assign key value rest := rfl

theorem lookup_eq_none_iff : lookup name entries = none ↔ .text name ∉ entries.map Prod.fst := by
  induction entries with
  | nil => simp [lookup]
  | cons entry rest ih =>
    rw [lookup_cons, List.map_cons, List.mem_cons, not_or, ← ih, eq_comm (a := Value.text name),
      ← sameKey_text_iff]
    cases entry.1.sameKey (.text name) <;> simp

theorem lookup_assign_self (name : String) (value : Value) (entries : List (Value × Value)) :
    lookup name (assign (.text name) value entries) = some value := by
  induction entries with
  | nil => rw [assign, lookup_cons, if_pos (sameKey_text_iff.mpr rfl)]
  | cons entry rest ih =>
    rw [assign_cons]
    cases same : entry.1.sameKey (.text name) with
    | true => rw [if_pos rfl, lookup_cons, if_pos same]
    | false => rw [if_neg Bool.false_ne_true, lookup_cons, if_neg (by simp [same]), ih]

theorem lookup_assign_other (apart : other ≠ name) (value : Value) (entries : List (Value × Value)) :
    lookup other (assign (.text name) value entries) = lookup other entries := by
  have differs {key : Value} (same : key = .text name) : ¬ key.sameKey (.text other) = true := by
    rw [sameKey_text_iff, same]
    exact fun equal => apart (by cases equal; rfl)
  induction entries with
  | nil => rw [assign, lookup_cons, if_neg (differs rfl)]
  | cons entry rest ih =>
    rw [assign_cons]
    cases same : entry.1.sameKey (.text name) with
    | true =>
      have elsewhere := differs (sameKey_text_iff.mp same)
      rw [if_pos rfl, lookup_cons, lookup_cons, if_neg elsewhere, if_neg elsewhere]
    | false => rw [if_neg Bool.false_ne_true, lookup_cons, lookup_cons, ih]

/-- The value under a name was set: its entry kept its place, or stands behind all others if the
name is new. Nothing else changed. -/
inductive Sets (name : String) (value : Value) : List (Value × Value) → List (Value × Value) → Prop where
  | replaced (absent : .text name ∉ front.map Prod.fst) :
    Sets name value (front ++ (.text name, old) :: back) (front ++ (.text name, value) :: back)
  | appended (absent : .text name ∉ before.map Prod.fst) :
    Sets name value before (before ++ [(.text name, value)])

/-- The value under a name in a mapping whose keys are all different. -/
theorem lookup_eq_some_iff (distinct : (entries.map Prod.fst).Nodup) :
    lookup name entries = some value ↔ (.text name, value) ∈ entries := by
  induction entries with
  | nil => simp [lookup]
  | cons entry rest ih =>
    obtain ⟨fresh, later⟩ := List.nodup_cons.mp distinct
    obtain ⟨key, held⟩ := entry
    rw [lookup_cons, List.mem_cons, ← ih later]
    by_cases same : key.sameKey (.text name) = true
    · cases sameKey_text_iff.mp same
      rw [if_pos same, lookup_eq_none_iff.mpr fresh]
      simp [eq_comm]
    · rw [if_neg same]
      have apart : ¬ .text name = key := fun equal => same (sameKey_text_iff.mpr equal.symm)
      simp [apart]

theorem lookup_perm {left right : List (Value × Value)} (distinct : (left.map Prod.fst).Nodup)
    (perm : left.Perm right) (name : String) : lookup name left = lookup name right := by
  have distinct' : (right.map Prod.fst).Nodup := (perm.map Prod.fst).nodup_iff.mp distinct
  refine Option.ext fun value => ?_
  rw [lookup_eq_some_iff distinct, lookup_eq_some_iff distinct', perm.mem_iff]

end Intcode.Value
