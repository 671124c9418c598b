import Intcode.Document

/-! Values, and the documents that hold them, can be compared. -/

namespace Intcode

namespace Value

mutual

def equals : Value → Value → Bool
  | null, null => true
  | bool left, bool right => left = right
  | int left, int right => left = right
  | float left, float right => left = right
  | text left, text right => left = right
  | broken left, broken right => left = right
  | bytes left, bytes right => left = right
  | day left, day right => left = right
  | moment left, moment right => left = right
  | list left, list right => equalItems left right
  | pair left other, pair left' other' => equals left left' && equals other other'
  | mapping left, mapping right => equalEntries left right
  | set left, set right => equalItems left right
  | recurrence left, recurrence right => left = right
  | _, _ => false

def equalItems : List Value → List Value → Bool
  | [], [] => true
  | left :: lefts, right :: rights => equals left right && equalItems lefts rights
  | _, _ => false

def equalEntries : List (Value × Value) → List (Value × Value) → Bool
  | [], [] => true
  | (key, value) :: lefts, (key', value') :: rights =>
    equals key key' && equals value value' && equalEntries lefts rights
  | _, _ => false

end

mutual

theorem equals_iff (left right : Value) : equals left right = true ↔ left = right := by
  cases left with
  | list items | set items => cases right <;> simp [equals, equalItems_iff items]
  | pair first second => cases right <;> simp [equals, equals_iff first, equals_iff second]
  | mapping entries => cases right <;> simp [equals, equalEntries_iff entries]
  | _ => cases right <;> simp [equals]

theorem equalItems_iff : (left right : List Value) → (equalItems left right = true ↔ left = right)
  | left :: lefts, right :: rights => by simp [equalItems, equals_iff left right, equalItems_iff lefts rights]
  | [], [] | [], _ :: _ | _ :: _, [] => by simp [equalItems]

theorem equalEntries_iff : (left right : List (Value × Value)) → (equalEntries left right = true ↔ left = right)
  | (key, value) :: lefts, (key', value') :: rights => by
    simp [equalEntries, equals_iff key key', equals_iff value value', equalEntries_iff lefts rights]
  | [], [] | [], _ :: _ | _ :: _, [] => by simp [equalEntries]

end

instance : DecidableEq Value := fun left right => decidable_of_iff _ (equals_iff left right)

end Value

namespace Document

deriving instance DecidableEq for Key

deriving instance DecidableEq for Object

end Document

deriving instance DecidableEq for Document

end Intcode
