import Intcode.Directory
import Intcode.Proofs.Charts

/-! Writing a file leaves every other file where it was found, and a file that was found is found again
with what was written to it. -/

namespace Intcode.Directory

variable {directory : Directory} {location place : Location} {content before : String}

theorem at?_write (directory : Directory) (location other : Location) (content : String) :
    (directory.write location content).at? other =
      if other.names.isEmpty = false ∧ other.text = location.text then some (.file content)
      else directory.at? other := by
  unfold at? write
  rw [Chart.get?_set]
  by_cases root : other.names.isEmpty = true
  · simp [root]
  · by_cases same : other.text = location.text <;> simp [root, same]

private theorem not_folder_of_writable (writable : directory.obstacle? location = none) :
    directory.at? location ≠ some .folder := by
  intro folder
  simp only [obstacle?, if_pos folder] at writable
  split at writable <;> cases writable

private theorem at?_folder_write (writable : directory.at? location ≠ some .folder) {other : Location}
    (folder : directory.at? other = some .folder) : (directory.write location content).at? other = some .folder := by
  rw [at?_write, if_neg, folder]
  intro ⟨below, same⟩
  apply writable
  unfold at? at folder ⊢
  rw [below, same] at folder
  cases location.names.isEmpty with
  | true => rfl
  | false => exact folder

private theorem at?_of_walk {entry : Entry} {start : Location} {steps : List String}
    (found : directory.walk start steps = .entry place entry) : directory.at? place = some entry := by
  induction steps generalizing start with
  | nil =>
    unfold walk at found
    cases stands : directory.at? start with
    | none => rw [stands] at found; cases found
    | some entry =>
      rw [stands] at found
      cases found
      exact stands
  | cons name rest ih =>
    unfold walk at found
    split at found
    · cases found
    · split at found
      · cases found
      · exact ih found

/-- Writing a file changes what stands at a place, but not the way there. -/
theorem walk_write (writable : directory.at? location ≠ some .folder) {entry after : Entry}
    (stands : (directory.write location content).at? place = some after) {start : Location} {steps : List String}
    (found : directory.walk start steps = .entry place entry) :
    (directory.write location content).walk start steps = .entry place after := by
  induction steps generalizing start with
  | nil =>
    unfold walk at found ⊢
    cases before : directory.at? start with
    | none => rw [before] at found; cases found
    | some entry =>
      rw [before] at found
      cases found
      rw [stands]
  | cons name rest ih =>
    unfold walk at found ⊢
    by_cases folder : directory.at? start = some .folder
    · rw [if_neg (not_not_intro folder)] at found
      rw [if_neg (not_not_intro (at?_folder_write writable folder))]
      by_cases long : maxNameSize < name.utf8ByteSize
      · rw [if_pos long] at found
        cases found
      · rw [if_neg long] at found ⊢
        exact ih found
    · rw [if_pos folder] at found
      cases found

private theorem walk_of_find {path : String} {entry : Entry} (found : directory.find path = .entry place entry) :
    directory.walk (.start path) (Location.steps path) = .entry place entry ∧
      ∀ other : Directory, other.find path = other.walk (.start path) (Location.steps path) := by
  unfold find at found ⊢
  split at found
  next => cases found
  next named =>
    split at found
    next => cases found
    next short => exact ⟨found, fun other => by rw [if_neg named, if_neg short]⟩

theorem findShown_write {path : String} (writable : directory.obstacle? location = none)
    (apart : place.text ≠ location.text) (found : directory.findShown path = .entry place (.file before)) :
    (directory.write location content).findShown path = .entry place (.file before) := by
  obtain ⟨walked, find_eq⟩ := walk_of_find found
  have elsewhere : ¬ (place.names.isEmpty = false ∧ place.text = location.text) := fun same => apart same.2
  rw [findShown, find_eq]
  refine walk_write (not_folder_of_writable writable) ?_ walked
  rw [at?_write, if_neg elsewhere, at?_of_walk walked]

end Intcode.Directory
