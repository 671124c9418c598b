import Intcode.Proofs.Pieces

/-! Text in rows of equal length, one character for each column. -/

namespace Intcode.Text

def charAt? (rows : List (List Char)) (row column : Nat) : Option Char := rows[row]?.bind (·[column]?)

/-- Rows that show a character at each column. -/
def raster (rows columns : Nat) (shown : Nat → Nat → Char) : List (List Char) :=
  (List.range rows).map fun row => (List.range columns).map (shown row)

variable {rows columns row column : Nat} {shown other : Nat → Nat → Char} {char separator : Char}

theorem length_raster (rows columns : Nat) (shown : Nat → Nat → Char) : (raster rows columns shown).length = rows := by
  rw [raster, List.length_map, List.length_range]

theorem length_of_mem_raster : ∀ line ∈ raster rows columns shown, line.length = columns := by
  refine List.forall_mem_map.mpr fun row _ => ?_
  rw [List.length_map, List.length_range]

theorem charAt?_raster (inside : row < rows ∧ column < columns) :
    charAt? (raster rows columns shown) row column = some (shown row column) := by
  rw [charAt?, raster, List.getElem?_map, List.getElem?_range inside.1, Option.map_some, Option.bind_some,
    List.getElem?_map, List.getElem?_range inside.2, Option.map_some]

theorem inside_of_charAt? (found : charAt? (raster rows columns shown) row column = some char) :
    row < rows ∧ column < columns := by
  obtain ⟨line, there, held⟩ := Option.bind_eq_some_iff.mp found
  obtain ⟨low, _⟩ := List.getElem?_eq_some_iff.mp there
  obtain ⟨narrow, _⟩ := List.getElem?_eq_some_iff.mp held
  rw [length_of_mem_raster line (List.mem_of_getElem? there)] at narrow
  rw [length_raster] at low
  exact ⟨low, narrow⟩

theorem charAt?_raster_eq_some_iff : charAt? (raster rows columns shown) row column = some char ↔
    (row < rows ∧ column < columns) ∧ shown row column = char := by
  constructor
  · intro found
    have inside := inside_of_charAt? found
    rw [charAt?_raster inside] at found
    exact ⟨inside, Option.some.inj found⟩
  · rintro ⟨inside, rfl⟩
    exact charAt?_raster inside

theorem raster_congr (same : ∀ row < rows, ∀ column < columns, shown row column = other row column) :
    raster rows columns shown = raster rows columns other := by
  refine List.map_congr_left fun row low => List.map_congr_left fun column narrow => ?_
  exact same row (List.mem_range.mp low) column (List.mem_range.mp narrow)

theorem not_mem_raster (free : ∀ row column, shown row column ≠ separator) :
    ∀ line ∈ raster rows columns shown, separator ∉ line := by
  refine List.forall_mem_map.mpr fun row _ member => ?_
  obtain ⟨column, _, same⟩ := List.mem_map.mp member
  exact free row column same

end Intcode.Text
