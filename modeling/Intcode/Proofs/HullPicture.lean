import Mathlib.Data.Set.Function
import Mathlib.Order.Bounds.Basic
import Intcode.Proofs.Charts
import Intcode.Proofs.Rasters
import Intcode.Hull

/-! What the picture of the hull tells: the white panels in the box around all that are painted, and
nothing else. A panel that is painted black widens the box and is not seen in it. -/

namespace Intcode.Hull

open Text

/-- A rectangle of panels, the edges included. -/
structure Box where
  west : Int
  east : Int
  south : Int
  north : Int

namespace Box

variable {box : Box} {panels : List (Int × Int)} {panel : Int × Int}

/-- The box is the least with these panels in it. -/
structure Around (box : Box) (panels : List (Int × Int)) : Prop where
  west : IsLeast {x | x ∈ panels.map Prod.fst} box.west
  east : IsGreatest {x | x ∈ panels.map Prod.fst} box.east
  south : IsLeast {y | y ∈ panels.map Prod.snd} box.south
  north : IsGreatest {y | y ∈ panels.map Prod.snd} box.north

def rows (box : Box) : Nat := (box.north - box.south + 1).toNat

def columns (box : Box) : Nat := (box.east - box.west + 1).toNat

/-- The panel in a row, counted from the north, and a column, counted from the west. -/
def panelAt (box : Box) (place : Nat × Nat) : Int × Int := (box.west + place.2, box.north - place.1)

private theorem panelAt_injective (box : Box) : Function.Injective box.panelAt := by
  rintro ⟨row, column⟩ ⟨otherRow, otherColumn⟩ same
  obtain ⟨x, y⟩ := Prod.mk.inj same
  exact Prod.ext (by omega) (by omega)

namespace Around

private theorem rows_eq (around : box.Around panels) : (box.rows : Int) = box.north - box.south + 1 := by
  have := around.north.2 around.south.1
  unfold rows
  omega

private theorem columns_eq (around : box.Around panels) : (box.columns : Int) = box.east - box.west + 1 := by
  have := around.east.2 around.west.1
  unfold columns
  omega

theorem exists_place (around : box.Around panels) (member : panel ∈ panels) :
    ∃ place : Nat × Nat, (place.1 < box.rows ∧ place.2 < box.columns) ∧ box.panelAt place = panel := by
  have x : panel.1 ∈ panels.map Prod.fst := List.mem_map_of_mem member
  have y : panel.2 ∈ panels.map Prod.snd := List.mem_map_of_mem member
  have west := around.west.2 x
  have east := around.east.2 x
  have south := around.south.2 y
  have north := around.north.2 y
  have height := around.rows_eq
  have width := around.columns_eq
  refine ⟨((box.north - panel.2).toNat, (panel.1 - box.west).toNat), ⟨by omega, by omega⟩, ?_⟩
  exact Prod.ext (by simp only [panelAt]; omega) (by simp only [panelAt]; omega)

end Around
end Box

namespace Robot

variable {robot other : Robot} {box : Box} {panel : Int × Int}

theorem extent_least (first : Int) (others : List Int) : IsLeast {number | number ∈ first :: others} (extent first others).1 :=
  List.min?_eq_some_iff.mp List.min?_cons'

theorem extent_greatest (first : Int) (others : List Int) :
    IsGreatest {number | number ∈ first :: others} (extent first others).2 :=
  List.max?_eq_some_iff.mp List.max?_cons'

private theorem span_reverse (least greatest : Int) : (span least greatest).reverse =
    (List.range (greatest - least + 1).toNat).map fun offset : Nat => greatest - offset := by
  unfold span
  refine List.ext_getElem (by simp) fun index inside _ => ?_
  rw [List.length_reverse, List.length_map, List.length_range] at inside
  simp only [List.getElem_reverse, List.getElem_map, List.getElem_range, List.length_map, List.length_range]
  omega

private theorem paintAt_eq_white_iff : robot.paintAt panel = .white ↔ robot.panels.get? panel = some .white := by
  unfold paintAt
  cases robot.panels.get? panel <;> simp

def mark (robot : Robot) (panel : Int × Int) : Char := if robot.panels.get? panel = some .white then '#' else '.'

private theorem mark_eq_hash_iff : robot.mark panel = '#' ↔ robot.panels.get? panel = some .white := by
  unfold mark
  split <;> simp_all

def shown (robot : Robot) (box : Box) : List (List Char) :=
  raster box.rows box.columns fun row column => robot.mark (box.panelAt (row, column))

theorem free_shown (robot : Robot) (box : Box) : ∀ line ∈ robot.shown box, '\n' ∉ line := by
  refine not_mem_raster fun row column => ?_
  unfold mark
  split <;> decide

private theorem picture_eq (around : box.Around robot.panels.keys) :
    robot.picture = String.join ((span box.south box.north).reverse.map fun y =>
      String.ofList ((span box.west box.east).map fun x => if robot.paintAt (x, y) = .white then '#' else '.') ++ "\n") := by
  cases found : robot.panels.keys with
  | nil =>
    rw [found] at around
    exact (List.not_mem_nil around.west.1).elim
  | cons first others =>
    rw [found] at around
    rw [around.west.unique (extent_least _ _), around.east.unique (extent_greatest _ _),
      around.south.unique (extent_least _ _), around.north.unique (extent_greatest _ _), picture, found]

theorem picture_toList (around : box.Around robot.panels.keys) :
    robot.picture.toList = (robot.shown box).flatMap (· ++ ['\n']) := by
  have line (y : Int) : (String.ofList ((span box.west box.east).map fun x =>
      if robot.paintAt (x, y) = .white then '#' else '.') ++ "\n").toList =
        ((List.range box.columns).map fun column : Nat => robot.mark (box.west + column, y)) ++ ['\n'] := by
    simp only [String.toList_append, String.toList_ofList, span, List.map_map, paintAt_eq_white_iff]
    rfl
  rw [picture_eq around, String.toList_join, span_reverse, shown, raster]
  simp only [List.flatMap_map, line]
  rfl

private theorem mem_keys_of_white (white : robot.panels.get? panel = some .white) : panel ∈ robot.panels.keys :=
  Chart.mem_keys_iff.mpr ⟨.white, white⟩

private theorem charAt?_shown_eq_hash_iff {row column : Nat} : charAt? (robot.shown box) row column = some '#' ↔
    (row < box.rows ∧ column < box.columns) ∧ robot.panels.get? (box.panelAt (row, column)) = some .white := by
  rw [shown, charAt?_raster_eq_some_iff, mark_eq_hash_iff]

/-- Each white panel is shown once, and nothing else is shown. -/
theorem bijOn_panelAt (around : box.Around robot.panels.keys) : Set.BijOn box.panelAt
    {place | charAt? (robot.shown box) place.1 place.2 = some '#'} {panel | robot.panels.get? panel = some .white} := by
  refine ⟨fun place seen => (charAt?_shown_eq_hash_iff.mp seen).2, box.panelAt_injective.injOn, fun panel white => ?_⟩
  obtain ⟨place, inside, rfl⟩ := around.exists_place (mem_keys_of_white white)
  exact ⟨place, charAt?_shown_eq_hash_iff.mpr ⟨inside, white⟩, rfl⟩

theorem shown_eq_iff (around : box.Around robot.panels.keys) (same : box.Around other.panels.keys) :
    other.shown box = robot.shown box ↔
      ∀ panel, other.panels.get? panel = some .white ↔ robot.panels.get? panel = some .white := by
  constructor
  · intro equal panel
    constructor
    · intro white
      obtain ⟨place, seen, rfl⟩ := (bijOn_panelAt same).surjOn white
      rw [equal] at seen
      exact (bijOn_panelAt around).mapsTo seen
    · intro white
      obtain ⟨place, seen, rfl⟩ := (bijOn_panelAt around).surjOn white
      rw [← equal] at seen
      exact (bijOn_panelAt same).mapsTo seen
  · intro white
    refine raster_congr fun row _ column _ => ?_
    simp only [mark, white]

/-- A robot's picture in full: lines of characters that show the panels of the least box around all that
are painted. -/
structure Depicted (robot : Robot) (box : Box) (lines : List (List Char)) : Prop where
  around : box.Around robot.panels.keys
  text : robot.picture.toList = lines.flatMap (· ++ ['\n'])
  height : (lines.length : Int) = box.north - box.south + 1
  width : ∀ line ∈ lines, (line.length : Int) = box.east - box.west + 1
  marks : ∀ row column : Nat, row ≤ box.north - box.south → column ≤ box.east - box.west →
    charAt? lines row column =
      some (if robot.panels.get? (box.west + column, box.north - row) = some .white then '#' else '.')
  once : Set.BijOn box.panelAt {place | charAt? lines place.1 place.2 = some '#'}
    {panel | robot.panels.get? panel = some .white}
  same : ∀ other : Robot, box.Around other.panels.keys → (other.picture = robot.picture ↔
    ∀ panel, other.panels.get? panel = some .white ↔ robot.panels.get? panel = some .white)

private theorem exists_around {panels : List (Int × Int)} (some : panels ≠ []) : ∃ box : Box, box.Around panels := by
  obtain ⟨first, others, rfl⟩ := List.exists_cons_of_ne_nil some
  exact ⟨⟨_, _, _, _⟩, extent_least _ _, extent_greatest _ _, extent_least _ _, extent_greatest _ _⟩

/-- The picture of a robot that has painted shows the white panels exactly. -/
theorem picture_shows_hull (painted : robot.panels.keys ≠ []) : ∃ box lines, Depicted robot box lines := by
  obtain ⟨box, around⟩ := exists_around painted
  have height := around.rows_eq
  have width := around.columns_eq
  refine ⟨box, robot.shown box, around, picture_toList around, ?_, ?_, ?_, bijOn_panelAt around, ?_⟩
  · rw [shown, length_raster, height]
  · intro line member
    rw [length_of_mem_raster line member, width]
  · intro row column low narrow
    exact charAt?_raster ⟨by omega, by omega⟩
  · intro other same
    rw [← shown_eq_iff around same, ← lines_inj (other.free_shown box) (robot.free_shown box),
      ← picture_toList same, ← picture_toList around, String.toList_inj]

/-- A robot that has painted a panel black at an edge of the box. -/
def speckled : Robot := { panels := Chart.filled [((0, 0), .white), ((-1, -1), .black), ((1, -2), .white)] }

theorem picture_shows_hull_speckled : speckled.panels.keys ≠ [] ∧ (∃ box lines, Depicted speckled box lines) ∧
    speckled.picture = ".#.\n...\n..#\n" := by
  have painted : speckled.panels.keys ≠ [] := by decide
  exact ⟨painted, picture_shows_hull painted, by decide +kernel⟩

end Robot
end Intcode.Hull
