import Intcode.Proofs.Decimals
import Intcode.Proofs.Drawing
import Intcode.Proofs.LongNumbers
import Intcode.Proofs.Rasters
import Intcode.Proofs.Scanning

/-! What the picture of a game tells. Since no cell is drawn outside the width and the height, every
cell with no negative coordinate is seen, and since the tiles look different, the picture tells them
all, with the score below them. There is no picture of a game whose score is too long to be written. -/

namespace Intcode.Arcade

open Text

private theorem Tile.glyph_injective {tile other : Tile} (same : tile.glyph = other.glyph) : tile = other := by
  cases tile <;> cases other <;> first | rfl | cases same

namespace Game

variable {game other : Game} {cell : Int × Int} {tile : Tile}

/-- No cell is drawn beyond the width or the height. -/
structure Bounded (game : Game) : Prop where
  width : 0 ≤ game.width
  height : 0 ≤ game.height
  cells : ∀ cell ∈ game.tiles.keys, cell.1 ≤ game.width ∧ cell.2 ≤ game.height

private theorem bounded_offered (draws : List Draw) : (offered draws).Bounded := by
  have sketch := sketch_offered draws
  have drawing := sketch.drawing
  refine ⟨drawing.width.2 List.mem_cons_self, drawing.height.2 List.mem_cons_self, fun cell member => ?_⟩
  have drawn := sketch.mem_keys_iff.mp member
  exact ⟨drawing.width.2 (List.mem_cons_of_mem _ (List.mem_map_of_mem drawn)),
    drawing.height.2 (List.mem_cons_of_mem _ (List.mem_map_of_mem drawn))⟩

def shown (game : Game) : List (List Char) :=
  raster (game.height + 1).toNat (game.width + 1).toNat fun y x => (game.tileAt (x, y)).glyph

def scoreLine (game : Game) : String := "SCORE: " ++ toString game.score

private theorem free_scoreLine (game : Game) : '\n' ∉ game.scoreLine.toList := by
  rw [scoreLine, String.toList_append, List.mem_append, not_or]
  exact ⟨by decide, Numeral.not_mem_toString (by decide) game.score⟩

theorem free_shown (game : Game) : ∀ line ∈ game.shown, '\n' ∉ line := by
  refine not_mem_raster fun y x => ?_
  cases game.tileAt (x, y) <;> decide

theorem pieces_picture (game : Game) : pieces '\n' game.picture.toList = game.shown ++ [game.scoreLine.toList] := by
  have rows : ((List.range (game.height + 1).toNat).map game.row).map String.toList = game.shown := by
    rw [List.map_map]
    exact List.map_congr_left fun y _ => String.toList_ofList
  have free : ∀ line ∈ game.shown ++ [game.scoreLine.toList], '\n' ∉ line :=
    List.forall_mem_append.mpr ⟨game.free_shown, List.forall_mem_singleton.mpr game.free_scoreLine⟩
  refine pieces_eq_iff.mpr ⟨List.append_ne_nil_of_right_ne_nil _ (List.cons_ne_nil _ _), free, ?_⟩
  rw [picture, String.toList_intercalate, List.map_append, rows]
  rfl

private theorem scoreLine_inj : other.scoreLine.toList = game.scoreLine.toList ↔ other.score = game.score := by
  have read (game : Game) : (Scanner.labelled "SCORE: ").whole game.scoreLine.toList = some game.score := by
    have line : game.scoreLine.toList = "SCORE: ".toList ++ ((toString game.score).toList ++ []) := by
      rw [scoreLine, String.toList_append, List.append_nil]
    rw [line]
    exact Scanner.whole_of_some (Scanner.labelled_append _ _ Scanner.stops_nil)
  refine ⟨fun same => ?_, fun same => by rw [scoreLine, same, scoreLine]⟩
  have told := read other
  rw [same, read game] at told
  exact (Option.some.inj told).symm

theorem picture_inj : other.picture = game.picture ↔ other.shown = game.shown ∧ other.score = game.score := by
  have told : pieces '\n' other.picture.toList = pieces '\n' game.picture.toList ↔ _ := pieces_inj
  rw [← String.toList_inj, ← told, pieces_picture, pieces_picture, List.append_singleton_inj, scoreLine_inj]

private theorem glyph_tileAt (game : Game) (cell : Int × Int) :
    (game.tileAt cell).glyph = ((game.tiles.get? cell).map Tile.glyph).getD ' ' := by
  unfold tileAt
  cases game.tiles.get? cell <;> rfl

theorem tileAt_eq_iff (shows : tile ≠ .empty) : game.tileAt cell = tile ↔ game.tiles.get? cell = some tile := by
  unfold tileAt
  cases game.tiles.get? cell with
  | none => simp [shows.symm]
  | some held => simp

/-- Two screens of one size show the same score and the same tiles. An undrawn cell shows the empty tile. -/
structure Looks (game other : Game) : Prop where
  score : game.score = other.score
  width : game.width = other.width
  height : game.height = other.height
  tiles : ∀ cell tile, 0 ≤ cell.1 → 0 ≤ cell.2 → tile ≠ .empty →
    (game.tiles.get? cell = some tile ↔ other.tiles.get? cell = some tile)

theorem Looks.tileAt (looks : other.Looks game) (x : 0 ≤ cell.1) (y : 0 ≤ cell.2) :
    other.tileAt cell = game.tileAt cell := by
  have same (tile : Tile) (shows : tile ≠ .empty) : other.tileAt cell = tile ↔ game.tileAt cell = tile := by
    rw [tileAt_eq_iff shows, tileAt_eq_iff shows]
    exact looks.tiles cell tile x y shows
  by_cases blank : game.tileAt cell = .empty
  · by_contra differ
    exact differ ((same _ (blank ▸ differ)).mp rfl).symm
  · exact (same _ blank).mpr rfl

namespace Bounded

private theorem size_of_shown (bounded : game.Bounded) (fits : other.Bounded) (same : other.shown = game.shown) :
    other.width = game.width ∧ other.height = game.height := by
  have rows := congrArg List.length same
  rw [shown, shown, length_raster, length_raster] at rows
  have low := bounded.height
  have narrow := bounded.width
  have first : charAt? game.shown 0 0 = _ := charAt?_raster ⟨by omega, by omega⟩
  obtain ⟨row, member, _⟩ := Option.bind_eq_some_iff.mp first
  have width := length_of_mem_raster row (List.mem_of_getElem? member)
  rw [← same] at member
  have also := length_of_mem_raster row (List.mem_of_getElem? member)
  have := fits.height
  have := fits.width
  omega

theorem tile_of_shown (fits : other.Bounded) (same : other.shown = game.shown) (x : 0 ≤ cell.1) (y : 0 ≤ cell.2)
    (shows : tile ≠ .empty) (held : other.tiles.get? cell = some tile) : game.tiles.get? cell = some tile := by
  obtain ⟨width, height⟩ := fits.cells cell (Chart.mem_keys_iff.mpr ⟨tile, held⟩)
  obtain ⟨column, row⟩ := cell
  obtain ⟨column, rfl⟩ := Int.eq_ofNat_of_zero_le x
  obtain ⟨row, rfl⟩ := Int.eq_ofNat_of_zero_le y
  have seen : charAt? other.shown row column = some (other.tileAt (column, row)).glyph :=
    charAt?_raster ⟨by omega, by omega⟩
  rw [same, shown, charAt?_raster_eq_some_iff, (tileAt_eq_iff shows).mpr held] at seen
  exact (tileAt_eq_iff shows).mp (Tile.glyph_injective seen.2)

private theorem picture_eq_iff (bounded : game.Bounded) (fits : other.Bounded) :
    other.picture = game.picture ↔ other.Looks game := by
  rw [picture_inj]
  constructor
  · rintro ⟨same, score⟩
    obtain ⟨width, height⟩ := bounded.size_of_shown fits same
    refine ⟨score, width, height, fun cell tile x y shows => ⟨?_, ?_⟩⟩
    · exact fits.tile_of_shown same x y shows
    · exact bounded.tile_of_shown same.symm x y shows
  · intro looks
    refine ⟨?_, looks.score⟩
    rw [shown, shown, looks.width, looks.height]
    refine raster_congr fun y _ x _ => ?_
    rw [looks.tileAt (Int.natCast_nonneg x) (Int.natCast_nonneg y)]

end Bounded

/-- The text is a game's picture in full: lines of characters that show the tiles, and the score below them. -/
structure Framed (game : Game) (text : String) (rows : List (List Char)) : Prop where
  lines : pieces '\n' text.toList = rows ++ [("SCORE: " ++ toString game.score).toList]
  height : (rows.length : Int) = game.height + 1
  width : ∀ row ∈ rows, (row.length : Int) = game.width + 1
  glyphs : ∀ x y : Nat, x ≤ game.width → y ≤ game.height →
    charAt? rows y x = some (((game.tiles.get? (x, y)).map Tile.glyph).getD ' ')
  cells : ∀ cell ∈ game.tiles.keys, 0 ≤ cell.1 → 0 ≤ cell.2 → cell.1 ≤ game.width ∧ cell.2 ≤ game.height

theorem Bounded.framed (bounded : game.Bounded) : Framed game game.picture game.shown := by
  have low := bounded.height
  have narrow := bounded.width
  refine ⟨pieces_picture game, ?_, ?_, ?_, fun cell member _ _ => bounded.cells cell member⟩
  · rw [shown, length_raster]
    omega
  · intro row member
    rw [length_of_mem_raster row member]
    omega
  · intro x y inside above
    rw [← glyph_tileAt]
    exact charAt?_raster ⟨by omega, by omega⟩

theorem render_eq (game : Game) :
    game.render = if Numeral.isTooLong game.score then .error .numberTooLong else .ok game.picture := by
  cases long : Numeral.isTooLong game.score <;> simp [render, Passage.write, Passage.isWritable, long]

/-- Whatever was drawn on a fresh game, its score is too long or its picture shows every cell that has no
negative coordinate. Of two such games, one with a picture, the other one's is the same just if they look
the same. -/
theorem render_shows_cells (draws : List Draw) :
    (Numeral.isTooLong (offered draws).score = true →
      ∃ fault, (offered draws).render = .error fault ∧ fault.kind = .unwritable) ∧
    (Numeral.isTooLong (offered draws).score = false →
      (∃ text rows, (offered draws).render = .ok text ∧ Framed (offered draws) text rows) ∧
      ∀ others, (offered others).render = (offered draws).render ↔ (offered others).Looks (offered draws)) := by
  have bounded := bounded_offered draws
  refine ⟨fun long => ⟨.numberTooLong, ?_, rfl⟩, fun short => ?_⟩
  · rw [render_eq, if_pos long]
  · have drawn : (offered draws).render = .ok (offered draws).picture := by
      rw [render_eq, if_neg (Bool.not_eq_true _ ▸ short)]
    refine ⟨⟨_, _, drawn, bounded.framed⟩, fun others => ?_⟩
    rw [← bounded.picture_eq_iff (bounded_offered others), drawn, render_eq]
    split
    next long =>
      refine iff_of_false (fun failed => by cases failed) fun same => ?_
      rw [(picture_inj.mp same).2, short] at long
      cases long
    next => rw [Except.ok.injEq]

/-- A ball and a wall, one of them out of sight, and a score. -/
theorem render_shows_cells_of_ball :
    let draws : List Draw := [⟨2, 0, 4⟩, ⟨-1, 0, 12⟩, ⟨1, -1, 1⟩]
    (offered draws).render = .ok "  o\nSCORE: 12" ∧ ∃ rows, Framed (offered draws) "  o\nSCORE: 12" rows := by
  intro draws
  have short : Numeral.isTooLong (offered draws).score = false := by decide +kernel
  obtain ⟨⟨text, rows, drawn, framed⟩, -⟩ := (render_shows_cells draws).2 short
  have shown : (offered draws).render = .ok "  o\nSCORE: 12" := by
    rw [render_eq, short]
    exact congrArg Except.ok (by decide +kernel)
  rw [shown] at drawn
  cases drawn
  exact ⟨shown, rows, framed⟩

/-- A score with one digit too many, and nothing else. -/
theorem render_fails_for_long_score : (offered [⟨-1, 0, 10 ^ Numeral.maxDigits⟩]).score = 10 ^ Numeral.maxDigits ∧
    ∃ fault, (offered [⟨-1, 0, 10 ^ Numeral.maxDigits⟩]).render = .error fault ∧ fault.kind = .unwritable := by
  have scored (code : Int) : (offered [⟨-1, 0, code⟩]).score = code := rfl
  refine ⟨scored _, .numberTooLong, ?_, rfl⟩
  rw [render_eq, scored, if_pos Numeral.isTooLong_power]

end Game
end Intcode.Arcade
