import Mathlib.Order.Bounds.Basic
import Intcode.Proofs.Charts
import Intcode.Proofs.Play

/-! A game told by its draw commands. A command that is refused changes nothing. Of the others, those
for the score display leave the last score, and those for the cells leave in each cell the last tile
and keep the cells in the order in which they were first drawn. -/

namespace Intcode.Arcade

namespace Tile

private theorem ofCode_code (tile : Tile) : Tile.ofCode tile.code = .ok tile := by
  cases tile <;> rfl

private theorem code_range (tile : Tile) : 0 ≤ tile.code ∧ tile.code ≤ 4 := by
  cases tile <;> decide

private theorem ofCode_eq_ok_iff {number : Int} {tile : Tile} : Tile.ofCode number = .ok tile ↔ tile.code = number := by
  constructor
  · intro known
    unfold ofCode at known
    split at known
    next found =>
      cases known
      simpa using List.find?_some found
    next => cases known
  · rintro rfl
    exact ofCode_code tile

private theorem exists_code {number : Int} (inside : 0 ≤ number ∧ number ≤ 4) : ∃ tile : Tile, tile.code = number := by
  obtain rfl | rfl | rfl | rfl | rfl : number = 0 ∨ number = 1 ∨ number = 2 ∨ number = 3 ∨ number = 4 := by omega
  exacts [⟨empty, rfl⟩, ⟨wall, rfl⟩, ⟨block, rfl⟩, ⟨paddle, rfl⟩, ⟨ball, rfl⟩]

end Tile

namespace Draw

def isScore (draw : Draw) : Bool := draw.x = -1 ∧ draw.y = 0

/-- The command draws a tile in a cell. -/
def isTile (draw : Draw) : Bool := !draw.isScore && decide (0 ≤ draw.code ∧ draw.code ≤ 4)

def accepted (draw : Draw) : Bool := draw.isScore || draw.isTile

def scores (draws : List Draw) : List Int := (draws.filter isScore).map code

/-- The cells that were drawn and the numbers of the tiles, the latest last. -/
def strokes (draws : List Draw) : List ((Int × Int) × Int) :=
  (draws.filter isTile).map fun draw => ((draw.x, draw.y), draw.code)

def cells (draws : List Draw) : List (Int × Int) := (strokes draws).map Prod.fst

variable {draw : Draw} {draws : List Draw}

private theorem scores_concat (draws : List Draw) (draw : Draw) :
    scores (draws ++ [draw]) = scores draws ++ if draw.isScore then [draw.code] else [] := by
  cases shows : draw.isScore <;> simp [scores, shows]

private theorem strokes_concat (draws : List Draw) (draw : Draw) :
    strokes (draws ++ [draw]) = strokes draws ++ if draw.isTile then [((draw.x, draw.y), draw.code)] else [] := by
  cases shows : draw.isTile <;> simp [strokes, shows]

private theorem scores_accepted (draws : List Draw) : scores (draws.filter accepted) = scores draws := by
  rw [scores, List.filter_filter, scores]
  refine congrArg _ (List.filter_congr fun draw _ => ?_)
  cases shows : draw.isScore <;> simp [accepted, shows]

private theorem strokes_accepted (draws : List Draw) : strokes (draws.filter accepted) = strokes draws := by
  rw [strokes, List.filter_filter, strokes]
  refine congrArg _ (List.filter_congr fun draw _ => ?_)
  cases shows : draw.isTile <;> simp [accepted, shows]

private theorem display_not_mem_cells (draws : List Draw) : (-1, 0) ∉ cells draws := by
  intro member
  obtain ⟨_, stroke, place⟩ := List.mem_map.mp member
  obtain ⟨draw, drawn, rfl⟩ := List.mem_map.mp stroke
  obtain ⟨x, y⟩ := Prod.mk.inj place
  have shows := (List.mem_filter.mp drawn).2
  simp [isTile, isScore, x, y] at shows

end Draw

namespace Game

open Draw (isScore isTile accepted scores strokes cells)

variable {game next : Game} {draw : Draw} {draws : List Draw}

/-- Carry out draw commands, whatever becomes of them. The answer is those that were not refused. -/
def attempt (game : Game) : List Draw → List Draw × Game
  | [] => ([], game)
  | draw :: draws =>
    match game.draw draw.x draw.y draw.code with
    | .ok next => (draw :: (next.attempt draws).1, (next.attempt draws).2)
    | .error _ => game.attempt draws

def withTile (game : Game) (cell : Int × Int) (tile : Tile) : Game :=
  { game with tiles := game.tiles.set cell tile, width := max game.width cell.1, height := max game.height cell.2 }

private theorem draw_of_isScore (shows : draw.isScore = true) :
    game.draw draw.x draw.y draw.code = .ok { game with score := draw.code } :=
  if_pos (of_decide_eq_true shows)

private theorem draw_of_not_isScore (other : draw.isScore = false) : game.draw draw.x draw.y draw.code =
    (Tile.ofCode draw.code).map (game.withTile (draw.x, draw.y)) := by
  unfold Game.draw
  rw [if_neg (of_decide_eq_false other)]
  cases Tile.ofCode draw.code <;> rfl

private theorem draw_of_isTile (game : Game) (shows : draw.isTile = true) : ∃ tile : Tile, tile.code = draw.code ∧
    game.draw draw.x draw.y draw.code = .ok (game.withTile (draw.x, draw.y) tile) := by
  obtain ⟨other, inside⟩ := Bool.and_eq_true_iff.mp shows
  obtain ⟨tile, told⟩ := Tile.exists_code (of_decide_eq_true inside)
  refine ⟨tile, told, ?_⟩
  rw [draw_of_not_isScore (by simpa using other), Tile.ofCode_eq_ok_iff.mpr told]
  rfl

private theorem draw_of_refused (game : Game) (refused : draw.accepted = false) :
    ∃ fault, game.draw draw.x draw.y draw.code = .error fault := by
  obtain ⟨other, tile⟩ := Bool.or_eq_false_iff.mp refused
  rw [draw_of_not_isScore other]
  cases known : Tile.ofCode draw.code with
  | error fault => exact ⟨fault, rfl⟩
  | ok shown =>
    have inside := shown.code_range
    rw [Tile.ofCode_eq_ok_iff.mp known] at inside
    simp [isTile, other, inside] at tile

private theorem draw_of_accepted (game : Game) (accepts : draw.accepted = true) :
    ∃ next, game.draw draw.x draw.y draw.code = .ok next := by
  rcases Bool.or_eq_true_iff.mp accepts with shows | shows
  · exact ⟨_, draw_of_isScore shows⟩
  · obtain ⟨tile, _, drew⟩ := draw_of_isTile game shows
    exact ⟨_, drew⟩

theorem attempt_eq (game : Game) (draws : List Draw) : (game.attempt draws).1 = draws.filter accepted ∧
    game.drawn (draws.filter accepted) = .ok (game.attempt draws).2 := by
  induction draws generalizing game with
  | nil => exact ⟨rfl, rfl⟩
  | cons draw draws ih =>
    cases verdict : draw.accepted with
    | true =>
      obtain ⟨next, drew⟩ := draw_of_accepted game verdict
      obtain ⟨others, found⟩ := ih next
      rw [attempt, drew, List.filter_cons_of_pos verdict, drawn, List.foldlM_cons, drew]
      exact ⟨congrArg _ others, found⟩
    | false =>
      obtain ⟨fault, fails⟩ := draw_of_refused game verdict
      rw [attempt, fails, List.filter_cons_of_neg (by simp [verdict])]
      exact ih game

/-- What a fresh game is after draw commands that were all accepted. -/
structure Sketch (draws : List Draw) (game : Game) : Prop where
  score : game.score = (scores draws).getLastD 0
  tiles : ∃ marks : List ((Int × Int) × Tile),
    (marks.map fun mark => (mark.1, mark.2.code)) = strokes draws ∧ game.tiles = Chart.filled marks
  width : game.width = ((cells draws).map Prod.fst).foldl max 0
  height : game.height = ((cells draws).map Prod.snd).foldl max 0

private theorem accepted_of_draw (drew : game.draw draw.x draw.y draw.code = .ok next) :
    draw.isScore = true ∨ draw.isTile = true := by
  rw [← Bool.or_eq_true_iff]
  cases verdict : draw.accepted with
  | true => exact verdict
  | false =>
    obtain ⟨fault, fails⟩ := draw_of_refused game verdict
    rw [fails] at drew
    cases drew

theorem Sketch.drew (sketch : Sketch draws game) (drew : game.draw draw.x draw.y draw.code = .ok next) :
    Sketch (draws ++ [draw]) next := by
  obtain ⟨marks, told, tiles⟩ := sketch.tiles
  rcases accepted_of_draw drew with shows | shows
  · have other : draw.isTile = false := by simp [isTile, shows]
    have still : strokes (draws ++ [draw]) = strokes draws := by simp [Draw.strokes_concat, other]
    rw [draw_of_isScore shows] at drew
    cases drew
    refine ⟨?_, ⟨marks, told.trans still.symm, tiles⟩, ?_, ?_⟩
    · simp [Draw.scores_concat, shows]
    · rw [cells, still]
      exact sketch.width
    · rw [cells, still]
      exact sketch.height
  · have other : draw.isScore = false := by simpa using (Bool.and_eq_true_iff.mp shows).1
    have still : scores (draws ++ [draw]) = scores draws := by simp [Draw.scores_concat, other]
    have more : strokes (draws ++ [draw]) = strokes draws ++ [((draw.x, draw.y), draw.code)] := by
      simp [Draw.strokes_concat, shows]
    obtain ⟨tile, code, made⟩ := draw_of_isTile game shows
    rw [made] at drew
    cases drew
    refine ⟨?_, ⟨marks ++ [((draw.x, draw.y), tile)], ?_, ?_⟩, ?_, ?_⟩
    · rw [still]
      exact sketch.score
    · simp [more, told, code]
    · rw [Chart.filled_concat, ← tiles]
      rfl
    · simp [cells, more, withTile, sketch.width]
    · simp [cells, more, withTile, sketch.height]

private theorem sketch_of_drawn (found : ({} : Game).drawn draws = .ok game) : Sketch draws game := by
  induction draws using List.reverseRecOn generalizing game with
  | nil =>
    cases found
    exact ⟨rfl, ⟨[], rfl, rfl⟩, rfl, rfl⟩
  | append_singleton draws draw ih =>
    rw [drawn_concat] at found
    cases before : ({} : Game).drawn draws with
    | error fault =>
      rw [before] at found
      cases found
    | ok game =>
      rw [before] at found
      exact (ih before).drew found

private theorem Sketch.of_accepted (sketch : Sketch (draws.filter accepted) game) : Sketch draws game := by
  obtain ⟨score, tiles, width, height⟩ := sketch
  rw [Draw.scores_accepted] at score
  rw [Draw.strokes_accepted] at tiles
  rw [cells, Draw.strokes_accepted] at width height
  exact ⟨score, tiles, width, height⟩

theorem Sketch.mem_keys_iff (sketch : Sketch draws game) {cell : Int × Int} :
    cell ∈ game.tiles.keys ↔ cell ∈ cells draws := by
  obtain ⟨marks, told, tiles⟩ := sketch.tiles
  rw [tiles, Chart.mem_keys_filled, cells, ← told, List.map_map]
  rfl

theorem add_countP (tiles : List Tile) :
    tiles.countP (· = .empty) + tiles.countP (· = .wall) + tiles.countP (· = .block) + tiles.countP (· = .paddle) +
      tiles.countP (· = .ball) = tiles.length := by
  induction tiles with
  | nil => rfl
  | cons tile tiles ih =>
    rw [List.length_cons, ← ih]
    cases tile <;> simp <;> omega

private theorem add_count (game : Game) :
    game.count .empty + game.count .wall + game.count .block + game.count .paddle + game.count .ball =
      game.tiles.size := by
  refine (add_countP game.tiles.values).trans ?_
  rw [Chart.values, List.length_map, Chart.size]

private theorem trackBall_of_found {ball paddle : Int × Int} (aims : game.find? .ball = some ball)
    (stands : game.find? .paddle = some paddle) : game.trackBall = (ball.1 - paddle.1).sign := by
  rw [trackBall, aims, stands]

theorem trackBall_of_missing (missing : game.find? .ball = none ∨ game.find? .paddle = none) : game.trackBall = 0 := by
  rcases missing with none | none
  · rw [trackBall, none]
  · rw [trackBall, none]
    cases game.find? .ball <;> rfl

/-- What a fresh game is after draw commands, told by the commands: what it shows in the score display
and in each cell, and which cell it finds. -/
structure Drawing (draws : List Draw) (game : Game) : Prop where
  score : game.score = (scores draws).getLastD 0
  display : (-1, 0) ∉ game.tiles.keys
  tile : ∀ cell, (game.tiles.get? cell).map Tile.code = (Chart.valuesAt (strokes draws) cell).getLast?
  width : IsGreatest {x | x ∈ 0 :: (cells draws).map Prod.fst} game.width
  height : IsGreatest {y | y ∈ 0 :: (cells draws).map Prod.snd} game.height
  counts : game.count .empty + game.count .wall + game.count .block + game.count .paddle + game.count .ball =
    (cells draws).toFinset.card
  finds : ∀ tile cell, game.find? tile = some cell ↔ game.tiles.get? cell = some tile ∧
    ∀ other, game.tiles.get? other = some tile → (cells draws).idxOf cell ≤ (cells draws).idxOf other
  misses : ∀ tile, game.find? tile = none ↔ game.count tile = 0
  tracks : ∀ ball paddle, game.find? .ball = some ball → game.find? .paddle = some paddle →
    game.trackBall = (ball.1 - paddle.1).sign
  rests : game.find? .ball = none ∨ game.find? .paddle = none → game.trackBall = 0

theorem Sketch.drawing (sketch : Sketch draws game) : Drawing draws game := by
  obtain ⟨marks, told, tiles⟩ := sketch.tiles
  have places : marks.map Prod.fst = cells draws := by rw [cells, ← told, List.map_map]; rfl
  refine ⟨sketch.score, ?_, ?_, ?_, ?_, ?_, ?_, fun _ => Chart.find?_eq_none_iff, fun _ _ => trackBall_of_found,
    trackBall_of_missing⟩
  · rw [sketch.mem_keys_iff]
    exact Draw.display_not_mem_cells draws
  · intro cell
    rw [tiles, Chart.get?_filled, ← told, Chart.valuesAt_map, List.getLast?_map]
  · rw [sketch.width]
    exact List.max?_eq_some_iff.mp List.max?_cons'
  · rw [sketch.height]
    exact List.max?_eq_some_iff.mp List.max?_cons'
  · rw [add_count, tiles, Chart.size_filled, places]
  · intro tile cell
    rw [find?, tiles, Chart.find?_filled_eq_some_iff, places]
    simp only [decide_eq_true_eq, exists_eq_right]
    refine and_congr_right fun _ => forall_congr' fun other => ⟨fun least shows => least tile shows rfl, ?_⟩
    rintro least _ shows rfl
    exact least shows

/-- A fresh game after draw commands, whatever became of them. -/
def offered (draws : List Draw) : Game := (({} : Game).attempt draws).2

theorem sketch_offered (draws : List Draw) : Sketch draws (offered draws) :=
  (sketch_of_drawn (attempt_eq {} draws).2).of_accepted

/-- Draw commands of which some are refused leave what the others alone leave, and that is told by the
commands. -/
theorem commands_tell_drawing (draws : List Draw) : (({} : Game).attempt draws).1 = draws.filter accepted ∧
    ({} : Game).drawn (draws.filter accepted) = .ok (offered draws) ∧ Drawing draws (offered draws) := by
  obtain ⟨answer, found⟩ := attempt_eq {} draws
  exact ⟨answer, found, (sketch_offered draws).drawing⟩

-- A ball that was drawn over and is drawn again has kept its place.
example : (offered [⟨3, 1, 4⟩, ⟨5, 1, 4⟩, ⟨3, 1, 0⟩, ⟨0, 0, 7⟩, ⟨3, 1, 4⟩]).find? .ball = some (3, 1) := by decide

end Game
end Intcode.Arcade
