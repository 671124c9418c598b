import Intcode.Chart
import Intcode.Passage

/-! The arcade cabinet: tiles drawn one at a time, a score, and the picture both
make. -/

namespace Intcode.Arcade

inductive Tile where
  | empty
  | wall
  | block
  | paddle
  | ball
deriving DecidableEq, Repr

namespace Tile

def all : List Tile := [empty, wall, block, paddle, ball]

def code : Tile → Int
  | empty => 0
  | wall => 1
  | block => 2
  | paddle => 3
  | ball => 4

def ofCode (number : Int) : Except Fault Tile :=
  match all.find? (·.code = number) with
  | some tile => .ok tile
  | none => .error (.unknownTile number)

def glyph : Tile → Char
  | empty => ' '
  | wall => '#'
  | block => '='
  | paddle => '-'
  | ball => 'o'

end Tile

/-- A game in play. -/
structure Game where
  /-- The drawn cells, in the order in which they were first drawn. -/
  tiles : Chart (Int × Int) Tile := {}
  score : Int := 0
  /-- The greatest column drawn, at least zero. -/
  width : Int := 0
  /-- The greatest row drawn, at least zero. -/
  height : Int := 0
  /-- What to store at address zero before a run. -/
  quarters : Option Int := none
  frames : Nat := 0
deriving DecidableEq, Repr

namespace Game

def insertQuarters (game : Game) (quarters : Int) : Game := { game with quarters := some quarters }

/-- Draw a tile. Column -1 of row 0 is the score display. -/
def draw (game : Game) (x y code : Int) : Except Fault Game :=
  if x = -1 ∧ y = 0 then .ok { game with score := code }
  else do
    let tile ← Tile.ofCode code
    return { game with
      tiles := game.tiles.set (x, y) tile, width := max game.width x, height := max game.height y }

def count (game : Game) (tile : Tile) : Nat := game.tiles.values.countP (· = tile)

/-- The cell that shows a tile, the one first drawn if there are several. -/
def find? (game : Game) (tile : Tile) : Option (Int × Int) := game.tiles.find? (· = tile)

def tileAt (game : Game) (cell : Int × Int) : Tile := (game.tiles.get? cell).getD .empty

def row (game : Game) (y : Nat) : String :=
  String.ofList ((List.range (game.width + 1).toNat).map fun (x : Nat) =>
    (game.tileAt (x, y)).glyph)

/-- The picture: the rows from the top down, then the score. -/
def picture (game : Game) : String :=
  "\n".intercalate
    ((List.range (game.height + 1).toNat).map game.row ++ ["SCORE: " ++ toString game.score])

/-- Show the picture, unless the score is too long to be written. -/
def render (game : Game) : Except Fault String := (Passage.mk game.picture [game.score]).write

/-- The joystick position that moves the paddle towards the ball's column. -/
def trackBall (game : Game) : Int :=
  match game.find? .ball, game.find? .paddle with
  | some ball, some paddle => (ball.1 - paddle.1).sign
  | _, _ => 0

def report (game : Game) : String :=
  "arcade: halted after " ++ toString game.frames ++ " frames, score " ++ toString game.score ++
    ", " ++ toString (game.count .block) ++ " blocks left"

end Game
end Intcode.Arcade
