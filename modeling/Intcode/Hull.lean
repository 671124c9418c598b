import Intcode.Chart
import Intcode.Fault

/-! The hull-painting robot: it paints the panel it stands on, turns, and moves
one panel on. -/

namespace Intcode.Hull

/-- What a panel can be painted. An unpainted panel is black. -/
inductive Paint where
  | black
  | white
deriving DecidableEq, Repr

def Paint.code : Paint → Int
  | black => 0
  | white => 1

def Paint.ofCode (code : Int) : Except Fault Paint :=
  if code = 0 then .ok .black else if code = 1 then .ok .white else .error (.unknownColour code)

inductive Turn where
  | left
  | right
deriving DecidableEq, Repr

def Turn.ofCode (code : Int) : Except Fault Turn :=
  if code = 0 then .ok .left else if code = 1 then .ok .right else .error (.unknownTurn code)

inductive Facing where
  | up
  | right
  | down
  | left
deriving DecidableEq, Repr

namespace Facing

def name : Facing → String
  | up => "UP"
  | right => "RIGHT"
  | down => "DOWN"
  | left => "LEFT"

def clockwise : Facing → Facing
  | up => right
  | right => down
  | down => left
  | left => up

def turned (facing : Facing) : Turn → Facing
  | .right => facing.clockwise
  | .left => facing.clockwise.clockwise.clockwise

/-- The step to the panel ahead: to the right, and up. -/
def ahead : Facing → Int × Int
  | up => (0, 1)
  | right => (1, 0)
  | down => (0, -1)
  | left => (-1, 0)

end Facing

/-- The robot and the panels it has painted. -/
structure Robot where
  panels : Chart (Int × Int) Paint := {}
  location : Int × Int := (0, 0)
  facing : Facing := .up
deriving DecidableEq, Repr

namespace Robot

def paintAt (robot : Robot) (panel : Int × Int) : Paint := (robot.panels.get? panel).getD .black

/-- What the camera sees: the panel the robot stands on. -/
def camera (robot : Robot) : Paint := robot.paintAt robot.location

def painted (robot : Robot) : Nat := robot.panels.size

def paint (robot : Robot) (paint : Paint) : Robot :=
  { robot with panels := robot.panels.set robot.location paint }

def turn (robot : Robot) (turn : Turn) : Robot := { robot with facing := robot.facing.turned turn }

def advance (robot : Robot) (panels : Int) : Robot :=
  let (right, up) := robot.facing.ahead
  { robot with location := (robot.location.1 + right * panels, robot.location.2 + up * panels) }

/-- The least and the greatest of some numbers, starting from one of them. -/
def extent (first : Int) (others : List Int) : Int × Int :=
  (others.foldl min first, others.foldl max first)

/-- The numbers from `least` to `greatest`, both included. -/
def span (least greatest : Int) : List Int :=
  (List.range (greatest - least + 1).toNat).map fun (offset : Nat) => least + offset

/-- The picture of the hull: the box around the painted panels, north on top,
a row per line. White panels show, black ones and unpainted ones do not. -/
def picture (robot : Robot) : String :=
  match robot.panels.keys with
  | [] => ""
  | (x, y) :: others =>
    let (west, east) := extent x (others.map Prod.fst)
    let (south, north) := extent y (others.map Prod.snd)
    String.join ((span south north).reverse.map fun y =>
      String.ofList ((span west east).map fun x =>
        if robot.paintAt (x, y) = .white then '#' else '.') ++ "\n")

def report (robot : Robot) : String :=
  "robot: halted at (" ++ toString robot.location.1 ++ ", " ++ toString robot.location.2 ++
    ") facing " ++ robot.facing.name ++ ", " ++ toString robot.painted ++ " panels painted"

end Robot
end Intcode.Hull
