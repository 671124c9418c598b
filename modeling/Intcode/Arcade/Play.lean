import Intcode.Arcade
import Intcode.Program
import Intcode.Session.Stepping

/-! A game under the control of a program: the program draws, and every request
for input finishes a frame and reads the joystick. -/

namespace Intcode.Arcade

/-- A game, the session that plays it, and what the player saw. -/
structure Play where
  game : Game
  session : Session
  shown : Array Game := #[]
  pauses : Nat := 0

namespace Play

def think {α : Type} : Call Session α → Call Play α :=
  Call.onPart session fun session play => { play with session }

def finishFrame : Call Play Unit :=
  modify fun play =>
    let game := { play.game with frames := play.game.frames + 1 }
    { play with game, shown := play.shown.push game }

def drawFrom (x : Int) : Call Play Unit := do
  match ← think (Session.stepRead 2) with
  | some (y :: code :: _) =>
    let game ← Call.ofExcept ((← get).game.draw x y code)
    modify ({ · with game })
  | _ => throw (.drawCutShort x)

/-- Serve suspensions until the program halts. A joystick may fail to answer. -/
def serveAll (joystick : Game → Option Int) (pausing : Bool) :
    (rounds : Nat) → Suspension → Call Play Unit
  | _, .complete => finishFrame
  | 0, _ => Call.unfinished
  | rounds + 1, .producedOutput x => do
    drawFrom x
    serveAll joystick pausing rounds (← think (Session.resume none))
  | rounds + 1, .awaitingInput _ => do
    finishFrame
    if pausing then modify fun play => { play with pauses := play.pauses + 1 }
    let position := joystick (← get).game
    serveAll joystick pausing rounds (← think (Session.resume position))

end Play

def Game.begin (game : Game) (program : Program) : Play :=
  let session := program.start false none
  match game.quarters with
  | none => { game, session }
  | some quarters =>
    let memory := session.machine.memory.put 0 quarters
    { game, session := session.withMachine { session.machine with memory } }

/-- Play until the program halts. The answer is the final score. -/
def Play.finish (joystick : Game → Option Int) (pausing : Bool) : Call Play Int := do
  let rounds ← read
  serveAll joystick pausing rounds (← think (Session.resume none))
  return (← get).game.score

end Intcode.Arcade
