import Intcode.Hull
import Intcode.Program
import Intcode.Session.Stepping

/-! A robot under the control of a program: it shows the camera's paint and gets
back what to paint and where to turn. -/

namespace Intcode.Hull

structure Mission where
  robot : Robot
  session : Session

/-- Carry out one command. The paint is applied before the turn is looked at. -/
def Robot.command (colour turn : Int) : Call Robot Unit := do
  let paint ← Call.ofExcept (Paint.ofCode colour)
  modify (·.paint paint)
  let turn ← Call.ofExcept (Turn.ofCode turn)
  modify fun robot => (robot.turn turn).advance 1

namespace Mission

def think {α : Type} : Call Session α → Call Mission α :=
  Call.onPart session fun session mission => { mission with session }

def move {α : Type} : Call Robot α → Call Mission α :=
  Call.onPart robot fun robot mission => { mission with robot }

/-- Carry out one command of the program, if it asks for the camera. The answer
is whether it did. -/
def cycle : Call Mission Bool := do
  if ← think Session.waitForInput then
    match ← think (Session.stepN [(← get).robot.camera.code] 2) with
    | some (colour :: turn :: _) =>
      move (Robot.command colour turn)
      return true
    | _ => throw .commandCutShort
  else
    return false

def cycles : (rounds : Nat) → Call Mission Unit
  | 0 => Call.unfinished
  | rounds + 1 => do
    if ← cycle then cycles rounds

end Mission

def Robot.follow (program : Program) : Call Robot Unit := fun bound robot =>
  (Mission.cycles bound bound ⟨robot, program.start false none⟩).map fun (outcome, mission) =>
    (outcome, mission.robot)

end Intcode.Hull
