import Intcode.Exchange

/-! Running a program against ports of any kind, one for each direction. An exchange is the
host whose two ports are both open or both closed; here each is chosen by itself. -/

namespace Intcode

/-- What a host offers to a machine of its own: a way to take words from it
and a way to deliver words to it. -/
structure Host (σ : Type) where
  session : σ → Session
  restore : Session → σ → σ
  take : Call σ Int
  deliver : Int → Call σ Unit

namespace Host

variable {σ α : Type} (host : Host σ)

def act : Call Session α → Call σ α := Call.onPart host.session host.restore

def serve : Suspension → Call σ Suspension
  | .awaitingInput _ => do
    let value ← host.take
    host.act (Session.resume (some value))
  | .producedOutput value => do
    host.deliver value
    host.act (Session.resume none)
  | .complete => return .complete

def serveAll : (rounds : Nat) → Suspension → Call σ Unit
  | _, .complete => return ()
  | 0, _ => Call.unfinished
  | rounds + 1, suspension => do
    serveAll rounds (← host.serve suspension)

def drive : Call σ Unit := do
  let rounds ← read
  host.serveAll rounds (← host.act (Session.resume none))

end Host

inductive Source where
  | refusing
  | listed (words : List Int)
  /-- The words never run out. -/
  | endless (words : Nat → Int)

inductive Sink where
  | refusing
  | collected (words : Array Int)
  | printed (text : String)
deriving DecidableEq, Repr

structure Wired where
  session : Session
  source : Source
  sink : Sink

namespace Wired

def take : Call Wired Int := do
  let wired ← get
  match wired.source with
  | .refusing => throw .inputRefused
  | .listed [] => throw .inputDrained
  | .listed (value :: rest) =>
    set { wired with source := .listed rest }
    return value
  | .endless words =>
    set { wired with source := .endless fun index => words (index + 1) }
    return words 0

def deliver (value : Int) : Call Wired Unit := do
  let wired ← get
  match wired.sink with
  | .refusing => throw (.outputRefused value)
  | .collected words => set { wired with sink := .collected (words.push value) }
  | .printed text => set { wired with sink := .printed (text ++ toString value ++ "\n") }

def host : Host Wired where
  session := session
  restore session wired := { wired with session }
  take := take
  deliver := deliver

end Wired

def Exchange.host : Host Exchange where
  session := session
  restore session exchange := { exchange with session }
  take := take
  deliver := deliver

def Program.wired (program : Program) (source : Source) (sink : Sink) (trace : Bool)
    (stepLimit : Option Int) : Wired :=
  { session := program.start trace stepLimit, source, sink }

end Intcode
