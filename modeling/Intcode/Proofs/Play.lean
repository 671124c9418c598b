import Intcode.Arcade.Play
import Intcode.Proofs.Dropping
import Intcode.Proofs.OpenLoop
import Intcode.Proofs.Patching

/-! A game's run as a replay of what was drawn. The program's words are taken three at a time by two
loops that share one machine, and a request for the joystick can only fall between two draw commands.
So every frame is what the commands before it have drawn. -/

namespace Intcode.Arcade

/-- A draw command of the program. -/
structure Draw where
  x : Int
  y : Int
  code : Int

def Draw.words (draw : Draw) : List Int := [draw.x, draw.y, draw.code]

namespace Game

variable {game : Game} {program : Program} {draw : Draw} {draws : List Draw}

/-- The game after draw commands, carried out one after the other. -/
def drawn (game : Game) (draws : List Draw) : Except Fault Game :=
  draws.foldlM (fun game draw => game.draw draw.x draw.y draw.code) game

theorem drawn_concat : game.drawn (draws ++ [draw]) =
    game.drawn draws >>= fun drawn => drawn.draw draw.x draw.y draw.code := by
  unfold drawn
  rw [List.foldlM_append]
  exact bind_congr fun drawn => bind_pure _

theorem draw_frames (frames : Nat) (x y code : Int) :
    ({ game with frames }).draw x y code = (game.draw x y code).map ({ · with frames }) := by
  unfold Game.draw
  split
  · rfl
  · cases Tile.ofCode code <;> rfl

/-- The program with the quarters, if there are any, in place of its first word. -/
def coined (game : Game) (program : Program) : Program :=
  match game.quarters with
  | none => program
  | some quarters => program.edit 0 quarters

private theorem alike_begin : Session.Alike (game.begin program).session ((game.coined program).start false none) := by
  have fresh : Session.Alike (program.start false none) (program.start false none) :=
    Machine.load_resembles false false none fun _ => rfl
  unfold Game.begin coined
  cases game.quarters with
  | none => exact fresh
  | some quarters => exact fresh.stored 0 quarters

private theorem begin_eq (game : Game) (program : Program) :
    game.begin program = { game, session := (game.begin program).session } := by
  unfold Game.begin
  split <;> rfl

theorem begin_fresh (game : Game) (program : Program) : (game.begin program).session.lost = [] ∧
    (game.begin program).session.emitted = [] ∧ (game.begin program).session.machine.suspension = none := by
  unfold Game.begin
  split <;> exact ⟨rfl, rfl, rfl⟩

end Game

namespace Play

open Session (Resumed)

variable {joystick : Game → Int} {pausing : Bool} {game : Game} {start : Session} {frames : List Game}
  {draws : List Draw} {suspension next : Suspension} {before middle after : Play}

private theorem ends_drawFrom {x : Int} (ends : (drawFrom x).Ends before (.ok ()) after) :
    ∃ (draw : Draw) (session : Session) (game : Game), draw.x = x ∧
      Resumed before.session [] [draw.y, draw.code] session ∧
      before.game.draw draw.x draw.y draw.code = .ok game ∧ after = { before with session, game } := by
  obtain ⟨answer, _, thought, ends⟩ := ends.of_bind_ok
  obtain ⟨session, reads, rfl⟩ := Call.ends_onPart.mp thought
  split at ends
  next y code more =>
    have only : more = [] := by
      have two := Session.stepRead_length reads
      simpa using two
    subst only
    rw [Call.ends_get_bind] at ends
    obtain ⟨game, _, found, _, sets⟩ := ends.of_bind_ok
    obtain ⟨drew, rfl⟩ := Call.ends_ofExcept.mp found
    cases sets
    exact ⟨⟨x, y, code⟩, session, game, rfl, Session.stepRead_resumed reads, drew.symm, rfl⟩
  next => cases (Call.ends_throw.mp ends).1

def framed (play : Play) : Play :=
  let game := { play.game with frames := play.game.frames + 1 }
  { play with game, shown := play.shown.push game }

/-- The play with its frame finished and a pause made, if there are pauses. -/
def paused (pausing : Bool) (play : Play) : Play :=
  { play.framed with pauses := play.pauses + if pausing then 1 else 0 }

theorem ends_finishFrame {outcome : Except Fault Unit} :
    finishFrame.Ends before outcome after ↔ outcome = .ok () ∧ after = before.framed := by
  have instant (bound : Nat) : finishFrame bound before = some (.ok (), before.framed) := rfl
  simp [Call.Ends, instant, eq_comm]

private theorem ends_serveAll_input {reading : Game → Option Int} {rounds : Nat} {address : Int}
    (ends : (serveAll reading pausing (rounds + 1) (.awaitingInput address)).Ends before (.ok ()) after) :
    ∃ next middle,
      (think (Session.resume (reading before.framed.game))).Ends (before.paused pausing) (.ok next) middle ∧
      (serveAll reading pausing rounds next).Ends middle (.ok ()) after := by
  obtain ⟨_, _, finished, ends⟩ := ends.of_bind_ok
  obtain ⟨_, rfl⟩ := ends_finishFrame.mp finished
  cases pausing with
  | false =>
    simp only [Bool.false_eq_true, if_false, Call.ends_get_bind] at ends
    exact ends.of_bind_ok
  | true =>
    obtain ⟨_, _, ⟨_, made⟩, ends⟩ := ends.of_bind_ok
    cases made
    rw [Call.ends_get_bind] at ends
    exact ends.of_bind_ok

/-- A request for the joystick found the game as it was after these draw commands, with these many
frames finished before. -/
structure Requested (game : Game) (start : Session) (positions : List Int) (draws : List Draw)
    (finished : Nat) (frame : Game) : Prop where
  asking : ∃ session, Resumed start positions (draws.flatMap (·.words)) session ∧ session.Awaits
  screen : ∃ drawn, game.drawn draws = .ok drawn ∧ frame = { drawn with frames := game.frames + finished + 1 }

/-- What holds between two rounds of the loop, with the words that the machine has just emitted still
to be served. -/
structure Progress (joystick : Game → Int) (pausing : Bool) (game : Game) (start : Session)
    (frames : List Game) (draws : List Draw) (suspension : Suspension) (now : Play) : Prop where
  resumed : Resumed start (frames.map joystick) (draws.flatMap (·.words) ++ suspension.words) now.session
  stands : now.session.machine.suspension = some suspension
  screen : ∃ drawn, game.drawn draws = .ok drawn ∧ now.game = { drawn with frames := game.frames + frames.length }
  shown : now.shown.toList = frames
  pauses : now.pauses = if pausing then frames.length else 0
  requested : ∀ index frame, frames[index]? = some frame → ∃ count ≤ draws.length,
    Requested game start ((frames.take index).map joystick) (draws.take count) index frame

namespace Progress

theorem drew {x : Int}
    (progress : Progress joystick pausing game start frames draws (.producedOutput x) before)
    (ends : (drawFrom x).Ends before (.ok ()) middle)
    (thought : (think (Session.resume none)).Ends middle (.ok next) after) :
    ∃ draw, Progress joystick pausing game start frames (draws ++ [draw]) next after := by
  obtain ⟨draw, session, shape, rfl, read, drew, rfl⟩ := ends_drawFrom ends
  obtain ⟨last, resumes, rfl⟩ := Call.ends_onPart.mp thought
  refine ⟨draw, ?_, (Session.resume_emits resumes).1, ?_, progress.shown, progress.pauses, ?_⟩
  · have went := (progress.resumed.trans read).trans (.of_none resumes)
    simpa [Draw.words, Suspension.words] using went
  · obtain ⟨drawn, found, same⟩ := progress.screen
    rw [same, Game.draw_frames] at drew
    obtain ⟨last, made, rfl⟩ := Outcome.map_eq_ok_iff.mp drew
    exact ⟨last, by rw [Game.drawn_concat, found]; exact made, rfl⟩
  · intro index frame found
    obtain ⟨count, inside, requested⟩ := progress.requested index frame found
    refine ⟨count, ?_, ?_⟩
    · rw [List.length_append]
      exact Nat.le_add_right_of_le inside
    · rwa [List.take_append_of_le_length inside]

theorem framed {address : Int}
    (progress : Progress joystick pausing game start frames draws (.awaitingInput address) before) :
    Requested game start (frames.map joystick) draws frames.length before.framed.game := by
  obtain ⟨drawn, found, same⟩ := progress.screen
  have resumed := progress.resumed
  rw [show (Suspension.awaitingInput address).words = [] from rfl, List.append_nil] at resumed
  exact ⟨⟨before.session, resumed, address, progress.stands⟩, drawn, found, by rw [Play.framed, same]⟩

theorem asked {address : Int}
    (progress : Progress joystick pausing game start frames draws (.awaitingInput address) before)
    (thought : (think (Session.resume (some (joystick before.framed.game)))).Ends (before.paused pausing)
      (.ok next) after) :
    Progress joystick pausing game start (frames ++ [before.framed.game]) draws next after := by
  obtain ⟨last, resumes, rfl⟩ := Call.ends_onPart.mp thought
  have requested := progress.framed
  obtain ⟨drawn, found, same⟩ := requested.screen
  refine ⟨?_, (Session.resume_emits resumes).1, ⟨drawn, found, ?_⟩, ?_, ?_, ?_⟩
  · have went := progress.resumed.trans (.of_fed progress.stands resumes)
    simpa [Suspension.words] using went
  · rw [List.length_append, List.length_singleton, ← Nat.add_assoc]
    exact same
  · rw [← progress.shown]
    exact Array.toList_push
  · rw [List.length_append, List.length_singleton]
    change before.pauses + (if pausing then 1 else 0) = _
    rw [progress.pauses]
    split <;> rfl
  · intro index frame asks
    rcases Nat.lt_trichotomy index frames.length with inside | rfl | outside
    · rw [List.getElem?_append_left inside] at asks
      rw [List.take_append_of_le_length (Nat.le_of_lt inside)]
      exact progress.requested index frame asks
    · rw [List.getElem?_concat_length] at asks
      cases asks
      refine ⟨draws.length, Nat.le_refl _, ?_⟩
      rw [List.take_left', List.take_length]
      · exact requested
      · rfl
    · rw [List.getElem?_eq_none] at asks
      · cases asks
      · rwa [List.length_append, List.length_singleton]

end Progress

/-- Every round of the loop draws a command or serves a request. -/
theorem ends_serveAll {rounds : Nat}
    (progress : Progress joystick pausing game start frames draws suspension before)
    (ends : (serveAll (fun game => some (joystick game)) pausing rounds suspension).Ends before
      (.ok ()) after) :
    ∃ frames draws now,
      Progress joystick pausing game start frames draws .complete now ∧ after = now.framed := by
  induction rounds generalizing frames draws suspension before with
  | zero =>
    cases suspension with
    | complete => exact ⟨frames, draws, before, progress, (ends_finishFrame.mp ends).2⟩
    | producedOutput x | awaitingInput address =>
      obtain ⟨_, impossible⟩ := ends
      cases impossible
  | succ rounds ih =>
    cases suspension with
    | complete => exact ⟨frames, draws, before, progress, (ends_finishFrame.mp ends).2⟩
    | producedOutput x =>
      obtain ⟨_, middle, drew, ends⟩ := ends.of_bind_ok
      obtain ⟨next, resumed, thought, ends⟩ := ends.of_bind_ok
      obtain ⟨draw, progress⟩ := progress.drew drew thought
      exact ih progress ends
    | awaitingInput address =>
      obtain ⟨next, middle, thought, ends⟩ := ends_serveAll_input ends
      exact ih (progress.asked thought) ends

/-- What happened since the game began is what driving the program with its quarters comes to. -/
theorem ends_drive_coined {program : Program} {positions words : List Int} {session : Session}
    {outcome : Except Fault Unit} (resumed : Resumed (game.begin program).session positions words session)
    (rests : session.Rests outcome) :
    ∃ finished, Exchange.drive.Ends ((game.coined program).exchange positions false none) outcome finished ∧
      finished.inputs = [] ∧ finished.outputs.toList = words := by
  obtain ⟨_, _, fresh⟩ := Game.begin_fresh game program
  obtain ⟨finished, drives, taken, outputs, _⟩ := Game.alike_begin.ends_drive (resumed.ends_drive fresh rests)
  exact ⟨finished, drives, taken, congrArg Array.toList outputs⟩

/-- Whenever a game's run is over, it was a replay of draw commands. The program with its quarters,
run on the joystick positions as a list, takes all of them and delivers just the commands, each of
them whole. The positions are what the joystick answered at the frames that were shown; every such
frame is what the commands before its request have drawn, and the last one is what all have drawn.
There was a pause after each frame but the last, if there were pauses at all, and no position was
dropped. -/
theorem finish_replays {program : Program} {score : Int} {play : Play}
    (ends : (Play.finish (fun game => some (joystick game)) pausing).Ends (game.begin program)
      (.ok score) play) :
    ∃ frames draws drawn finished,
      Exchange.collect.Ends ((game.coined program).exchange (frames.map joystick) false none)
        (.ok (draws.flatMap (·.words))) finished ∧ finished.inputs = [] ∧
      game.drawn draws = .ok drawn ∧ score = drawn.score ∧
      play.game = { drawn with frames := game.frames + (frames.length + 1) } ∧
      play.shown.toList = frames ++ [play.game] ∧
      (∀ index frame, frames[index]? = some frame → ∃ count ≤ draws.length, ∃ asking before,
        Exchange.drive.Ends ((game.coined program).exchange ((frames.take index).map joystick) false none)
          (.error .inputDrained) asking ∧ asking.inputs = [] ∧
        asking.outputs.toList = (draws.take count).flatMap (·.words) ∧
        game.drawn (draws.take count) = .ok before ∧
        frame = { before with frames := game.frames + index + 1 }) ∧
      play.pauses = (if pausing then frames.length else 0) ∧
      play.session.emitted = draws.flatMap (·.words) ∧ play.session.lost = [] := by
  obtain ⟨kept, silent, _⟩ := Game.begin_fresh game program
  obtain ⟨rounds, _, ⟨_, limited⟩, ends⟩ := ends.of_bind_ok
  cases limited
  obtain ⟨first, _, thought, ends⟩ := ends.of_bind_ok
  obtain ⟨session, resumes, rfl⟩ := Call.ends_onPart.mp thought
  have started : Progress joystick pausing game (game.begin program).session [] [] first
      { game.begin program with session } := by
    have blank := Game.begin_eq game program
    refine ⟨.of_none resumes, (Session.resume_emits resumes).1, ⟨game, rfl, congrArg Play.game blank⟩, ?_, ?_,
      nofun⟩
    · exact congrArg (·.shown.toList) blank
    · rw [List.length_nil, ite_self]
      exact congrArg Play.pauses blank
  obtain ⟨_, last, serves, ends⟩ := ends.of_bind_ok
  rw [Call.ends_get_bind] at ends
  obtain ⟨scored, rfl⟩ := Call.ends_pure.mp ends
  obtain ⟨frames, draws, now, progress, rfl⟩ := ends_serveAll started serves
  obtain ⟨drawn, found, screen⟩ := progress.screen
  have resumed := progress.resumed
  rw [show Suspension.complete.words = [] from rfl, List.append_nil] at resumed
  obtain ⟨finished, drives, taken, outputs⟩ := ends_drive_coined resumed (.halted progress.stands)
  refine ⟨frames, draws, drawn, finished, Exchange.ends_collect_ok.mpr ⟨drives, outputs⟩, taken, found,
    ?_, ?_, ?_, ?_, progress.pauses, ?_, resumed.lost_eq.trans kept⟩
  · have score : score = now.game.score := Except.ok.inj scored
    rw [score, screen]
  · simp only [Play.framed, screen, Nat.add_assoc]
  · exact (Array.toList_push ..).trans (congrArg (· ++ _) progress.shown)
  · intro index frame asked
    obtain ⟨count, inside, ⟨session, requests, awaits⟩, before, drew, seen⟩ :=
      progress.requested index frame asked
    obtain ⟨asking, drives, taken, outputs⟩ := ends_drive_coined requests (.asking awaits)
    exact ⟨count, inside, asking, before, drives, taken, outputs, drew, seen⟩
  · rw [← List.nil_append (draws.flatMap _), ← silent]
    exact resumed.accounted.journal

/-- A program that draws the ball to the right of the paddle and then shows the joystick position as
the score. -/
def pointing : Program :=
  ⟨[1, 0, 0, 30, 104, 5, 104, 1, 104, 4, 104, 2, 104, 1, 104, 3, 3, 100, 104, -1, 104, 0, 4, 100, 99]⟩

theorem finish_replays_pointing : ∃ (frames : List Game) (draws : List Draw) (finished : Exchange) (play : Play),
    (finish (fun game => some game.trackBall) true).Ends (({ quarters := some 2 } : Game).begin pointing)
      (.ok 1) play ∧ play.game.frames = 2 ∧ play.pauses = 1 ∧ play.shown.toList = frames ++ [play.game] ∧
    Exchange.collect.Ends ((({ quarters := some 2 } : Game).coined pointing).exchange
      (frames.map Game.trackBall) false none) (.ok (draws.flatMap (·.words))) finished := by
  have answered : (finish (fun game => some game.trackBall) true 20
      (({ quarters := some 2 } : Game).begin pointing)).map
        (Prod.map id fun play : Play => (play.game.frames, play.pauses)) = some (.ok 1, (2, 1)) := by
    decide +kernel
  obtain ⟨play, ends, seen⟩ := Call.ends_of_view _ 20 answered
  obtain ⟨drew, paused⟩ := Prod.mk.inj seen
  obtain ⟨frames, draws, _, finished, collects, _, _, _, _, shown, _⟩ := finish_replays ends
  exact ⟨frames, draws, finished, play, ends, drew, paused, shown, collects⟩

end Play
end Intcode.Arcade
