import Intcode.Hull.Mission
import Intcode.Proofs.Dropping
import Intcode.Proofs.OpenLoop

/-! A robot's run as a replay of its commands. What the camera shows depends on all that the program
commanded before, and what the program commands depends on what the camera showed. Written down as
orders, both can be played back: the readings to the program, and the commands to the robot. -/

namespace Intcode.Hull

/-- A command of the program, and the reading that it was given for. -/
structure Order where
  reading : Int
  colour : Int
  turn : Int

def Order.words (order : Order) : List Int := [order.colour, order.turn]

namespace Robot

def obey (orders : List Order) : Call Robot Unit :=
  orders.forM fun order => command order.colour order.turn

variable {before middle after : Robot} {order : Order} {orders : List Order}

theorem command_apply (colour turn : Int) (bound : Nat) (robot : Robot) :
    command colour turn bound robot = some (match Paint.ofCode colour, Turn.ofCode turn with
      | .error fault, _ => (.error fault, robot)
      | .ok paint, .error fault => (.error fault, robot.paint paint)
      | .ok paint, .ok turn => (.ok (), ((robot.paint paint).turn turn).advance 1)) := by
  unfold command
  simp only [Call.bind_apply, Call.ofExcept, Call.modify_apply]
  cases Paint.ofCode colour with
  | error fault => rfl
  | ok paint => cases Turn.ofCode turn <;> rfl

private theorem steady_command (colour turn : Int) : (command colour turn).Steady :=
  Call.steady_of_instant fun _ _ => rfl

theorem steady_obey (orders : List Order) : (obey orders).Steady := by
  induction orders with
  | nil => exact Call.steady_pure ()
  | cons order orders ih => exact Call.steady_bind (steady_command _ _) fun _ => ih

theorem ends_obey_cons (acts : (command order.colour order.turn).Ends before (.ok ()) middle)
    (obeys : (obey orders).Ends middle (.ok ()) after) :
    (obey (order :: orders)).Ends before (.ok ()) after :=
  (Call.ends_bind (steady_command _ _) fun _ => steady_obey orders).mpr (.inr ⟨(), middle, acts, obeys⟩)

theorem bits_of_command {colour turn : Int} (acts : (command colour turn).Ends before (.ok ()) after) :
    (colour = 0 ∨ colour = 1) ∧ (turn = 0 ∨ turn = 1) := by
  obtain ⟨paint, _, painted, acts⟩ := acts.of_bind_ok
  obtain ⟨_, _, _, acts⟩ := acts.of_bind_ok
  obtain ⟨way, _, turned, _⟩ := acts.of_bind_ok
  have paints := (Call.ends_ofExcept.mp painted).1
  have turns := (Call.ends_ofExcept.mp turned).1
  unfold Paint.ofCode at paints
  unfold Turn.ofCode at turns
  grind

end Robot

/-- Orders carried out one after the other, each of them given for what the camera showed. -/
inductive Obeyed : Robot → List Order → Robot → Prop where
  | rest : Obeyed robot [] robot
  | next (reading : order.reading = before.camera.code)
    (acts : (Robot.command order.colour order.turn).Ends before (.ok ()) middle)
    (obeyed : Obeyed middle orders after) : Obeyed before (order :: orders) after

namespace Obeyed

variable {before after : Robot} {order : Order} {orders : List Order}

theorem ends_obey (obeyed : Obeyed before orders after) : (Robot.obey orders).Ends before (.ok ()) after := by
  induction obeyed with
  | rest => exact ⟨0, rfl⟩
  | next _ acts _ ih => exact Robot.ends_obey_cons acts ih

theorem seen (obeyed : Obeyed before orders after) {index : Nat} (found : orders[index]? = some order) :
    (order.colour = 0 ∨ order.colour = 1) ∧ (order.turn = 0 ∨ order.turn = 1) ∧
      ∃ middle, (Robot.obey (orders.take index)).Ends before (.ok ()) middle ∧
        order.reading = middle.camera.code := by
  induction obeyed generalizing index with
  | rest => cases found
  | next reading acts _ ih =>
    cases index with
    | zero =>
      cases found
      obtain ⟨colour, turn⟩ := Robot.bits_of_command acts
      exact ⟨colour, turn, _, ⟨0, rfl⟩, reading⟩
    | succ index =>
      obtain ⟨colour, turn, last, obeys, seen⟩ := ih found
      exact ⟨colour, turn, last, Robot.ends_obey_cons acts obeys, seen⟩

end Obeyed

namespace Mission

open Session (Resumed)

variable {before after : Mission}

/-- The ways in which a cycle succeeds. -/
inductive Cycled (before : Mission) : Bool → Mission → Prop where
  | halted (resumed : Resumed before.session [] [] left)
    (stopped : left.machine.suspension = some .complete) : Cycled before false ⟨before.robot, left⟩
  | obeyed (resumed : Resumed before.session [before.robot.camera.code] [colour, turn] left)
    (acts : (Robot.command colour turn).Ends before.robot (.ok ()) moved) : Cycled before true ⟨moved, left⟩

private theorem cycled {asked : Bool} (ends : cycle.Ends before (.ok asked) after) : Cycled before asked after := by
  obtain ⟨waited, _, thought, ends⟩ := ends.of_bind_ok
  obtain ⟨waiting, waits, rfl⟩ := Call.ends_onPart.mp thought
  rcases Session.waitForInput_stands waits with ⟨rfl, _⟩ | ⟨rfl, stopped⟩
  · rw [if_pos rfl, Call.ends_get_bind] at ends
    obtain ⟨answer, _, thought, ends⟩ := ends.of_bind_ok
    obtain ⟨left, steps, rfl⟩ := Call.ends_onPart.mp thought
    split at ends
    next colour turn more =>
      have only : more = [] := by
        have two := Session.stepN_length steps
        simpa using two
      subst only
      obtain ⟨_, _, moved, ends⟩ := ends.of_bind_ok
      obtain ⟨robot, acts, rfl⟩ := Call.ends_onPart.mp moved
      obtain ⟨same, rfl⟩ := Call.ends_pure.mp ends
      cases same
      have resumed := (Session.waitForInput_resumed waits).trans (Session.stepN_resumed steps)
      exact .obeyed resumed acts
    next => cases (Call.ends_throw.mp ends).1
  · obtain ⟨same, rfl⟩ := Call.ends_pure.mp ends
    cases same
    exact .halted (Session.waitForInput_resumed waits) stopped

/-- Over any number of cycles the program consumed a reading and emitted a command for each order,
and nothing else. -/
theorem ends_cycles {rounds : Nat} (ends : (cycles rounds).Ends before (.ok ()) after) :
    ∃ orders, Obeyed before.robot orders after.robot ∧
      Resumed before.session (orders.map (·.reading)) (orders.flatMap (·.words)) after.session ∧
      after.session.machine.suspension = some .complete := by
  induction rounds generalizing before with
  | zero =>
    obtain ⟨_, impossible⟩ := ends
    cases impossible
  | succ rounds ih =>
    obtain ⟨asked, middle, ends, onward⟩ := ends.of_bind_ok
    cases cycled ends with
    | halted resumed stopped =>
      obtain ⟨_, rfl⟩ := Call.ends_pure.mp onward
      exact ⟨[], .rest, resumed, stopped⟩
    | @obeyed colour turn left moved resumed acts =>
      obtain ⟨orders, obeyed, resumed', stopped⟩ := ih onward
      exact ⟨⟨before.robot.camera.code, colour, turn⟩ :: orders, .next rfl acts obeyed,
        resumed.trans resumed', stopped⟩

end Mission

/-- Whenever a robot's run is over, it was a replay of orders. The program, run on their readings as a
list, takes all of them, delivers just their commands and ends in the very session of the robot's run.
The robot that carries out these commands ends where the run left it, and every reading is what it
sees when it comes to that order. No word was emitted beyond the commands, and no reading dropped. -/
theorem Robot.follow_replays {program : Program} {robot after : Robot}
    (ends : (Robot.follow program).Ends robot (.ok ()) after) :
    ∃ orders finished,
      Exchange.collect.Ends (program.exchange (orders.map (·.reading)) false none)
        (.ok (orders.flatMap (·.words))) finished ∧ finished.inputs = [] ∧
      (Robot.obey orders).Ends robot (.ok ()) after ∧
      (∀ index order, orders[index]? = some order →
        (order.colour = 0 ∨ order.colour = 1) ∧ (order.turn = 0 ∨ order.turn = 1) ∧
        ∃ before, (Robot.obey (orders.take index)).Ends robot (.ok ()) before ∧
          order.reading = before.camera.code) ∧
      ∃ rounds, (Mission.cycles rounds).Ends ⟨robot, program.start false none⟩ (.ok ())
        ⟨after, finished.session⟩ ∧
        finished.session.emitted = orders.flatMap (·.words) ∧ finished.session.lost = [] := by
  obtain ⟨rounds, answered⟩ := ends
  obtain ⟨⟨outcome, mission⟩, ran, same⟩ := Option.map_eq_some_iff.mp answered
  cases same
  obtain ⟨orders, obeyed, resumed, stopped⟩ := Mission.ends_cycles ⟨rounds, ran⟩
  have drives := resumed.ends_drive rfl (.halted stopped)
  exact ⟨orders, _, Exchange.ends_collect_ok.mpr ⟨drives, rfl⟩, rfl, obeyed.ends_obey,
    fun index order found => obeyed.seen found, rounds, ⟨rounds, ran⟩, resumed.accounted.journal,
    resumed.lost_eq⟩

/-- A program paints white and turns right, then paints the colour that it is shown and turns left. -/
theorem follow_replays_echo : ∃ orders finished,
    (Robot.follow ⟨[3, 100, 104, 1, 104, 1, 3, 100, 4, 100, 104, 0, 99]⟩).Ends {} (.ok ())
      ⟨⟨[((0, 0), .white), ((1, 0), .black)]⟩, (1, 1), .up⟩ ∧
    Exchange.collect.Ends (Program.exchange ⟨[3, 100, 104, 1, 104, 1, 3, 100, 4, 100, 104, 0, 99]⟩
      (orders.map Order.reading) false none) (.ok (orders.flatMap (·.words))) finished ∧
    (Robot.obey orders).Ends {} (.ok ()) ⟨⟨[((0, 0), .white), ((1, 0), .black)]⟩, (1, 1), .up⟩ := by
  have ends : (Robot.follow ⟨[3, 100, 104, 1, 104, 1, 3, 100, 4, 100, 104, 0, 99]⟩).Ends {} (.ok ())
      ⟨⟨[((0, 0), .white), ((1, 0), .black)]⟩, (1, 1), .up⟩ := ⟨9, by decide +kernel⟩
  obtain ⟨orders, finished, collects, _, obeys, _⟩ := Robot.follow_replays ends
  exact ⟨orders, finished, ends, collects, obeys⟩

end Intcode.Hull
