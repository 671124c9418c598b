import Intcode.Proofs.Charts
import Intcode.Proofs.Mission

/-! Orders of which some are refused. A command paints before it looks at its turn, so an order with
a known colour and an unknown turn is refused and its paint stays. A robot that was left so and the
robot that never got the order stand on the same panel: the next order that is carried out paints it
over, and until then its paint is all they differ in. -/

namespace Intcode.Hull

namespace Order

def accepted (order : Order) : Bool :=
  (Paint.ofCode order.colour).isOk && (Turn.ofCode order.turn).isOk

/-- The paint that refused orders left on the panel under the robot, once `order` was given as well. -/
def stain (left : Option Paint) (order : Order) : Option Paint :=
  match Paint.ofCode order.colour, Turn.ofCode order.turn with
  | .error _, _ => left
  | .ok paint, .error _ => some paint
  | .ok _, .ok _ => none

def lastStain (orders : List Order) : Option Paint := orders.foldl stain none

private theorem accepted_iff {order : Order} : order.accepted = true ↔
    ∃ paint turn, Paint.ofCode order.colour = .ok paint ∧ Turn.ofCode order.turn = .ok turn := by
  unfold accepted
  cases Paint.ofCode order.colour with
  | error fault => simp [Except.isOk, Except.toBool]
  | ok paint => cases Turn.ofCode order.turn <;> simp [Except.isOk, Except.toBool]

end Order

namespace Robot

/-- Give an order, and answer whether it was carried out. -/
def offer (order : Order) : Call Robot Bool :=
  try command order.colour order.turn; pure true catch _ => pure false

/-- Give orders one after the other, whatever becomes of them. The answer is those carried out. -/
def attempt : List Order → Call Robot (List Order)
  | [] => return []
  | order :: orders => do
    let obeyed ← offer order
    let others ← attempt orders
    return if obeyed then order :: others else others

/-- The robot with such paint under it. -/
def stained (robot : Robot) (left : Option Paint) : Robot := left.elim robot robot.paint

variable {robot : Robot} {order : Order} {orders : List Order}

private theorem paint_paint (robot : Robot) (first second : Paint) :
    (robot.paint first).paint second = robot.paint second :=
  congrArg (fun panels => { robot with panels }) (Chart.set_set ..)

private theorem stained_paint (robot : Robot) (left : Option Paint) (paint : Paint) :
    (robot.stained left).paint paint = robot.paint paint := by
  cases left with
  | none => rfl
  | some first => exact paint_paint robot first paint

private theorem stained_eq_self_iff {left : Option Paint} :
    robot.stained left = robot ↔ ∀ paint ∈ left, robot.panels.get? robot.location = some paint := by
  cases left with
  | none => simp [stained]
  | some paint =>
    have painted : robot.paint paint = robot ↔ robot.panels.set robot.location paint = robot.panels :=
      ⟨congrArg panels, congrArg fun panels => { robot with panels }⟩
    simpa [stained, Chart.set_eq_self_iff] using painted

@[simp]
theorem location_stained (robot : Robot) (left : Option Paint) : (robot.stained left).location = robot.location := by
  cases left <;> rfl

@[simp]
theorem facing_stained (robot : Robot) (left : Option Paint) : (robot.stained left).facing = robot.facing := by
  cases left <;> rfl

private theorem get?_stained (robot : Robot) (left : Option Paint) (panel : Int × Int) :
    (robot.stained left).panels.get? panel =
      if panel = robot.location then left.or (robot.panels.get? panel) else robot.panels.get? panel := by
  cases left with
  | none => simp [stained]
  | some paint => exact Chart.get?_set robot.panels robot.location panel paint

private theorem camera_stained (robot : Robot) (left : Option Paint) :
    (robot.stained left).camera = left.getD robot.camera := by
  unfold camera paintAt
  rw [location_stained, get?_stained, if_pos rfl]
  cases left <;> rfl

private theorem painted_stained (robot : Robot) (left : Option Paint) :
    (robot.stained left).painted = robot.painted +
      (if left.isSome ∧ robot.panels.get? robot.location = none then 1 else 0) := by
  cases left with
  | none => simp [stained]
  | some paint =>
    refine (Chart.size_set robot.panels robot.location paint).trans ?_
    cases robot.panels.get? robot.location <;> rfl

private theorem offer_apply (order : Order) (bound : Nat) (robot : Robot) :
    offer order bound robot = (command order.colour order.turn bound robot).map fun (outcome, after) =>
      (.ok outcome.isOk, after) := by
  change ((command order.colour order.turn >>= fun _ => pure true : Call Robot Bool) bound robot).bind _ = _
  rw [Call.bind_apply, command_apply]
  cases Paint.ofCode order.colour with
  | error fault => rfl
  | ok paint => cases Turn.ofCode order.turn <;> rfl

theorem offer_of_refused (refused : order.accepted = false) (left : Option Paint) (bound : Nat) :
    offer order bound (robot.stained left) = some (.ok false, robot.stained (order.stain left)) := by
  rw [offer_apply, command_apply, Order.stain]
  cases paints : Paint.ofCode order.colour with
  | error fault => rfl
  | ok paint =>
    cases turns : Turn.ofCode order.turn with
    | error fault =>
      simp only [stained_paint]
      rfl
    | ok turn =>
      have accepted := Order.accepted_iff.mpr ⟨paint, turn, paints, turns⟩
      rw [refused] at accepted
      cases accepted

theorem offer_of_accepted (accepted : order.accepted = true) (robot : Robot) (left : Option Paint) :
    ∃ next, (∀ bound, command order.colour order.turn bound robot = some (.ok (), next)) ∧
      ∀ bound, offer order bound (robot.stained left) = some (.ok true, next.stained (order.stain left)) := by
  obtain ⟨paint, turn, paints, turns⟩ := Order.accepted_iff.mp accepted
  refine ⟨((robot.paint paint).turn turn).advance 1, ?_, ?_⟩
  · intro bound
    rw [command_apply, paints, turns]
  · intro bound
    rw [offer_apply, command_apply, Order.stain, paints, turns]
    simp only [stained_paint]
    rfl

private theorem ends_attempt_cons {obeyed : Bool} {before middle after : Robot} {others : List Order}
    (offered : ∀ bound, offer order bound before = some (.ok obeyed, middle))
    (attempts : (attempt orders).Ends middle (.ok others) after) :
    (attempt (order :: orders)).Ends before (.ok (if obeyed then order :: others else others)) after := by
  obtain ⟨bound, found⟩ := attempts
  apply (Call.ends_bind_of_ok offered).mpr
  refine ⟨bound, ?_⟩
  rw [Call.bind_apply, found]
  rfl

/-- The orders that are carried out take the robot to `last`. Given all of them, and standing on a
stain to begin with, it ends there as well, on the stain that was left since the last of these. -/
theorem ends_attempt (orders : List Order) (robot : Robot) (left : Option Paint) :
    ∃ last, (obey (orders.filter Order.accepted)).Ends robot (.ok ()) last ∧
      (attempt orders).Ends (robot.stained left) (.ok (orders.filter Order.accepted))
        (last.stained (orders.foldl Order.stain left)) := by
  induction orders generalizing robot left with
  | nil => exact ⟨robot, ⟨0, rfl⟩, ⟨0, rfl⟩⟩
  | cons order orders ih =>
    rw [List.filter_cons]
    cases verdict : order.accepted with
    | false =>
      obtain ⟨last, obeys, attempts⟩ := ih robot (order.stain left)
      exact ⟨last, obeys, ends_attempt_cons (offer_of_refused verdict left) attempts⟩
    | true =>
      obtain ⟨next, acts, offered⟩ := offer_of_accepted verdict robot left
      obtain ⟨last, obeys, attempts⟩ := ih next (order.stain left)
      exact ⟨last, ends_obey_cons ⟨0, acts 0⟩ obeys, ends_attempt_cons offered attempts⟩

/-- Orders of which some are refused take the robot where those alone take it that are carried out. It
faces the same way, every other panel is the same, and under the camera is the paint of the last order
since then that was refused for its turn alone. So nothing is left of the refused orders just if there
was none such, or its paint was there before. -/
theorem refused_orders_leave_stain (robot : Robot) (orders : List Order) : ∃ kept after,
    (obey (orders.filter Order.accepted)).Ends robot (.ok ()) kept ∧
    (attempt orders).Ends robot (.ok (orders.filter Order.accepted)) after ∧
    after.location = kept.location ∧ after.facing = kept.facing ∧
    (∀ panel, panel ≠ kept.location → after.panels.get? panel = kept.panels.get? panel) ∧
    after.camera = (Order.lastStain orders).getD kept.camera ∧
    after.painted = kept.painted +
      (if (Order.lastStain orders).isSome ∧ kept.panels.get? kept.location = none then 1 else 0) ∧
    (after = kept ↔ ∀ paint ∈ Order.lastStain orders, kept.panels.get? kept.location = some paint) := by
  obtain ⟨kept, obeys, attempts⟩ := ends_attempt orders robot none
  refine ⟨kept, _, obeys, attempts, location_stained .., facing_stained .., ?_, camera_stained ..,
    painted_stained .., stained_eq_self_iff⟩
  intro panel elsewhere
  rw [get?_stained, if_neg elsewhere]

/-- White with an unknown turn: the order is refused, and the panel is white all the same. -/
theorem stain_of_unknown_turn : ∃ kept after,
    (obey []).Ends {} (.ok ()) kept ∧ (attempt [⟨0, 1, 5⟩]).Ends {} (.ok []) after ∧
    kept.painted = 0 ∧ after.painted = 1 ∧ kept.camera = .black ∧ after.camera = .white ∧
    kept.picture = "" ∧ after.picture = "#\n" :=
  ⟨{}, ⟨⟨[((0, 0), .white)]⟩, (0, 0), .up⟩, ⟨0, rfl⟩, ⟨0, rfl⟩, rfl, rfl, rfl, rfl,
    by decide +kernel, by decide +kernel⟩

end Robot
end Intcode.Hull
