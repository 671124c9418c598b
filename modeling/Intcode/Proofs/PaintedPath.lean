import Mathlib.Algebra.Notation.Prod
import Intcode.Proofs.Charts
import Intcode.Proofs.Mission

/-! A robot's path, told by the orders that it was given. It faces where the turns leave it, every
order takes it one panel on, and a panel has the paint of the last order that the robot got there. -/

namespace Intcode.Hull

variable {order : Order} {orders : List Order}

namespace Facing

/-- The quarter turns from up, clockwise. -/
def quarters : Facing → Int
  | up => 0
  | right => 1
  | down => 2
  | left => 3

private theorem quarters_clockwise (facing : Facing) : facing.clockwise.quarters = (facing.quarters + 1) % 4 := by
  cases facing <;> rfl

/-- The step to the panel above, turned clockwise so many quarters. -/
def stride (quarters : Int) : Int × Int := (fun step : Int × Int => (step.2, -step.1))^[quarters.toNat] (0, 1)

private theorem ahead_eq_stride (facing : Facing) : facing.ahead = stride facing.quarters := by
  cases facing <;> rfl

theorem ahead_odd (facing : Facing) : (facing.ahead.1 + facing.ahead.2) % 2 = 1 := by
  cases facing <;> rfl

end Facing

namespace Order

/-- The colour is black or white and the turn is left or right, by their numbers. -/
structure Valid (order : Order) : Prop where
  colour : order.colour = 0 ∨ order.colour = 1
  turn : order.turn = 0 ∨ order.turn = 1

instance (order : Order) : Decidable order.Valid :=
  decidable_of_iff ((order.colour = 0 ∨ order.colour = 1) ∧ (order.turn = 0 ∨ order.turn = 1))
    ⟨fun both => ⟨both.1, both.2⟩, fun valid => ⟨valid.colour, valid.turn⟩⟩

/-- The turns to the right, less those to the left. -/
def bearing (orders : List Order) : Int := orders.countP (·.turn = 1) - orders.countP (·.turn = 0)

/-- The panels that the robot stood on when it got the orders, and the colours that they told. -/
def visits (robots : Nat → Robot) (orders : List Order) : List ((Int × Int) × Int) :=
  orders.zipIdx.map fun (order, index) => ((robots index).location, order.colour)

def paint (order : Order) : Paint := if order.colour = 0 then .black else .white

def way (order : Order) : Turn := if order.turn = 0 then .left else .right

namespace Valid

private theorem paint_code (valid : order.Valid) : order.paint.code = order.colour := by
  unfold paint
  rcases valid.colour with black | white
  · rw [if_pos black, black]
    rfl
  · rw [if_neg (by omega), white]
    rfl

private theorem paint_ofCode (valid : order.Valid) : Paint.ofCode order.colour = .ok order.paint := by
  unfold paint Paint.ofCode
  rcases valid.colour with black | white
  · rw [if_pos black, if_pos black]
  · have other : order.colour ≠ 0 := by omega
    rw [if_neg other, if_pos white, if_neg other]

private theorem turn_ofCode (valid : order.Valid) : Turn.ofCode order.turn = .ok order.way := by
  unfold way Turn.ofCode
  rcases valid.turn with left | right
  · rw [if_pos left, if_pos left]
  · have other : order.turn ≠ 0 := by omega
    rw [if_neg other, if_pos right, if_neg other]

end Valid

private theorem bearing_concat (orders : List Order) (order : Order) :
    bearing (orders ++ [order]) = bearing orders + bearing [order] := by
  simp only [bearing, List.countP_append, Int.natCast_add]
  omega

end Order

namespace Robot

def obeyed (robot : Robot) (order : Order) : Robot := ((robot.paint order.paint).turn order.way).advance 1

def walked (orders : List Order) : Robot := orders.foldl obeyed {}

theorem walked_concat (orders : List Order) (order : Order) : walked (orders ++ [order]) = (walked orders).obeyed order :=
  List.foldl_append

private theorem ends_command (valid : order.Valid) (robot : Robot) :
    (command order.colour order.turn).Ends robot (.ok ()) (robot.obeyed order) := by
  refine ⟨0, ?_⟩
  rw [command_apply, valid.paint_ofCode, valid.turn_ofCode]
  rfl

theorem ends_obey (valid : ∀ order ∈ orders, order.Valid) (robot : Robot) :
    (obey orders).Ends robot (.ok ()) (orders.foldl obeyed robot) := by
  induction orders generalizing robot with
  | nil => exact ⟨0, rfl⟩
  | cons order orders ih =>
    obtain ⟨first, others⟩ := List.forall_mem_cons.mp valid
    exact ends_obey_cons (ends_command first robot) (ih others _)

private theorem facing_obeyed (valid : order.Valid) (robot : Robot) :
    (robot.obeyed order).facing.quarters = (robot.facing.quarters + Order.bearing [order]) % 4 := by
  change (robot.facing.turned order.way).quarters = _
  unfold Order.way
  rcases valid.turn with left | right
  · have back : Order.bearing [order] = -1 := by simp [Order.bearing, left]
    rw [if_pos left, Facing.turned, back]
    simp only [Facing.quarters_clockwise]
    omega
  · have on : Order.bearing [order] = 1 := by simp [Order.bearing, right]
    have other : order.turn ≠ 0 := by omega
    rw [if_neg other, Facing.turned, on, Facing.quarters_clockwise]

private theorem location_obeyed (robot : Robot) (order : Order) :
    (robot.obeyed order).location = robot.location + (robot.obeyed order).facing.ahead := by
  change (_ + _ * 1, _ + _ * 1) = _
  simp only [Int.mul_one]
  rfl

private theorem facing_walked (valid : ∀ order ∈ orders, order.Valid) :
    (walked orders).facing.quarters = Order.bearing orders % 4 := by
  induction orders using List.reverseRecOn with
  | nil => rfl
  | append_singleton orders order ih =>
    obtain ⟨others, last⟩ := List.forall_mem_append.mp valid
    rw [walked_concat, facing_obeyed (last order List.mem_cons_self), ih others, Order.bearing_concat, Int.emod_add_emod]

private theorem parity_walked (orders : List Order) :
    ((walked orders).location.1 + (walked orders).location.2) % 2 = orders.length % 2 := by
  induction orders using List.reverseRecOn with
  | nil => rfl
  | append_singleton orders order ih =>
    have odd := ((walked orders).obeyed order).facing.ahead_odd
    rw [walked_concat, location_obeyed, Prod.fst_add, Prod.snd_add, List.length_append, List.length_singleton]
    omega

/-- The panels that the robot stood on when it got the orders, and the paints that they told. -/
def marks (orders : List Order) : List ((Int × Int) × Paint) :=
  orders.zipIdx.map fun (order, index) => ((walked (orders.take index)).location, order.paint)

private theorem marks_concat (orders : List Order) (order : Order) :
    marks (orders ++ [order]) = marks orders ++ [((walked orders).location, order.paint)] := by
  have earlier : ∀ entry ∈ orders.zipIdx, ((walked ((orders ++ [order]).take entry.2)).location, entry.1.paint) =
      ((walked (orders.take entry.2)).location, entry.1.paint) := by
    intro entry member
    obtain ⟨_, inside, _⟩ := List.mem_zipIdx member
    rw [List.take_append_of_le_length (by omega)]
  rw [marks, List.zipIdx_append, List.map_append, List.map_congr_left earlier]
  simp [marks]

theorem panels_walked (orders : List Order) : (walked orders).panels = Chart.filled (marks orders) := by
  induction orders using List.reverseRecOn with
  | nil => rfl
  | append_singleton orders order ih =>
    rw [walked_concat, marks_concat, Chart.filled_concat, ← ih]
    rfl

private theorem stops_eq (orders : List Order) : (marks orders).map Prod.fst =
    (List.range orders.length).map fun index => (walked (orders.take index)).location := by
  have indices : orders.zipIdx.map Prod.snd = List.range orders.length := by
    rw [List.zipIdx_map_snd, List.range_eq_range']
  rw [marks, List.map_map, ← indices, List.map_map]
  rfl

private theorem visits_eq (valid : ∀ order ∈ orders, order.Valid) :
    Order.visits (fun count => walked (orders.take count)) orders =
      (marks orders).map fun entry => (entry.1, entry.2.code) := by
  rw [marks, List.map_map, Order.visits]
  refine List.map_congr_left fun entry member => ?_
  have told := (valid entry.1 (List.fst_mem_of_mem_zipIdx member)).paint_code
  exact congrArg (Prod.mk _) told.symm

private theorem painted_walked (orders : List Order) : (walked orders).painted =
    ((List.range orders.length).map fun index => (walked (orders.take index)).location).toFinset.card := by
  rw [painted, panels_walked, Chart.size_filled, stops_eq]

private theorem mem_keys_walked {panel : Int × Int} : panel ∈ (walked orders).panels.keys ↔
    ∃ index < orders.length, (walked (orders.take index)).location = panel := by
  rw [panels_walked, Chart.mem_keys_filled, stops_eq]
  simp only [List.mem_map, List.mem_range]

theorem get?_walked (valid : ∀ order ∈ orders, order.Valid) (panel : Int × Int) :
    ((walked orders).panels.get? panel).map Paint.code =
      (Chart.valuesAt (Order.visits (fun count => walked (orders.take count)) orders) panel).getLast? := by
  rw [panels_walked, Chart.get?_filled, visits_eq valid, Chart.valuesAt_map, List.getLast?_map]

private theorem camera_code (robot : Robot) :
    robot.camera.code = ((robot.panels.get? robot.location).map Paint.code).getD 0 := by
  unfold camera paintAt
  cases robot.panels.get? robot.location <;> rfl

theorem camera_of_unpainted {robot : Robot} (fresh : robot.location ∉ robot.panels.keys) : robot.camera = .black := by
  unfold camera paintAt
  cases found : robot.panels.get? robot.location with
  | none => rfl
  | some paint => exact (fresh (Chart.mem_keys_iff.mpr ⟨paint, found⟩)).elim

/-- The robots that carry out orders, one before the first and one after each. What they are is told by
the orders: the facing by the turns, the location by the facings, the paint by the locations. -/
structure Trail (orders : List Order) (robots : Nat → Robot) : Prop where
  obeys : ∀ count ≤ orders.length, (obey (orders.take count)).Ends {} (.ok ()) (robots count)
  facing : ∀ count ≤ orders.length, (robots count).facing.quarters = Order.bearing (orders.take count) % 4
  step : ∀ count < orders.length,
    (robots (count + 1)).location = (robots count).location + Facing.stride (robots (count + 1)).facing.quarters
  parity : ((robots orders.length).location.1 + (robots orders.length).location.2) % 2 = orders.length % 2
  stood : ∀ panel, panel ∈ (robots orders.length).panels.keys ↔
    ∃ index < orders.length, (robots index).location = panel
  paint : ∀ panel, ((robots orders.length).panels.get? panel).map Paint.code =
    (Chart.valuesAt (Order.visits robots orders) panel).getLast?
  painted : (robots orders.length).painted =
    ((List.range orders.length).map fun index => (robots index).location).toFinset.card
  bounds : orders ≠ [] → 1 ≤ (robots orders.length).painted ∧ (robots orders.length).painted ≤ orders.length
  camera : (robots orders.length).camera.code =
    (Chart.valuesAt (Order.visits robots orders) (robots orders.length).location).getLastD 0
  unpainted : (∀ index < orders.length, (robots index).location ≠ (robots orders.length).location) →
    (robots orders.length).camera = .black

/-- Valid orders are all carried out, and they tell the robot's path and all that it painted. -/
theorem orders_tell_trail (valid : ∀ order ∈ orders, order.Valid) : ∃ robots, Trail orders robots := by
  have part (count : Nat) : ∀ order ∈ orders.take count, order.Valid :=
    fun order member => valid order (List.mem_of_mem_take member)
  have whole : walked (orders.take orders.length) = walked orders := by rw [List.take_length]
  refine ⟨fun count => walked (orders.take count), ?_, ?_, ?_, ?_, ?_, ?_, ?_, ?_, ?_, ?_⟩
  · exact fun count _ => ends_obey (part count) {}
  · exact fun count _ => facing_walked (part count)
  · intro count inside
    rw [List.take_succ_eq_append_getElem inside, walked_concat, location_obeyed, Facing.ahead_eq_stride]
  · rw [whole]
    exact parity_walked orders
  · rw [whole]
    exact fun _ => mem_keys_walked
  · rw [whole]
    exact get?_walked valid
  · rw [whole]
    exact painted_walked orders
  · intro some
    rw [whole, painted_walked]
    constructor
    · rw [Nat.succ_le_iff, Finset.card_pos, List.toFinset_nonempty_iff]
      simpa using some
    · refine (List.toFinset_card_le _).trans_eq ?_
      rw [List.length_map, List.length_range]
  · rw [whole, camera_code, get?_walked valid, List.getLastD_eq_getLast?]
  · intro never
    rw [whole] at never ⊢
    apply camera_of_unpainted
    intro member
    obtain ⟨index, inside, same⟩ := mem_keys_walked.mp member
    exact never index inside same

/-- Orders on a path that comes back to a panel. -/
def crossing : List Order := [⟨0, 1, 0⟩, ⟨0, 0, 0⟩, ⟨0, 1, 0⟩, ⟨0, 1, 0⟩, ⟨1, 0, 1⟩, ⟨0, 1, 0⟩, ⟨0, 1, 0⟩]

theorem orders_tell_trail_crossing : (∀ order ∈ crossing, order.Valid) ∧ ∃ robots, Trail crossing robots ∧
    (robots 7).location = (0, 1) ∧ (robots 7).facing = .left ∧ (robots 7).painted = 6 := by
  have valid : ∀ order ∈ crossing, order.Valid := by decide
  obtain ⟨robots, trail⟩ := orders_tell_trail valid
  obtain ⟨_, same⟩ := (trail.obeys 7 (Nat.le_refl 7)).unique (steady_obey _) (ends_obey valid {})
  refine ⟨valid, robots, trail, ?_⟩
  rw [same]
  decide +kernel

end Robot
end Intcode.Hull
