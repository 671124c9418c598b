import Intcode.Document.Node
import Intcode.Value.Literal

/-! The objects that nodes stand for. A collection names the objects in it, so that one
object can stand in several places and even inside itself; a value shows what such an
object looks like from one place. -/

namespace Intcode.Document

/-- A value that can be looked up. -/
structure Key where
  value : Value
  /-- The node that a number was made from which equals no number: such numbers are told
  apart by it. One of them is shared by all nodes that name it by its usual name. -/
  source : Option NodeId

/-- The two keys are one: they have one value, or they are the same number that is
none. -/
def Key.isSame (left right : Key) : Bool :=
  left.value.sameKey right.value ||
    (left.value.isNaN && right.value.isNaN && left.source = right.source)

/-- What a node stands for. -/
inductive Object where
  | scalar (key : Key)
  | list (items : List NodeId)
  | pairs (items : List (NodeId × NodeId))
  | mapping (entries : List (Key × NodeId))
  | set (members : List Key)

abbrev Objects := Array (Option Object)

namespace Objects

def object? (objects : Objects) (id : NodeId) : Option Object := (objects[id]?).join

def add (objects : Objects) (object : Object) : NodeId × Objects :=
  (objects.size, objects.push (some object))

def addScalar (objects : Objects) (value : Value) : NodeId × Objects :=
  objects.add (.scalar ⟨value, none⟩)

def addList (objects : Objects) (values : List Value) : NodeId × Objects :=
  let (ids, objects) := values.foldl (fun (ids, objects) value =>
    let (id, objects) := addScalar objects value
    (id :: ids, objects)) ([], objects)
  objects.add (.list ids.reverse)

/-- Entries with a key set: the entry keeps its place if the key is there. -/
def assign (key : Key) (id : NodeId) : List (Key × NodeId) → List (Key × NodeId)
  | [] => [(key, id)]
  | (other, old) :: rest =>
    if other.isSame key then (other, id) :: rest else (other, old) :: assign key id rest

def lookup (name : String) (entries : List (Key × NodeId)) : Option NodeId :=
  let key : Key := ⟨.text name, none⟩
  (entries.find? fun entry => entry.1.isSame key).map Prod.snd

end Objects

/-- What an object looks like inside others. -/
structure View where
  value : Value
  /-- The number of collections around the outermost one that the value holds again, if
  it holds any. Without one the object looks the same everywhere. -/
  outermost : Option Nat

namespace View

def least : Option Nat → Option Nat → Option Nat
  | some m, some n => some (min m n)
  | some m, none => some m
  | none, other => other

def outermostOf (views : List View) : Option Nat :=
  views.foldl (fun found view => least found view.outermost) none

end View

/-- What objects look like everywhere, as far as it is known. -/
abbrev Known := Array (Option Value)

namespace Objects

def isMapping : Object → Bool
  | .mapping _ => true
  | _ => false

/-- Look at an object inside the collections in `path`, the innermost first. `fuel` is
more than the number of objects that are not among them. -/
def view (objects : Objects) : (fuel : Nat) → (path : List NodeId) → NodeId → StateM Known View
  | 0, _, _ => return ⟨.null, none⟩
  | fuel + 1, path, id => do
    let inside (id' : NodeId) : StateM Known View := view objects fuel (id :: path) id'
    let finish (views : List View) (value : Value) : StateM Known View := do
      match View.outermostOf views with
      | none =>
        modify (·.setIfInBounds id (some value))
        return ⟨value, none⟩
      | some depth => return ⟨value, if depth < path.length then some depth else none⟩
    if let some value := ((← get)[id]?).join then return ⟨value, none⟩
    match objects.object? id with
    | none => return ⟨.null, none⟩
    | some object =>
      match path.idxOf? id with
      | some index => return ⟨.recurrence (isMapping object), some (path.length - 1 - index)⟩
      | none =>
        match object with
        | .scalar key => return ⟨key.value, none⟩
        | .list items =>
          let views ← items.mapM inside
          finish views (.list (views.map View.value))
        | .pairs items =>
          let views ← items.mapM fun (left, right) => return (← inside left, ← inside right)
          finish (views.flatMap fun (left, right) => [left, right])
            (.list (views.map fun (left, right) => .pair left.value right.value))
        | .mapping entries =>
          let views ← entries.mapM fun (_, id') => inside id'
          finish views (.mapping ((entries.map fun entry => entry.1.value).zip
            (views.map View.value)))
        | .set members => finish [] (.set (members.map Key.value))

/-- Look at an object that stands in no other. -/
def look (objects : Objects) (id : NodeId) : StateM Known Value := do
  return (← view objects (objects.size + 1) [] id).value

/-- The value of an object. Each value in a mapping is looked at by itself. -/
def value (objects : Objects) (id : NodeId) : Value :=
  let looked : StateM Known Value :=
    match objects.object? id with
    | some (.mapping entries) => do
      return .mapping (← entries.mapM fun (key, id') => return (key.value, ← look objects id'))
    | _ => look objects id
  (looked (Array.replicate objects.size none)).1

end Objects
end Intcode.Document
