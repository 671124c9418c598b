import Intcode.Document.Complaint
import Intcode.Document.Node

/-! Merging: a mapping takes over the pairs of the mappings that stand under its merge
keys. The nodes themselves change, so that every place where a mapping stands sees the
pairs merged into it. -/

namespace Intcode.Document

def complaint (context : Option String) (origin : Option Place) (problem : String)
    (place : Place) : Error :=
  .complaint { stage := .constructing, context, origin, problem, place }

abbrev Merging := StateT Nodes (Except Error)

namespace Merging

/-- The first value under a merge key, and the pairs without it. -/
def taken? (nodes : Nodes) : List (NodeId × NodeId) → Option (NodeId × List (NodeId × NodeId))
  | [] => none
  | (key, value) :: rest =>
    if nodes.tag key = .merge then some (value, rest)
    else (taken? nodes rest).map fun (found, others) => (found, (key, value) :: others)

def fail {α : Type} (origin : Place) (wanted : String) (nodes : Nodes) (found : NodeId) :
    Merging α :=
  throw (complaint (some "while constructing a mapping") (some origin)
    ("expected a " ++ wanted ++ " for merging, but found " ++ (nodes.content found).kind)
    (nodes.place found))

/-- A value key is read as a text, wherever it stands. -/
def settleKey (nodes : Nodes) (key : NodeId) : Nodes :=
  if nodes.tag key = .value then nodes.setTag key .text else nodes

def prepend (id : NodeId) (inherited : List (NodeId × NodeId)) : Merging Unit :=
  modify fun nodes =>
    let pairs := inherited ++ nodes.pairs id
    (pairs.foldl (fun nodes pair => settleKey nodes pair.1) nodes).setContent id (.mapping pairs)

def settled (inherit : NodeId → Merging (List (NodeId × NodeId))) (id : NodeId) :
    Merging (List (NodeId × NodeId)) := do
  prepend id (← inherit id)
  return (← get).pairs id

/-- The pairs that a value brings into the mapping at a place: its own if it is a
mapping, those of its items if it is a list of mappings, the first item's last. -/
def brought (inherit : NodeId → Merging (List (NodeId × NodeId))) (origin : Place)
    (value : NodeId) : Merging (List (NodeId × NodeId)) := do
  match (← get).content value with
  | .mapping _ => settled inherit value
  | .sequence items =>
    let parts ← items.mapM fun item => do
      match (← get).content item with
      | .mapping _ => settled inherit item
      | _ => fail origin "mapping" (← get) item
    return parts.reverse.flatten
  | .scalar _ => fail origin "mapping or list of mappings" (← get) value

/-- The pairs that a mapping inherits. Each of its merge keys is taken away before its
value is looked at, so that a mapping may be merged into itself. `fuel` is more than
the number of merge keys there are. -/
def inherited : (fuel : Nat) → NodeId → Merging (List (NodeId × NodeId))
  | 0, _ => return []
  | fuel + 1, id => do
    let nodes ← get
    match taken? nodes (nodes.pairs id) with
    | none => return []
    | some (value, rest) =>
      set (nodes.setContent id (.mapping rest))
      let first ← brought (inherited fuel) (nodes.place id) value
      return first ++ (← inherited fuel id)

end Merging

def Nodes.mergeCount (nodes : Nodes) : Nat :=
  nodes.foldl (fun count node =>
    match node.content with
    | .mapping pairs => count + pairs.countP fun (key, _) => nodes.tag key = .merge
    | .scalar _ | .sequence _ => count) 0

/-- Merge into a mapping what stands under its merge keys. -/
def Merging.flatten (mergeCount : Nat) (id : NodeId) : Merging Unit := do
  discard (settled (inherited (mergeCount + 1)) id)

end Intcode.Document
