import Intcode.Document.Merging
import Intcode.Document.Object
import Intcode.Document.Scalar
import Intcode.Value.Table

/-! Making objects from nodes. Scalars are made at once. A collection is there before
its contents are, which come in later, after those of all collections that were there
before it; so an error in the contents of an outer collection comes first. -/

namespace Intcode.Document

/-- Nodes from which objects are made. -/
structure Site where
  nodes : Nodes
  objects : Objects
  /-- The number of merge keys at the beginning. -/
  mergeCount : Nat
  /-- The collections in the order in which they get their contents. -/
  queue : Array NodeId := #[]

abbrev Construction := StateT Site (Except Error)

namespace Nodes

def unlike (nodes : Nodes) (wanted : String) (id : NodeId) : Error :=
  complaint none none
    ("expected a " ++ wanted ++ " node, but found " ++ (nodes.content id).kind) (nodes.place id)

/-- The text of a node where a scalar is wanted. A mapping has that of the value under
its value key. A chain of such mappings may not come back to itself. -/
def text (nodes : Nodes) : (fuel : Nat) → NodeId → Except Error Text.Codes
  | 0, _ => .error .endless
  | fuel + 1, id =>
    match nodes.content id with
    | .scalar text => .ok text
    | .sequence _ => .error (nodes.unlike "scalar" id)
    | .mapping pairs =>
      match pairs.find? fun (key, _) => nodes.tag key = .value with
      | some (_, value) => text nodes fuel value
      | none => .error (nodes.unlike "scalar" id)

def ruled (nodes : Nodes) (id : NodeId) (rule : Text.Codes → Except ScalarError Value) :
    Except Error Key := do
  let text ← nodes.text (nodes.size + 1) id
  let value ← (rule text).mapError .scalar
  return ⟨value, if isUsualNaN text then none else some id⟩

def moment (nodes : Nodes) (id : NodeId) (text : Text.Codes) : Except ScalarError Value :=
  match nodes.content id with
  | .scalar _ => dayOrMoment text
  | .sequence _ | .mapping _ => .error .mappingMoment

def bytes (nodes : Nodes) (id : NodeId) : Except Error Key := do
  let text ← nodes.text (nodes.size + 1) id
  match Document.bytes text with
  | .ok value => return ⟨.bytes value, some id⟩
  | .error problem => throw (complaint none none problem (nodes.place id))

def begun (nodes : Nodes) (id : NodeId) : Except Error Object :=
  match nodes.tag id with
  | .null => .scalar <$> nodes.ruled id fun _ => .ok .null
  | .bool => .scalar <$> nodes.ruled id fun text => .bool <$> truth text
  | .int => .scalar <$> nodes.ruled id fun text => .int <$> whole text
  | .float => .scalar <$> nodes.ruled id fun text => .float <$> fraction text
  | .bytes => .scalar <$> nodes.bytes id
  | .timestamp => .scalar <$> nodes.ruled id (nodes.moment id)
  | .text => .scalar <$> nodes.ruled id fun text => .ok (.ofCodes text)
  | .sequence => .ok (.list [])
  | .orderedMap | .pairs => .ok (.pairs [])
  | .mapping => .ok (.mapping [])
  | .set => .ok (.set [])
  | .merge | .value | .other _ =>
    .error (complaint none none
      ("could not determine a constructor for the tag " ++ Text.quoted (nodes.tag id).name)
      (nodes.place id))

end Nodes

namespace Construction

/-- The object of a node. It is made at most once. -/
def construct (id : NodeId) : Construction Object := do
  let site ← get
  match site.objects.object? id with
  | some object => return object
  | none =>
    let object ← site.nodes.begun id
    let queue := match object with
      | .scalar _ => site.queue
      | _ => site.queue.push id
    set { site with objects := site.objects.setIfInBounds id (some object), queue }
    return object

def complete (id : NodeId) (object : Object) : Construction Unit :=
  modify fun site => { site with objects := site.objects.setIfInBounds id (some object) }

def items (id : NodeId) : Construction (List NodeId) := do
  let nodes := (← get).nodes
  match nodes.content id with
  | .sequence items =>
    items.forM fun item => discard (construct item)
    return items
  | .scalar _ | .mapping _ => throw (nodes.unlike "sequence" id)

/-- The key that a node in the mapping at a place stands for. A collection is none. -/
def key (origin : Place) (id : NodeId) : Construction Key := do
  match ← construct id with
  | .scalar key => return key
  | _ =>
    throw (complaint (some "while constructing a mapping") (some origin) "found unhashable key"
      ((← get).nodes.place id))

/-- The entries of a mapping after what is merged into it. The last of several with one
key counts. -/
def entries (id : NodeId) : Construction (List (Key × NodeId)) := do
  let site ← get
  match site.nodes.content id with
  | .mapping _ =>
    let (_, nodes) ← Merging.flatten site.mergeCount id site.nodes
    set { site with nodes }
    (nodes.pairs id).foldlM (fun entries (keyId, value) => do
      let key ← key (nodes.place id) keyId
      discard (construct value)
      return Objects.assign key value entries) []
  | .scalar _ | .sequence _ => throw (site.nodes.unlike "mapping" id)

/-- The pair in a mapping of a single one that stands in a list of pairs. -/
def single (what : String) (origin : Place) (id : NodeId) : Construction (NodeId × NodeId) := do
  let nodes := (← get).nodes
  let fail (problem : String) : Construction (NodeId × NodeId) :=
    throw (complaint (some ("while constructing " ++ what)) (some origin) problem (nodes.place id))
  match nodes.content id with
  | .mapping [(key, value)] =>
    discard (construct key)
    discard (construct value)
    return (key, value)
  | .mapping pairs =>
    fail ("expected a single mapping item, but found " ++ toString pairs.length ++ " items")
  | content => fail ("expected a mapping of length 1, but found " ++ content.kind)

def pairs (what : String) (id : NodeId) : Construction (List (NodeId × NodeId)) := do
  let nodes := (← get).nodes
  let origin := nodes.place id
  match nodes.content id with
  | .sequence items => items.mapM (single what origin)
  | content =>
    throw (complaint (some ("while constructing " ++ what)) (some origin)
      ("expected a sequence, but found " ++ content.kind) origin)

def members (id : NodeId) : Construction (List Key) := do
  let keys := (← entries id).map Prod.fst
  return Value.tableOrder Key.value keys

def fill (id : NodeId) : Construction Unit := do
  match (← get).nodes.tag id with
  | .sequence => do complete id (.list (← items id))
  | .orderedMap => do complete id (.pairs (← pairs "an ordered map" id))
  | .pairs => do complete id (.pairs (← pairs "pairs" id))
  | .mapping => do complete id (.mapping (← entries id))
  | .set => do complete id (.set (← members id))
  | _ => return ()

/-- Make the contents of the collections in the queue from an index on, one after the
other. `fuel` is more than the number of nodes, each of which comes into the queue once at
most. -/
def fillAll : (fuel index : Nat) → Construction Unit
  | 0, _ => return ()
  | fuel + 1, index => do
    match (← get).queue[index]? with
    | none => return ()
    | some id =>
      fill id
      fillAll fuel (index + 1)

def whole (id : NodeId) : Construction Unit := do
  discard (construct id)
  fillAll ((← get).nodes.size + 1) 0

end Construction

/-- The objects that nodes stand for, from the one that contains the others on. -/
def construct (nodes : Nodes) (root : NodeId) : Except Error Objects := do
  let site : Site :=
    { nodes, objects := Array.replicate nodes.size none, mergeCount := nodes.mergeCount }
  let (_, site) ← Construction.whole root site
  return site.objects

end Intcode.Document
