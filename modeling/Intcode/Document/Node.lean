import Intcode.Document.Place
import Intcode.Document.Tag

/-! The nodes of a document: scalars, sequences and mappings with their types, before
it is decided which values they stand for. Nodes name each other by number, since a
node that was given a name can stand in several places, and even inside itself. -/

namespace Intcode.Document

abbrev NodeId := Nat

inductive Content where
  | scalar (text : Text.Codes)
  | sequence (items : List NodeId)
  | mapping (pairs : List (NodeId × NodeId))
deriving DecidableEq, Repr

def Content.kind : Content → String
  | scalar _ => "scalar"
  | sequence _ => "sequence"
  | mapping _ => "mapping"

structure Node where
  place : Place
  tag : Tag
  content : Content
deriving DecidableEq, Repr

abbrev Nodes := Array Node

namespace Nodes

def emptyAt (place : Place) : Node := ⟨place, .null, .scalar []⟩

def node (nodes : Nodes) (id : NodeId) : Node := (nodes[id]?).getD (emptyAt ⟨0, 0⟩)

def tag (nodes : Nodes) (id : NodeId) : Tag := (nodes.node id).tag

def place (nodes : Nodes) (id : NodeId) : Place := (nodes.node id).place

def content (nodes : Nodes) (id : NodeId) : Content := (nodes.node id).content

/-- The pairs of a node, none if it is no mapping. -/
def pairs (nodes : Nodes) (id : NodeId) : List (NodeId × NodeId) :=
  match nodes.content id with
  | .mapping pairs => pairs
  | .scalar _ | .sequence _ => []

def setContent (nodes : Nodes) (id : NodeId) (content : Content) : Nodes :=
  nodes.modify id ({ · with content })

def setTag (nodes : Nodes) (id : NodeId) (tag : Tag) : Nodes := nodes.modify id ({ · with tag })

end Nodes
end Intcode.Document
