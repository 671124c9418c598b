import Intcode.Document.Node
import Intcode.Document.Token.Reading

/-! Putting nodes together from tokens. A node that contains others is there before
them, so that they can refer to it by its name. -/

namespace Intcode.Document

def deepest : Nat := 491

/-- The tokens still to be read, the handles of tags, the nodes so far, and the names
given to some of them. -/
structure Unread where
  lexemes : List Lexeme
  failure : Option Error
  /-- The number of collections that have begun and not ended. -/
  depth : Nat := 0
  handles : List (String × String) := []
  nodes : Nodes := #[]
  anchors : List (String × NodeId) := []

abbrev Read := StateT Unread (Except Error)

structure Properties where
  tag : Option String
  anchor : Option String
  place : Place

namespace Properties

/-- The type of a scalar. One exclamation mark alone leaves it to the form of the
text. -/
def scalarTag (properties : Properties) (text : Text.Codes) (plain : Bool) : Tag :=
  match properties.tag with
  | none => if plain then .ofPlain text else .text
  | some "!" => .ofPlain text
  | some name => .ofName name

def collectionTag (properties : Properties) (kind : Tag) : Tag :=
  match properties.tag with
  | none | some "!" => kind
  | some name => .ofName name

def isMarked (properties : Properties) : Bool :=
  properties.tag.isSome || properties.anchor.isSome

end Properties

namespace Read

def fail {α : Type} (context : Option String) (origin : Option Place) (problem : String)
    (place : Place) : Read α :=
  fun _ => complain .parsing context origin problem place

def peek : Read Lexeme := do
  let unread ← get
  match unread.lexemes with
  | lexeme :: _ => return lexeme
  | [] => throw (unread.failure.getD (.scalar .empty))

def next : Read Token := return (← peek).token

def place : Read Place := return (← peek).start

def skip : Read Unit := modify fun unread => { unread with lexemes := unread.lexemes.tail }

def pass : Read Place := do
  let lexeme ← peek
  skip
  return lexeme.stop

def shown (token : Token) : String := Text.quoted token.name

def tagName (origin place : Place) (handle : Option String) (rest : String) : Read String := do
  match handle with
  | none => return rest
  | some handle =>
    match (← get).handles.lookup handle with
    | some meaning => return meaning ++ rest
    | none =>
      fail (some "while parsing a node") (some origin)
        ("found undefined tag handle " ++ Text.quoted handle) place

/-- The tag and the name in front of a node, in either order. -/
def properties : Read Properties := do
  let first ← peek
  let origin := first.start
  match first.token with
  | .anchor name =>
    skip
    let second ← peek
    match second.token with
    | .tag handle rest =>
      skip
      return { tag := some (← tagName origin second.start handle rest), anchor := some name
               place := origin }
    | _ => return { tag := none, anchor := some name, place := origin }
  | .tag handle rest =>
    skip
    let second ← peek
    match second.token with
    | .anchor name =>
      skip
      return { tag := some (← tagName origin origin handle rest), anchor := some name
               place := origin }
    | _ => return { tag := some (← tagName origin origin handle rest), anchor := none
                    place := origin }
  | _ => return { tag := none, anchor := none, place := origin }

def add (node : Node) : Read NodeId := do
  let id := (← get).nodes.size
  modify fun unread => { unread with nodes := unread.nodes.push node }
  return id

def addEmpty (place : Place) : Read NodeId := add (Nodes.emptyAt place)

def addPair (place : Place) (key value : NodeId) : Read NodeId :=
  add ⟨place, .mapping, .mapping [(key, value)]⟩

def name (label : String) (id : NodeId) (place : Place) : Read Unit := do
  let unread ← get
  match unread.anchors.lookup label with
  | some earlier =>
    fun _ => complain .composing
      (some ("found duplicate anchor " ++ Text.quoted label ++ "; first occurrence"))
      (some (unread.nodes.place earlier)) "second occurrence" place
  | none => set { unread with anchors := (label, id) :: unread.anchors }

def addNamed (properties : Properties) (tag : Tag) (content : Content) : Read NodeId := do
  let id := (← get).nodes.size
  if let some label := properties.anchor then name label id properties.place
  add ⟨properties.place, tag, content⟩

def referent (place : Place) (label : String) : Read NodeId := do
  match (← get).anchors.lookup label with
  | some id => return id
  | none =>
    fun _ => complain .composing none none ("found undefined alias " ++ Text.quoted label) place

def scalar (properties : Properties) (text : Text.Codes) (plain : Bool) : Read NodeId :=
  addNamed properties (properties.scalarTag text plain) (.scalar text)

def inside {α : Type} (content : Read α) : Read α := do
  let depth := (← get).depth
  if depth = deepest then throw .endless
  modify ({ · with depth := depth + 1 })
  let content ← content
  modify ({ · with depth })
  return content

def sequence (properties : Properties) (items : Read (List NodeId)) : Read NodeId := do
  let id ← addNamed properties (properties.collectionTag .sequence) (.sequence [])
  let items ← inside items
  modify fun unread => { unread with nodes := unread.nodes.setContent id (.sequence items) }
  return id

def mapping (properties : Properties) (pairs : Read (List (NodeId × NodeId))) : Read NodeId := do
  let id ← addNamed properties (properties.collectionTag .mapping) (.mapping [])
  let pairs ← inside pairs
  modify fun unread => { unread with nodes := unread.nodes.setContent id (.mapping pairs) }
  return id

def separator (what closing : String) (origin : Place) (first : Bool) : Read Unit := do
  if !first then
    let lexeme ← peek
    if lexeme.token = .flowEntry then skip
    else
      fail (some ("while parsing a flow " ++ what)) (some origin)
        ("expected \x27,\x27 or " ++ Text.quoted closing ++ ", but got " ++ shown lexeme.token)
        lexeme.start

def blockEnd (what : String) (origin : Place) : Read Unit := do
  let lexeme ← peek
  if lexeme.token = .blockEnd then skip
  else
    fail (some ("while parsing a block " ++ what)) (some origin)
      ("expected <block end>, but found " ++ shown lexeme.token) lexeme.start

mutual

/-- A node. Inside a block, a node may itself be a block; after a key, a sequence
need not be indented further. -/
def node : (fuel : Nat) → (inBlock hanging : Bool) → Read NodeId
  | 0, _, _ => throw (.scalar .empty)
  | fuel + 1, inBlock, hanging => do
    let first ← peek
    if let .reference label := first.token then
      skip
      return ← referent first.start label
    let properties ← properties
    let lexeme ← peek
    match lexeme.token with
    | .scalar text plain =>
      skip
      scalar properties text plain
    | .flowSequenceStart =>
      sequence properties do skip; flowItems fuel lexeme.start true
    | .flowMappingStart =>
      mapping properties do skip; flowPairs fuel lexeme.start true
    | token =>
      if token = .blockEntry && hanging then
        sequence properties (blockItems fuel [.blockEntry, .key, .value, .blockEnd])
      else if token = .blockSequenceStart && inBlock then
        sequence properties do
          skip
          let items ← blockItems fuel [.blockEntry, .blockEnd]
          blockEnd "collection" lexeme.start
          return items
      else if token = .blockMappingStart && inBlock then
        mapping properties do skip; blockPairs fuel lexeme.start
      else if properties.isMarked then scalar properties [] true
      else
        fail (some ("while parsing a " ++ (if inBlock then "block" else "flow") ++ " node"))
          (some properties.place)
          ("expected the node content, but found " ++ shown token) lexeme.start

/-- A node that may be left out before one of the given tokens, and then stands at
the given place. -/
def optional (fuel : Nat) (stops : List Token) (place : Place) (inBlock hanging : Bool) :
    Read NodeId :=
  match fuel with
  | 0 => throw (.scalar .empty)
  | fuel + 1 => do
    if stops.contains (← next) then return ← addEmpty place
    node fuel inBlock hanging

/-- The items of a block sequence. An item may be left out before the given tokens. -/
def blockItems : (fuel : Nat) → (stops : List Token) → Read (List NodeId)
  | 0, _ => throw (.scalar .empty)
  | fuel + 1, stops => do
    if (← next) ≠ .blockEntry then return []
    let place ← pass
    let item ← optional fuel stops place true false
    return item :: (← blockItems fuel stops)

def blockPairs : (fuel : Nat) → (origin : Place) → Read (List (NodeId × NodeId))
  | 0, _ => throw (.scalar .empty)
  | fuel + 1, origin => do
    if (← next) = .key then
      let after ← pass
      let key ← optional fuel [.key, .value, .blockEnd] after true true
      let value ← optionalValue fuel [.key, .value, .blockEnd] true
      return (key, value) :: (← blockPairs fuel origin)
    else
      blockEnd "mapping" origin
      return []

/-- The value after a key, which may be left out with its colon or without it. -/
def optionalValue (fuel : Nat) (stops : List Token) (inBlock : Bool) : Read NodeId :=
  match fuel with
  | 0 => throw (.scalar .empty)
  | fuel + 1 => do
    if (← next) = .value then
      let after ← pass
      optional fuel stops after inBlock inBlock
    else addEmpty (← place)

/-- The items of a bracketed sequence and its end. A pair among them is a mapping
of its own. -/
def flowItems : (fuel : Nat) → (origin : Place) → (first : Bool) → Read (List NodeId)
  | 0, _, _ => throw (.scalar .empty)
  | fuel + 1, origin, first => do
    if (← next) = .flowSequenceEnd then skip; return []
    separator "sequence" "]" origin first
    let lexeme ← peek
    match lexeme.token with
    | .flowSequenceEnd => skip; return []
    | .key =>
      let after ← pass
      let (key, value) ← inside do
        let key ← optional fuel [.value, .flowEntry, .flowSequenceEnd] after false false
        let value ← optionalValue fuel [.flowEntry, .flowSequenceEnd] false
        return (key, value)
      let pair ← addPair lexeme.start key value
      return pair :: (← flowItems fuel origin false)
    | _ =>
      let item ← node fuel false false
      return item :: (← flowItems fuel origin false)

def flowPairs : (fuel : Nat) → (origin : Place) → (first : Bool) → Read (List (NodeId × NodeId))
  | 0, _, _ => throw (.scalar .empty)
  | fuel + 1, origin, first => do
    if (← next) = .flowMappingEnd then skip; return []
    separator "mapping" "\x7d" origin first
    match ← next with
    | .flowMappingEnd => skip; return []
    | .key =>
      let after ← pass
      let key ← optional fuel [.value, .flowEntry, .flowMappingEnd] after false false
      let value ← optionalValue fuel [.flowEntry, .flowMappingEnd] false
      return (key, value) :: (← flowPairs fuel origin false)
    | _ =>
      let key ← node fuel false false
      let value ← addEmpty (← place)
      return (key, value) :: (← flowPairs fuel origin false)

end

def standardHandles : List (String × String) := [("!", "!"), ("!!", Tag.standard)]

def knownVersion : Nat := 1

/-- Read directives. The answer tells whether a version was among them. -/
def directives : (fuel : Nat) → (versioned : Bool) → Read Unit
  | 0, _ => return ()
  | fuel + 1, versioned => do
    let lexeme ← peek
    match lexeme.token with
    | .version major _ =>
      if versioned then fail none none "found duplicate YAML directive" lexeme.start
      if major ≠ knownVersion then
        fail none none "found incompatible YAML document (version 1.* is required)" lexeme.start
      skip
      directives fuel true
    | .tagHandle handle meaning =>
      if ((← get).handles.lookup handle).isSome then
        fail none none ("duplicate tag handle " ++ Text.quoted handle) lexeme.start
      skip
      modify fun unread => { unread with handles := (handle, meaning) :: unread.handles }
      directives fuel versioned
    | .directive =>
      skip
      directives fuel versioned
    | _ => return ()

def heading (fuel : Nat) : Read Place := do
  let first ← place
  modify ({ · with handles := [] })
  directives fuel false
  modify fun unread => { unread with handles := unread.handles ++ standardHandles }
  let lexeme ← peek
  if lexeme.token ≠ .documentStart then
    fail none none ("expected \x27<document start>\x27, but found " ++ shown lexeme.token)
      lexeme.start
  skip
  return first

def documentEnds : (fuel : Nat) → Read Unit
  | 0 => return ()
  | fuel + 1 => do
    if (← next) = .documentEnd then
      skip
      documentEnds fuel

/-- The node of the only document, if the text holds one at all. -/
def document (fuel : Nat) : Read (Option NodeId) := do
  let first ← next
  if first = .finish then return none
  let root ←
    if first.isDirective || first = .documentStart then do
      discard (heading fuel)
      let place ← place
      let isStop := (← next).isDirective
      if isStop then addEmpty place
      else optional fuel [.documentStart, .documentEnd, .finish] place true false
    else do
      modify ({ · with handles := standardHandles })
      node fuel true false
  documentEnds fuel
  if (← next) = .finish then return some root
  let another ← heading fuel
  fun unread => complain .composing (some "expected a single document in the stream")
    (some (unread.nodes.place root)) "but found another document" another

end Read

/-- The nodes that a text holds and the one that contains the others, if it holds one
at all. -/
def compose (text : List Char) : Except Error (Option NodeId × Nodes) := do
  let read := lexemes text
  let fuel := 3 * read.found.length + 3
  let (root, unread) ← Read.document fuel { lexemes := read.found, failure := read.failure }
  return (root, unread.nodes)

end Intcode.Document
