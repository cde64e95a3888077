import Leasehold.Yaml.Node

/-! The data of a document's nodes. A scalar is read at once. A list or map is begun empty and filled in
its turn, after all that were begun before it, so that nodes may refer to each other in any way; the
faults of a document come up in this order. -/

namespace Leasehold.Yaml

/-- What a node stands for. Lists and maps name the nodes that they hold; of a pair the first name is its
own. -/
inductive Datum
  | scalar (s : Scalar)
  | list (items : List NodeId)
  | pairs (items : List (NodeId × NodeId × NodeId))
  | set (keys : List Scalar)
  | map (entries : List (Scalar × NodeId))
deriving Inhabited

/-- The nodes, what is known of them, and the lists and maps that are begun and not filled yet. -/
structure Construction where
  nodes : Graph
  data : Array (Option Datum)
  waiting : List NodeId

namespace Construction

def start (g : Graph) : Construction := ⟨g, Array.replicate g.size none, []⟩

def datum? (c : Construction) (id : NodeId) : Option Datum :=
  (c.data[id]?).bind fun d => d

def know (c : Construction) (id : NodeId) (d : Datum) : Construction :=
  { c with data := c.data.setIfInBounds id (some d) }

/-- The text of a node. A map stands for the text of its default key, if it has one. -/
def textOf (g : Graph) : Nat → NodeId → Except Fault Text.Spelled
  | 0, _ => .error .depth
  | fuel + 1, id =>
    match (g.node id).content with
    | .scalar text => .ok text
    | .sequence _ => .error .value
    | .mapping pairs =>
      match pairs.find? fun pair => (g.node pair.1).tag = .standing with
      | some (_, value) => textOf g fuel value
      | none => .error .value

def readNode (g : Graph) (id : NodeId) : Except Fault Scalar := do
  let n := g.node id
  if [.merge, .standing, .other].contains n.tag then throw .value
  let text ← textOf g (g.size + 1) id
  match n.tag, n.content with
  | .timestamp, .mapping _ => throw .noDateText
  | tag, _ => readSpelled tag text

/-- What a list or map of a tag is while nothing is in it. -/
def emptyDatum? : Tag → Option Datum
  | .seq => some (.list [])
  | .omap => some (.pairs [])
  | .pairs => some (.pairs [])
  | .set => some (.set [])
  | .map => some (.map [])
  | _ => none

/-- Begins a node that is not known yet: a scalar is read, and a list or map joins those that wait. -/
def begin (c : Construction) (id : NodeId) : Except Fault Construction :=
  match c.datum? id, emptyDatum? (c.nodes.node id).tag with
  | some _, _ => .ok c
  | none, some d => .ok { c.know id d with waiting := c.waiting ++ [id] }
  | none, none => do return c.know id (.scalar (← readNode c.nodes id))

/-- The datum of a node as a key. Lists, maps and sets are no keys. -/
def keyOf (c : Construction) (id : NodeId) : Except Fault Scalar :=
  match c.datum? id with
  | some (.scalar s) => .ok s
  | _ => .error .value

def pairsOf (g : Graph) (id : NodeId) : Except Fault (List (NodeId × NodeId)) :=
  match (g.node id).content with
  | .mapping pairs => .ok pairs
  | _ => .error .value

/-- The maps that a merge key brings in: one, or those of a list, of which the first overrides the
others and so comes last. -/
def mergeSources (g : Graph) (value : NodeId) : Except Fault (List NodeId) :=
  match (g.node value).content with
  | .mapping _ => .ok [value]
  | .sequence items => .ok items
  | .scalar _ => .error .value

mutual
/-- Brings the pairs of other maps into a map in place of its merge keys, from an index on; a default key
becomes a text. `merged` are the pairs so far. The other maps are changed likewise, and so is the map
itself where it is brought into itself. -/
def mergeFrom : Nat → Graph → NodeId → Nat → List (NodeId × NodeId) → Except Fault Graph
  | 0, _, _, _, _ => .error .depth
  | fuel + 1, g, id, index, merged => do
    let pairs ← pairsOf g id
    match pairs[index]? with
    | none => return if merged.isEmpty then g else g.setContent id (.mapping (merged ++ pairs))
    | some (key, value) =>
      match (g.node key).tag with
      | .merge =>
        let g := g.setContent id (.mapping (pairs.eraseIdx index))
        let (more, g) ← mergeSourcePairs fuel g (← mergeSources g value)
        mergeFrom fuel g id index (merged ++ more)
      | .standing => mergeFrom fuel (g.setTag key .str) id (index + 1) merged
      | _ => mergeFrom fuel g id (index + 1) merged

/-- The pairs of maps to be brought in, the first map's last. -/
def mergeSourcePairs :
    Nat → Graph → List NodeId → Except Fault (List (NodeId × NodeId) × Graph)
  | 0, _, _ => .error .depth
  | _ + 1, g, [] => .ok ([], g)
  | fuel + 1, g, source :: rest => do
    let g ← mergeFrom fuel g source 0 []
    let pairs ← pairsOf g source
    let (later, g) ← mergeSourcePairs fuel g rest
    return (later ++ pairs, g)
end

/-- How many steps a merge may take. -/
def mergeLimit : Nat := 1000000

/-- Begins the two nodes of each pair of a map, in order: the keys with the nodes of their values. -/
def beginPairs : Construction → List (NodeId × NodeId) →
    Except Fault (List (Scalar × NodeId) × Construction)
  | c, [] => .ok ([], c)
  | c, (key, value) :: rest => do
    let c ← c.begin key
    let name ← c.keyOf key
    let c ← c.begin value
    let (entries, c) ← beginPairs c rest
    return ((name, value) :: entries, c)

/-- The entries of a map node, after other maps have been brought in. -/
def entriesOf (c : Construction) (id : NodeId) :
    Except Fault (List (Scalar × NodeId) × Construction) := do
  let _ ← pairsOf c.nodes id
  let g ← mergeFrom mergeLimit c.nodes id 0 []
  beginPairs { c with nodes := g } (← pairsOf g id)

/-- The last of two entries with one key gives the value, the first one the place. -/
def settleEntries (entries : List (Scalar × NodeId)) : List (Scalar × NodeId) :=
  entries.foldl (fun done entry =>
    if done.any fun d => d.1.isKey entry.1 then
      done.map fun d => if d.1.isKey entry.1 then (d.1, entry.2) else d
    else done ++ [entry]) []

/-- How many places there are for the members of a set. -/
def places (count : Nat) : Nat :=
  if count < 5 then 8 else Nat.pow 2 ((2 * count).log2 + 1)

/-- The members of a set in order: whole numbers by their remainders when divided by the number of places,
and anything else as it comes. -/
def settleMembers (members : List Scalar) : List Scalar :=
  let place : Scalar → Option Int
    | .int i => some ((if i == -1 then -2 else i) % (places members.length : Int))
    | .bool b => some (if b then 1 else 0)
    | _ => none
  if members.all fun s => (place s).isSome then
    members.mergeSort fun a b => (place a).getD 0 ≤ (place b).getD 0
  else members

def itemsOf (g : Graph) (id : NodeId) : Except Fault (List NodeId) :=
  match (g.node id).content with
  | .sequence items => .ok items
  | _ => .error .value

def beginSingles : Construction → List NodeId →
    Except Fault (List (NodeId × NodeId × NodeId) × Construction)
  | c, [] => .ok ([], c)
  | c, id :: rest => do
    match ← pairsOf c.nodes id with
    | [(key, value)] =>
      let c ← (← c.begin key).begin value
      let (pairs, c) ← beginSingles c rest
      return ((id, key, value) :: pairs, c)
    | _ => throw .value

def fill (c : Construction) (id : NodeId) : Except Fault Construction := do
  match (c.nodes.node id).tag with
  | .seq =>
    let items ← itemsOf c.nodes id
    let c ← items.foldlM begin c
    return c.know id (.list items)
  | .map =>
    let (entries, c) ← c.entriesOf id
    return c.know id (.map (settleEntries entries))
  | .set =>
    let (entries, c) ← c.entriesOf id
    return c.know id (.set (settleMembers ((settleEntries entries).map (·.1))))
  | _ =>
    let (pairs, c) ← beginSingles c (← itemsOf c.nodes id)
    return c.know id (.pairs pairs)

/-- Fills what waits, one after the other. Each node waits once at most. -/
def run : Nat → Construction → Except Fault Construction
  | 0, c => .ok c
  | fuel + 1, c =>
    match c.waiting with
    | [] => .ok c
    | id :: rest => do run fuel (← { c with waiting := rest }.fill id)

end Construction

def Document.data (d : Document) : Except Fault (Array (Option Datum)) := do
  let c ← (Construction.start d.nodes).begin d.root
  return (← c.run (d.nodes.size + 1)).data

end Leasehold.Yaml
