import Leasehold.Yaml.Schema
import Leasehold.Yaml.Token

/-! The nodes of a document, read from its tokens: scalars, lists and pairs, each with its tag. Nodes
have names, and a list or map holds the names of others. An alias stands for the node that its anchor
marks, which may be the very one around it. -/

namespace Leasehold.Yaml

abbrev NodeId := Nat

inductive Content
  | scalar (text : Text.Spelled)
  | sequence (items : List NodeId)
  | mapping (pairs : List (NodeId × NodeId))
deriving DecidableEq, Repr, Inhabited

structure Node where
  tag : Tag
  content : Content
deriving DecidableEq, Repr

instance : Inhabited Node := ⟨.null, .scalar (.whole "")⟩

/-- The nodes of a document by their names, which are given in order. -/
abbrev Graph := Array Node

namespace Graph

def node (g : Graph) (id : NodeId) : Node := g.getD id default

def setContent (g : Graph) (id : NodeId) (content : Content) : Graph :=
  g.setIfInBounds id { g.node id with content := content }

def setTag (g : Graph) (id : NodeId) (tag : Tag) : Graph :=
  g.setIfInBounds id { g.node id with tag := tag }

end Graph

/-- What the reader of nodes remembers: the tokens to come, the anchors, the nodes so far, and how many
lists and maps are open. -/
structure Reader where
  tokens : List Token
  anchors : List (String × NodeId)
  nodes : Graph
  depth : Nat

/-- Lists and maps may be nested this deep. -/
def depthLimit : Nat := 488

abbrev Handles := List (String × String)

def standardHandles : Handles := [("!", "!"), ("!!", Tag.schemaStart)]

namespace Reader

def peek (r : Reader) : Token :=
  r.tokens.headD .streamEnd

def drop (r : Reader) : Reader :=
  { r with tokens := r.tokens.tail }

def at? (r : Reader) (ts : List Token) : Bool :=
  ts.contains r.peek

def place (r : Reader) (n : Node) : NodeId × Reader :=
  (r.nodes.size, { r with nodes := r.nodes.push n })

def placeEmpty (r : Reader) : NodeId × Reader :=
  r.place ⟨.null, .scalar (.whole "")⟩

end Reader

structure Properties where
  anchor : Option String
  tag : Option String

def fullTag (handles : Handles) (t : TagText) : Except Fault String :=
  match t.handle with
  | none => .ok t.suffix
  | some handle =>
    match handles.lookup handle with
    | some start => .ok (start ++ t.suffix)
    | none => .error .grammar

def properties (handles : Handles) (r : Reader) : Except Fault (Properties × Reader) := do
  match r.tokens with
  | .anchor a :: .tag t :: rest => return (⟨some a, ← fullTag handles t⟩, { r with tokens := rest })
  | .anchor a :: rest => return (⟨some a, none⟩, { r with tokens := rest })
  | .tag t :: .anchor a :: rest => return (⟨some a, ← fullTag handles t⟩, { r with tokens := rest })
  | .tag t :: rest => return (⟨none, ← fullTag handles t⟩, { r with tokens := rest })
  | _ => return (⟨none, none⟩, r)

/-- The tag of a scalar: the one that is declared, or else what plain text looks like. -/
def scalarTag (declared : Option String) (plain : Bool) (text : Text.Spelled) : Tag :=
  let seeming := (text.whole?.map .ofPlain).getD .str
  match declared with
  | none => if plain then seeming else .str
  | some tag => if tag == "!" then seeming else .ofText tag

def collectionTag (declared : Option String) (usual : Tag) : Tag :=
  match declared with
  | none => usual
  | some tag => if tag == "!" then usual else .ofText tag

/-- An anchor may be given once only. -/
def checkAnchor (p : Properties) (r : Reader) : Except Fault Unit :=
  if p.anchor.any fun name => r.anchors.any fun a => a.1 == name then .error .reference else .ok ()

def define (p : Properties) (n : Node) (r : Reader) : NodeId × Reader :=
  let (id, r) := r.place n
  (id, match p.anchor with
    | none => r
    | some name => { r with anchors := (name, id) :: r.anchors })

/-- Names a list or map before it is read, so that it can be referred to from inside. -/
def enter (p : Properties) (usual : Tag) (r : Reader) : Except Fault (NodeId × Reader) :=
  if depthLimit ≤ r.depth then .error .depth
  else
    let (id, r) := define p ⟨collectionTag p.tag usual, default⟩ r
    .ok (id, { r with depth := r.depth + 1 })

def leave (id : NodeId) (content : Content) (r : Reader) : NodeId × Reader :=
  (id, { r with nodes := r.nodes.setContent id content, depth := r.depth - 1 })

def pairEnds : List Token := [.key, .value, .blockEnd]

mutual
/-- Reads a node. Blocks are allowed or not, and so are entries without a block of their own. -/
def node (handles : Handles) (block indentless : Bool) :
    Nat → Reader → Except Fault (NodeId × Reader)
  | 0, _ => .error .grammar
  | fuel + 1, r =>
    match r.peek with
    | .alias name =>
      match r.anchors.lookup name with
      | some target => .ok (target, r.drop)
      | none => .error .reference
    | _ => do
      let (p, r) ← properties handles r
      checkAnchor p r
      content handles block indentless p fuel r

def content (handles : Handles) (block indentless : Bool) (p : Properties) :
    Nat → Reader → Except Fault (NodeId × Reader)
  | 0, _ => .error .grammar
  | fuel + 1, r =>
    match r.peek with
    | .scalar text plain => .ok (define p ⟨scalarTag p.tag plain text, .scalar text⟩ r.drop)
    | .flowSequenceStart => do
      let (id, r) ← enter p .seq r.drop
      let (items, r) ← flowItems handles true fuel r
      return leave id (.sequence items) r
    | .flowMappingStart => do
      let (id, r) ← enter p .map r.drop
      let (pairs, r) ← flowPairs handles true fuel r
      return leave id (.mapping pairs) r
    | .blockSequenceStart =>
      if block then do
        let (id, r) ← enter p .seq r.drop
        let (items, r) ← blockItems handles fuel r
        return leave id (.sequence items) r
      else absent p r
    | .blockMappingStart =>
      if block then do
        let (id, r) ← enter p .map r.drop
        let (pairs, r) ← blockPairs handles fuel r
        return leave id (.mapping pairs) r
      else absent p r
    | .blockEntry =>
      if indentless then do
        let (id, r) ← enter p .seq r
        let (items, r) ← looseItems handles fuel r
        return leave id (.sequence items) r
      else absent p r
    | _ => absent p r

/-- Properties may stand alone, before an empty scalar. -/
def absent (p : Properties) (r : Reader) : Except Fault (NodeId × Reader) :=
  if p.anchor.isSome || p.tag.isSome then .ok (define p ⟨scalarTag p.tag true (.whole ""), .scalar (.whole "")⟩ r)
  else .error .grammar

def blockItems (handles : Handles) : Nat → Reader → Except Fault (List NodeId × Reader)
  | 0, _ => .error .grammar
  | fuel + 1, r =>
    match r.peek with
    | .blockEntry => do
      let r := r.drop
      let (item, r) ← if r.at? [.blockEntry, .blockEnd] then pure r.placeEmpty
        else node handles true false fuel r
      let (items, r) ← blockItems handles fuel r
      return (item :: items, r)
    | .blockEnd => .ok ([], r.drop)
    | _ => .error .grammar

/-- Reads entries that stand at the column of the map around them. -/
def looseItems (handles : Handles) : Nat → Reader → Except Fault (List NodeId × Reader)
  | 0, _ => .error .grammar
  | fuel + 1, r =>
    match r.peek with
    | .blockEntry => do
      let r := r.drop
      let (item, r) ← if r.at? (.blockEntry :: pairEnds) then pure r.placeEmpty
        else node handles true false fuel r
      let (items, r) ← looseItems handles fuel r
      return (item :: items, r)
    | _ => .ok ([], r)

def blockPairs (handles : Handles) :
    Nat → Reader → Except Fault (List (NodeId × NodeId) × Reader)
  | 0, _ => .error .grammar
  | fuel + 1, r =>
    match r.peek with
    | .key => do
      let r := r.drop
      let (key, r) ← if r.at? pairEnds then pure r.placeEmpty
        else node handles true true fuel r
      let (value, r) ← blockValue handles fuel r
      let (pairs, r) ← blockPairs handles fuel r
      return ((key, value) :: pairs, r)
    | .blockEnd => .ok ([], r.drop)
    | _ => .error .grammar

def blockValue (handles : Handles) : Nat → Reader → Except Fault (NodeId × Reader)
  | 0, _ => .error .grammar
  | fuel + 1, r =>
    match r.peek with
    | .value =>
      let r := r.drop
      if r.at? pairEnds then .ok r.placeEmpty else node handles true true fuel r
    | _ => .ok r.placeEmpty

/-- Reads the entries between square brackets. An entry may be a single pair. -/
def flowItems (handles : Handles) (first : Bool) :
    Nat → Reader → Except Fault (List NodeId × Reader)
  | 0, _ => .error .grammar
  | fuel + 1, r => do
    if r.at? [.flowSequenceEnd] then return ([], r.drop)
    let r ← if first then pure r
      else if r.at? [.flowEntry] then pure r.drop
      else throw .grammar
    match r.peek with
    | .flowSequenceEnd => return ([], r.drop)
    | .key =>
      let (id, r) ← enter ⟨none, none⟩ .map r.drop
      let (key, r) ← flowPart handles .flowSequenceEnd [.value] fuel r
      let (value, r) ← flowValue handles .flowSequenceEnd fuel r
      let (id, r) := leave id (.mapping [(key, value)]) r
      let (items, r) ← flowItems handles false fuel r
      return (id :: items, r)
    | _ =>
      let (item, r) ← node handles false false fuel r
      let (items, r) ← flowItems handles false fuel r
      return (item :: items, r)

/-- Reads the pairs between braces. A key may stand without value. -/
def flowPairs (handles : Handles) (first : Bool) :
    Nat → Reader → Except Fault (List (NodeId × NodeId) × Reader)
  | 0, _ => .error .grammar
  | fuel + 1, r => do
    if r.at? [.flowMappingEnd] then return ([], r.drop)
    let r ← if first then pure r
      else if r.at? [.flowEntry] then pure r.drop
      else throw .grammar
    match r.peek with
    | .flowMappingEnd => return ([], r.drop)
    | .key =>
      let (key, r) ← flowPart handles .flowMappingEnd [.value] fuel r.drop
      let (value, r) ← flowValue handles .flowMappingEnd fuel r
      let (pairs, r) ← flowPairs handles false fuel r
      return ((key, value) :: pairs, r)
    | _ =>
      let (key, r) ← node handles false false fuel r
      let (value, r) := r.placeEmpty
      let (pairs, r) ← flowPairs handles false fuel r
      return ((key, value) :: pairs, r)

/-- Reads a part of a pair inside brackets; it may be missing before the tokens that end it. -/
def flowPart (handles : Handles) (close : Token) (ends : List Token) :
    Nat → Reader → Except Fault (NodeId × Reader)
  | 0, _ => .error .grammar
  | fuel + 1, r =>
    if r.at? (.flowEntry :: close :: ends) then .ok r.placeEmpty
    else node handles false false fuel r

def flowValue (handles : Handles) (close : Token) : Nat → Reader → Except Fault (NodeId × Reader)
  | 0, _ => .error .grammar
  | fuel + 1, r =>
    match r.peek with
    | .value => flowPart handles close [] fuel r.drop
    | _ => .ok r.placeEmpty
end

/-- The directives before a document: the handles they define. One version at most is given, of the
first generation, and no handle twice. -/
def directives : List Token → Bool → Handles → Except Fault (Handles × List Token)
  | .directive (.version major _) :: rest, versioned, handles =>
    if versioned || major != 1 then .error .grammar else directives rest true handles
  | .directive (.tag handle start) :: rest, versioned, handles =>
    if handles.any fun h => h.1 == handle then .error .grammar
    else directives rest versioned ((handle, start) :: handles)
  | .directive .other :: rest, versioned, handles => directives rest versioned handles
  | rest, _, handles => .ok (handles, rest)

def documentNode (handles : Handles) (tokens : List Token) : Except Fault (NodeId × Reader) :=
  let r : Reader := ⟨tokens, [], #[], 0⟩
  let isEmpty := match r.peek with
    | .directive _ => true
    | .documentStart => true
    | .documentEnd => true
    | .streamEnd => true
    | _ => false
  if isEmpty then .ok r.placeEmpty
  else node handles true false (3 * tokens.length + 3) r

def dropDocumentEnds (tokens : List Token) : List Token :=
  tokens.dropWhile (· == .documentEnd)

/-- A document: its nodes, and the one that stands for it. -/
structure Document where
  root : NodeId
  nodes : Graph

/-- Nothing but the end of the stream may follow the document. -/
def single (result : NodeId × Reader) : Except Fault Document :=
  let (root, r) := result
  if dropDocumentEnds r.tokens == [.streamEnd] then .ok ⟨root, r.nodes⟩ else .error .grammar

/-- The only document in a stream; none if there is no document. -/
def documentOf (tokens : List Token) : Except Fault (Option Document) :=
  match tokens.headD .streamEnd with
  | .streamEnd => .ok none
  | .directive _ => explicit
  | .documentStart => explicit
  | .documentEnd => .error .grammar
  | _ => do return some (← single (← documentNode standardHandles tokens))
where
  explicit : Except Fault (Option Document) := do
    let (handles, rest) ← directives tokens false []
    match rest with
    | .documentStart :: rest =>
      return some (← single (← documentNode (handles ++ standardHandles) rest))
    | _ => .error .grammar

end Leasehold.Yaml
