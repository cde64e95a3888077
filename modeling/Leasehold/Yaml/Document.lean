import Leasehold.Text.Lines
import Leasehold.Yaml.Construction
import Leasehold.Yaml.Stream

/-! The value of a document: its data put together from the root on. A node that comes up inside itself
is told by its name there, and every list, pair or map on the way to such a place has its name too. -/

namespace Leasehold.Yaml

/-- A value under way: the value, and the names in it that stand for nodes around it. -/
structure Partial where
  value : Value
  names : List NodeId

/-- The values that are finished, by the names of their nodes. A value with a name is told in another way
from inside it, and is none of them. -/
abbrev Finished := Array (Option Value)

/-- The list or map of a node, with its name if some name inside is open. -/
def enclose (id : NodeId) (value : Value) (names : List NodeId) : Partial :=
  if names.isEmpty then ⟨value, []⟩ else ⟨.loop id value, names.filter (· != id)⟩

/-- Notes a value that has no name and holds no open one. -/
def remember (done : Finished) (id : NodeId) (p : Partial) : Finished :=
  match p with
  | ⟨.loop _ _, _⟩ => done
  | ⟨v, []⟩ => done.setIfInBounds id (some v)
  | _ => done

mutual
def assemble (data : Array (Option Datum)) :
    Nat → List NodeId → Finished → NodeId → Partial × Finished
  | 0, _, done, _ => (⟨.null, []⟩, done)
  | fuel + 1, around, done, id =>
    let inside := id :: around
    let finish (p : Partial) (done : Finished) : Partial × Finished := (p, remember done id p)
    match (done[id]?).bind fun v => v, (data[id]?).bind fun d => d with
    | some v, _ => (⟨v, []⟩, done)
    | none, none => (⟨.null, []⟩, done)
    | none, some (.scalar s) => (⟨.scalar s, []⟩, done)
    | none, some (.set keys) => (⟨.set keys, []⟩, done)
    | none, some (.list items) =>
      if around.contains id then (⟨.again id .list, [id]⟩, done)
      else
        let (values, names, done) := assembleItems data fuel inside done items
        finish (enclose id (.list values) names) done
    | none, some (.pairs items) =>
      if around.contains id then (⟨.again id .list, [id]⟩, done)
      else
        let (values, names, done) := assemblePairs data fuel inside done items
        finish (enclose id (.list values) names) done
    | none, some (.map entries) =>
      if around.contains id then (⟨.again id .map, [id]⟩, done)
      else
        let (values, names, done) := assembleEntries data fuel inside done entries
        finish (enclose id (.map values) names) done

def assembleItems (data : Array (Option Datum)) :
    Nat → List NodeId → Finished → List NodeId → List Value × List NodeId × Finished
  | 0, _, done, _ => ([], [], done)
  | _ + 1, _, done, [] => ([], [], done)
  | fuel + 1, around, done, item :: rest =>
    let (p, done) := assemble data fuel around done item
    let (values, names, done) := assembleItems data fuel around done rest
    (p.value :: values, p.names ++ names, done)

def assemblePairs (data : Array (Option Datum)) :
    Nat → List NodeId → Finished → List (NodeId × NodeId × NodeId) →
      List Value × List NodeId × Finished
  | 0, _, done, _ => ([], [], done)
  | _ + 1, _, done, [] => ([], [], done)
  | fuel + 1, around, done, (id, first, second) :: rest =>
    let (values, names, done) := assemblePairs data fuel around done rest
    if around.contains id then (.again id .tuple :: values, id :: names, done)
    else
      let (p, done) := assemble data fuel (id :: around) done first
      let (q, done) := assemble data fuel (id :: around) done second
      let pair := enclose id (.tuple [p.value, q.value]) (p.names ++ q.names)
      (pair.value :: values, pair.names ++ names, done)

def assembleEntries (data : Array (Option Datum)) :
    Nat → List NodeId → Finished → List (Scalar × NodeId) →
      List (Scalar × Value) × List NodeId × Finished
  | 0, _, done, _ => ([], [], done)
  | _ + 1, _, done, [] => ([], [], done)
  | fuel + 1, around, done, (key, node) :: rest =>
    let (p, done) := assemble data fuel around done node
    let (entries, names, done) := assembleEntries data fuel around done rest
    ((key, p.value) :: entries, p.names ++ names, done)
end

/-- How many steps a datum takes at most, on the way through it. -/
def Datum.width : Datum → Nat
  | .scalar _ => 1
  | .list items => items.length + 2
  | .pairs items => items.length + 2
  | .set _ => 1
  | .map entries => entries.length + 2

def Document.value (d : Document) : Except Fault Value := do
  let data ← d.data
  let steps := data.foldl (fun n d => n + ((d.map Datum.width).getD 0)) 1
  return (assemble data steps [] (Array.replicate data.size none) d.root).1.value

/-- The value of the only document in a file's text; null if there is none. -/
def load (text : String) : Except Fault Value := do
  match ← documentOf (← tokens (Text.normalizeLineEnds text.toList)) with
  | some d => d.value
  | none => return .null

end Leasehold.Yaml
