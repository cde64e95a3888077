import Leasehold.Inventory.Fault
import Leasehold.Lease
import Leasehold.Log.Record
import Leasehold.Scripts

/-! The inventory: which devices are managed, which scripts apply which settings, and how leases are
obtained. It is read from a loosely typed document. Each question reads only its part, so that one bad
part spoils no other answer. -/

namespace Leasehold

structure Inventory where
  entries : Entries
deriving Inhabited

namespace Inventory

/-- The entries of a value that should be a map; nothing counts as the empty map. What is asked of the
map is named, in case that it is none. -/
def mapOf (v : Value) (asked : String) : Except Fault Entries :=
  if !v.isTruthy then .ok []
  else
    match v.unfold with
    | .map entries => .ok entries
    | v => .error (.notAMap v.fullTypeName asked)

def part (inv : Inventory) (name : String) : Value :=
  (Entries.field? inv.entries name).getD (.map [])

/-- Lists, sets and maps are no keys. -/
def unhashable (v : Value) : Fault :=
  .unfit ("unhashable type: '" ++ v.fullTypeName ++ "'")

mutual
/-- What in a value keeps it from being a key: a list, a set or a map, also one in a tuple. -/
def unhashable? : Value → Option Fault
  | .scalar _ => none
  | .tuple items => unhashableItem? items
  | v => some (unhashable v)

def unhashableItem? : List Value → Option Fault
  | [] => none
  | item :: rest =>
    match unhashable? item with
    | some fault => some fault
    | none => unhashableItem? rest
end

/-- A text about a value, unless the value holds a number that cannot be written. -/
def written (v : Value) : Except Fault String :=
  if v.isWritable then .ok v.display else .error (.number Whole.unwritable)

def isKindName : Value → Bool
  | .scalar s => Kind.all.any fun kind => s == .str kind.name
  | _ => false

def nameWarning? (v : Value) : Except Fault (Option Log.Record) := do
  if let some fault := unhashable? v then throw fault
  if isKindName v then return none
  return some (Log.warning ("Ignoring updater for unknown kind: " ++ (← written v)))

/-- Warns about the settings that are configured and not known. -/
def check (inv : Inventory) : Except Fault (List Log.Record) := do
  let updaters := inv.part "updaters"
  if !updaters.isTruthy then return []
  let some names := UpdateMask.elements? updaters
    | throw (.unfit ("'" ++ updaters.fullTypeName ++ "' object is not iterable"))
  return (← names.mapM nameWarning?).filterMap id

/-- An inventory and the warnings about it from a document. -/
def ofValue (v : Value) : Except Fault (Inventory × List Log.Record) := do
  let inv : Inventory := ⟨← mapOf v "get"⟩
  return (inv, ← inv.check)

/-- Scripts may run for half a minute unless told otherwise. -/
def standardTimeout : Binary64 := .ofInt 30

/-- How long a script may run that has no time of its own. -/
def scriptTimeout (inv : Inventory) : Except Fault Binary64 := do
  let defaults ← mapOf (inv.part "defaults") "get"
  match Entries.field? defaults "timeout" with
  | some v => readFloat v
  | none => return standardTimeout

/-- A value that stands for nothing when it is missing or null. -/
def given? (entries : Entries) (name : String) : Option Value :=
  (Entries.field? entries name).filter fun v =>
    match v with
    | .scalar .null => false
    | _ => true

def command (block : Entries) (name : String) : Except Fault (Option (List String)) :=
  match Entries.field? block name with
  | some v => (Command.parse v).mapError .command
  | none => .ok none

def scriptsOfBlock (block : Entries) : Except Fault Scripts := do
  let install ← command block "install"
  let backup ← command block "backup"
  let restore ← command block "restore"
  let timeout ← (given? block "timeout").mapM readFloat
  return ⟨install, backup, restore, timeout.map .float⟩

/-- The scripts of a kind of setting, if it is configured. -/
def scripts? (inv : Inventory) (kind : Kind) : Except Fault (Option Scripts) := do
  let updaters ← mapOf (inv.part "updaters") "get"
  match given? updaters kind.name with
  | none => return none
  | some v =>
    match v.unfold with
    | .map block => return some (← scriptsOfBlock block)
    | _ => throw (.block kind)

/-- The names of the devices, in the order of the document. -/
def deviceNames (inv : Inventory) : Except Fault (List Scalar) := do
  return (← mapOf (inv.part "devices") "keys").map (·.1)

def hasInfix (part : List Char) : List Char → Bool
  | [] => part.isEmpty
  | c :: rest => part.isPrefixOf (c :: rest) || hasInfix part rest

/-- The name of a device is no place in a list or a text. -/
def noPlace (holder : String) (name : Scalar) : Fault :=
  .unfit (holder ++ " indices must be integers or slices, not " ++ (Value.scalar name).fullTypeName)

/-- The configuration of a device; nothing counts as the empty map. A list, a set or a text that mentions
the device is of no use, and one that does not is as good as a map without it. -/
def deviceConfig (inv : Inventory) (name : Scalar) : Except Fault Value :=
  let devices := inv.part "devices"
  let unknown : Except Fault Value := .error (.unknownDevice name)
  if !devices.isTruthy then unknown
  else
    match devices.unfold with
    | .map entries =>
      match Entries.get? entries name with
      | some v => .ok (if v.isTruthy then v else .map [])
      | none => unknown
    | .list items =>
      if items.any fun item => item.same (.scalar name) then .error (noPlace "list" name) else unknown
    | .set items =>
      if items.any fun item => item.isKey name then
        .error (.unfit "'set' object is not subscriptable")
      else unknown
    | .scalar (.str s) =>
      match name with
      | .str part => if hasInfix part.toList s.toList then .error (noPlace "string" name) else unknown
      | name => .error (.unfit ("'in <string>' requires string as left operand, not " ++
          (Value.scalar name).fullTypeName))
    | v => .error (.unfit ("argument of type '" ++ v.fullTypeName ++ "' is not iterable"))

/-- The interface number of a device; zero unless given. -/
def interfaceIndex (inv : Inventory) (name : Scalar) : Except Fault Int := do
  let entries ← mapOf (← deviceConfig inv name) "get"
  readWhole ((Entries.field? entries "ifindex").getD (.int 0))

def devices (inv : Inventory) : Except Fault (List (Scalar × Int)) := do
  (← inv.deviceNames).mapM fun name => do return (name, ← inv.interfaceIndex name)

/-- How leases are obtained; by static assignment unless told otherwise. -/
def mode (inv : Inventory) : Except Fault Mode := do
  let acquisition ← mapOf (inv.part "acquisition") "get"
  let v := (Entries.field? acquisition "mode").getD (.str Mode.static.name)
  let mode? := match v with
    | .scalar (.str s) => Mode.ofName? s
    | _ => none
  match mode? with
  | some mode => return mode
  | none => throw (.mode (← written v))

end Inventory

end Leasehold
