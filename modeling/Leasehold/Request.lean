import Leasehold.Address
import Leasehold.Lease
import Leasehold.Request.Intake
import Leasehold.Request.Problem

/-! Requests for a lease. A caller's options are read field by field; every problem is reported, in the
order of the fields, and a request is made only if there is none. -/

namespace Leasehold

structure Request where
  uuid : Bytes
  family : Family
  hostname : Option String
  clientId : Option String
  vendorClass : Option String
  leaseTime : Option Int
  acquireTimeout : Option Int
  update : List Kind
  servers : List String
  search : List String
  domain : Option String
deriving DecidableEq, Repr, Inhabited

namespace Request

abbrev Reading (α : Type) := Except (List Problem) α

def Reading.problems {α : Type} : Reading α → List Problem
  | .ok _ => []
  | .error problems => problems

def refuse {α : Type} (place : String) (cause : Cause) : Reading α :=
  .error [⟨place, cause⟩]

section

variable (intake : Intake)

def readText (place : String) (v : Value) : Reading String :=
  match intake.text v with
  | .ok s => .ok (Text.trim Text.isWhiteSpace s)
  | .error message => refuse place (.value message)

/-- One of a fixed set of words, with nothing around it. -/
def readWord {α : Type} (word? : String → Option α) (cause : Cause) (place : String) (v : Value) :
    Reading α :=
  match (intake.text v).toOption.bind word? with
  | some a => .ok a
  | none => refuse place cause

def readCount (place : String) (v : Value) : Reading Int :=
  match intake.whole v with
  | .ok i => if i < 0 then refuse place .negative else .ok i
  | .error message => refuse place (.value message)

/-- The readings of a list's elements, from a given index on; all problems are kept. -/
def readItems {α : Type} (read : String → Value → Reading α) (place : String) :
    Nat → List Value → Reading (List α)
  | _, [] => .ok []
  | index, item :: rest =>
    let first := read (place ++ "." ++ toString index) item
    let others := readItems read place (index + 1) rest
    match first, others with
    | .ok a, .ok as => .ok (a :: as)
    | _, _ => .error (first.problems ++ others.problems)

def readList {α : Type} (read : String → Value → Reading α) (place : String) (v : Value) :
    Reading (List α) :=
  match intake.items v with
  | .ok items => readItems read place 0 items
  | .error message => refuse place (.value message)

def readOptional {α : Type} (read : String → Value → Reading α) (place : String) :
    Option Value → Reading (Option α)
  | none => .ok none
  | some (.scalar .null) => .ok none
  | some v => some <$> read place v

def readOr {α : Type} (standing : α) (read : String → Value → Reading α) (place : String) :
    Option Value → Reading α
  | none => .ok standing
  | some v => read place v

def readUuid (place : String) (v : Value) : Reading Bytes :=
  match Uuid.parse v with
  | .ok uuid => .ok uuid
  | .error fault => refuse place (.uuid fault)

/-- A name of at most 253 characters without blanks. -/
def isHostname (s : String) : Bool :=
  s != "" && s.length ≤ 253 && !s.toList.any Text.isBlank

def readHostname (place : String) (v : Value) : Reading String := do
  let s ← readText intake place v
  if isHostname s then return s else refuse place .hostname

def readUpdate (place : String) : Value → Reading (List Kind)
  | .scalar (.int mask) => .ok (UpdateMask.kinds mask)
  | v => readList intake (readWord intake Kind.ofName? .kind) place v

def normalizeServer (place : String) (s : String) : Reading String :=
  match Address.parse? s with
  | some address => .ok address.text
  | none => refuse place (.address s)

def readServers (place : String) (v : Value) : Reading (List String) := do
  (← readList intake (readText intake) place v).mapM (normalizeServer place)

/-- The fields of a request, in the order in which they are read. -/
def fieldNames : List String :=
  ["uuid", "family", "hostname", "client_id", "vendor_class", "lease_time", "acquire_timeout",
    "update", "dns_servers", "dns_search", "domain"]

/-- What is wrong with a key: unless it names a field it is not allowed. -/
def keyProblem? : Scalar → Option Problem
  | .str name => if fieldNames.contains name then none else some ⟨name, .unknownField⟩
  | .bool b => some ⟨if b then "1" else "0", .keyNotText⟩
  | key => some ⟨key.literal, .keyNotText⟩

def ofEntries (entries : Entries) : Except (List Problem) Request :=
  let field (name : String) : Option Value := Entries.field? entries name
  let uuid := readOr intake.uuid readUuid "uuid" (field "uuid")
  let family := readOr .ipv4 (readWord intake Family.ofName? .family) "family" (field "family")
  let hostname := readOptional (readHostname intake) "hostname" (field "hostname")
  let clientId := readOptional (readText intake) "client_id" (field "client_id")
  let vendorClass := readOptional (readText intake) "vendor_class" (field "vendor_class")
  let leaseTime := readOptional (readCount intake) "lease_time" (field "lease_time")
  let acquireTimeout := readOptional (readCount intake) "acquire_timeout" (field "acquire_timeout")
  let update := readOr [.hostname, .resolver] (readUpdate intake) "update" (field "update")
  let servers := readOr [] (readServers intake) "dns_servers" (field "dns_servers")
  let search := readOr [] (readList intake (readText intake)) "dns_search" (field "dns_search")
  let domain := readOptional (readText intake) "domain" (field "domain")
  let problems := uuid.problems ++ family.problems ++ hostname.problems ++ clientId.problems ++
    vendorClass.problems ++ leaseTime.problems ++ acquireTimeout.problems ++ update.problems ++
    servers.problems ++ search.problems ++ domain.problems ++
    entries.filterMap fun entry => keyProblem? entry.1
  if problems.isEmpty then do
    return {
      uuid := ← uuid, family := ← family, hostname := ← hostname, clientId := ← clientId,
      vendorClass := ← vendorClass, leaseTime := ← leaseTime, acquireTimeout := ← acquireTimeout,
      update := ← update, servers := ← servers, search := ← search, domain := ← domain }
  else .error problems

def ofOptions : Value → Except Fault Request
  | .scalar .null => .error .missing
  | .map [] => .error .empty
  | .map entries => (ofEntries intake entries).mapError .invalid
  | _ => .error .notAMapping

end

/-- The mask of the kinds that the request lets its lease drive. -/
def updateMask (r : Request) : Int :=
  UpdateMask.ofKinds r.update

def view (r : Request) : Value :=
  .object [
    ("uuid", .str (Hex.encode r.uuid)),
    ("family", .str r.family.name),
    ("hostname", .optStr r.hostname),
    ("client_id", .optStr r.clientId),
    ("vendor_class", .optStr r.vendorClass),
    ("lease_time", .optInt r.leaseTime),
    ("acquire_timeout", .optInt r.acquireTimeout),
    ("update", .strs (r.update.map Kind.name)),
    ("update_mask", .int r.updateMask),
    ("dns_servers", .strs r.servers),
    ("dns_search", .strs r.search),
    ("domain", .optStr r.domain)]

end Request

end Leasehold
