import Leasehold.Event
import Leasehold.Lease

/-! The tools on offer, with the parameters that each takes. -/

namespace Leasehold.Tools

structure Parameter where
  name : String
  type : String
  description : String
  choices : List String
  standing : Option Value
  required : Bool

structure Tool where
  name : String
  description : String
  parameters : List Parameter

namespace Parameter

def schema (p : Parameter) : Value :=
  .object <|
    [("type", .str p.type), ("description", .str p.description)] ++
      (if p.choices.isEmpty then [] else [("enum", .strs p.choices)]) ++
      (match p.standing with
        | some v => [("default", v)]
        | none => [])

def needed (name type description : String) : Parameter :=
  ⟨name, type, description, [], none, true⟩

def optional (name type description : String) : Parameter :=
  ⟨name, type, description, [], none, false⟩

/-- A parameter that has a standing value when it is left out. -/
def withStanding (name type description : String) (standing : Value) : Parameter :=
  ⟨name, type, description, [], some standing, false⟩

end Parameter

def Tool.schema (t : Tool) : Value :=
  .object [
    ("type", .str "object"),
    ("properties", .object (t.parameters.map fun p => (p.name, p.schema))),
    ("required", .strs ((t.parameters.filter (·.required)).map (·.name)))]

def Tool.view (t : Tool) : Value :=
  .object [("name", .str t.name), ("description", .str t.description), ("schema", t.schema)]

/-- How long a waiting call waits unless told otherwise, in seconds. -/
def standardTimeout : Value := .scalar (.float (.ofInt 30))

/-- How many records of the audit log are shown unless told otherwise. -/
def standardLimit : Value := .int 20

def deviceParameter : Parameter := .needed "device" "string" "Device name"

/-- The two parameters of a call that may wait for an event. -/
def waitParameters (what : String) : List Parameter :=
  [.withStanding "wait" "boolean" what (.bool false),
    .withStanding "timeout" "number" "Seconds to wait when wait=true" standardTimeout]

def catalogue : List Tool := [
  ⟨"list_devices", "List managed network devices with their acquisition state", []⟩,
  ⟨"get_leases", "Get the active leases of a device",
    [.needed "device" "string" "Device name (e.g., 'eth0')"]⟩,
  ⟨"acquire",
    "Start acquiring a lease for a device. Returns once negotiation has started; " ++
      "set wait=true to block until the lease-acquired event and the follow-up " ++
      "reconciliation pass",
    [deviceParameter,
      .needed "options" "object"
        ("Request options: uuid, family (ipv4/ipv6), hostname, client_id, " ++
          "vendor_class, lease_time, acquire_timeout, update (list of kinds), " ++
          "dns_servers, dns_search, domain")] ++
      waitParameters "Wait for the acquisition to complete"⟩,
  ⟨"drop",
    "Release the active lease of a device, optionally only the one with the given uuid",
    [deviceParameter,
      .optional "uuid" "string"
        "Lease uuid (32 hex digits or UUID string); omit to release any lease"] ++
      waitParameters "Wait for the lease-released event"⟩,
  ⟨"wait_lease_event", "Wait for the next lease event of a device",
    [deviceParameter,
      ⟨"event", "string", "Only return this event type", EventKind.all.map EventKind.name, none, false⟩,
      .withStanding "timeout" "number" "Seconds to wait" standardTimeout]⟩,
  ⟨"reconcile",
    "Run a reconciliation pass: back up, install or restore host settings from the current leases",
    []⟩,
  ⟨"updater_status",
    "Show per-kind updater state: enabled, installed lease, backup, candidate sources", []⟩,
  ⟨"get_audit_log", "Get recent host settings changes from the audit log",
    [.optional "kind" "string" "Filter by update kind (hostname, resolver, ...)",
      .optional "operation" "string" "Filter by operation (backup, install, restore)",
      .withStanding "limit" "integer" "Maximum number of records to return" standardLimit]⟩]

end Leasehold.Tools
