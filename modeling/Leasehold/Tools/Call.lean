import Leasehold.Host
import Leasehold.Tools.Argument

/-! The tools at work. A call answers at once, or waits for an event and then for the reconciliation
that follows from it. A call that waits has a name of its own on the bus. -/

namespace Leasehold.Tools

/-- What a waiting call has started: an acquisition, a release, or nothing. -/
inductive Errand
  | acquire
  | drop
  | listen
deriving DecidableEq, Repr

/-- A call that waits for an event: its name on the bus, what it has started, the kind of event that it
wants, and the device and the time limit as the caller gave them. -/
structure Waiting where
  name : String
  errand : Errand
  kind : Option EventKind
  device : Value
  timeout : Value

inductive Stage
  | answered (a : Answer)
  | waiting (w : Waiting)
  /-- The event is there, and the passes of a task are still to be waited for. -/
  | draining (w : Waiting) (e : Event) (task : Nat)

namespace Waiting

def heading (w : Waiting) : List (String × Value) :=
  ("device", w.device) ::
    match w.errand with
    | .acquire => [("started", .bool true)]
    | .drop => [("released", .bool true)]
    | .listen => []

def expired (w : Waiting) : Answer :=
  .telling <| .object <| w.heading ++
    [if w.errand = .listen then ("event", .null) else ("completed", .bool false),
      ("timeout", w.timeout)]

def completed (w : Waiting) (e : Event) (pass : Option PassResult) : Answer :=
  .telling <| .object <| w.heading ++
    if w.errand = .listen then [("event", e.view)]
    else
      [("completed", .bool true), ("event", e.view),
        ("reconcile", (pass.map PassResult.view).getD .null)]

def arrived? (w : Waiting) (h : Host) : Option Event :=
  (h.mail.find? fun letter =>
    letter.1 == w.name && w.kind.all fun kind => decide (kind = letter.2.kind)).map (·.2)

def leave (w : Waiting) (h : Host) : Host :=
  { h with
    bus := (h.bus.cancel w.name).forget w.name
    mail := h.mail.filter fun letter => letter.1 != w.name }

/-- What a call does with its event: it leaves the bus, and waits for the passes that follow from changed
leases. -/
def receive (w : Waiting) (h : Host) (e : Event) : Host × Stage :=
  let h := w.leave h
  let answer := Stage.answered (w.completed e none)
  if w.errand = .listen || !e.changesLeases then (h, answer)
  else
    match h.engine.newestTask? with
    | some task => (h, .draining w e task)
    | none => (h, answer)

/-- A call on the bus begins to wait, unless its event has already come or it has no time at all. -/
def wait (w : Waiting) (h : Host) : Host × Except Fault Stage :=
  match patience w.timeout, w.arrived? h with
  | .error fault, _ => (w.leave h, .error fault)
  | .ok _, some e => let (h, stage) := w.receive h e; (h, .ok stage)
  | .ok .none, none => (w.leave h, .ok (.answered w.expired))
  | .ok .some, none => (h, .ok (.waiting w))

/-- Starts an errand with the call already on the bus, so that not even an event during the start is
missed. -/
def start (w : Waiting) (h : Host) (device : Scalar)
    (errand : Host → Except Fault Unit × Host) : Host × Except Fault Stage :=
  match errand { h with bus := h.bus.subscribe w.name 1 (deviceFilter device) } with
  | (.error fault, h) => (w.leave h, .error fault)
  | (.ok (), h) => w.wait h

end Waiting

def ofRemote : Remote.Fault → Fault
  | .method fault => .method fault
  | .crash message => .crash message

/-- The device that a call is about: as the caller gave it, and by its name. -/
def deviceOf (h : Host) (arguments : Entries) : Except Fault (Value × Scalar) := do
  let shown ← needed arguments "device"
  return (shown, ← deviceName h.store shown)

def timeoutOf (arguments : Entries) : Value :=
  given arguments "timeout" standardTimeout

def told (v : Value) : Except Fault Stage :=
  .ok (.answered (.telling v))

/-- Acquires or drops, and waits for the outcome if the caller wishes. -/
def run (h : Host) (arguments : Entries) (w : Waiting) (device : Scalar)
    (errand : Host → Except Fault Unit × Host) (started : Host → List (String × Value)) :
    Host × Except Fault Stage :=
  if (given arguments "wait" (.bool false)).isTruthy then w.start h device errand
  else
    match errand h with
    | (.error fault, h) => (h, .error fault)
    | (.ok (), h) => (h, told (.object (w.heading ++ started h)))

def phaseOf (h : Host) (device : Scalar) : Value :=
  .str ((h.service.session? device).getD default).phase.name

def acquire (h : Host) (name : String) (intake : Intake) (arguments : Entries) :
    Host × Except Fault Stage :=
  match deviceOf h arguments with
  | .error fault => (h, .error fault)
  | .ok (shown, device) =>
    let options := given arguments "options" .null
    run h arguments ⟨name, .acquire, some .acquired, shown, timeoutOf arguments⟩ device
      (fun h =>
        let (result, h) := h.acquire device options intake
        (result.mapError ofRemote, h))
      fun h => [("state", phaseOf h device)]

def drop (h : Host) (name : String) (arguments : Entries) : Host × Except Fault Stage :=
  match deviceOf h arguments with
  | .error fault => (h, .error fault)
  | .ok (shown, device) =>
    let uuid := Uuid.ofArgument (given arguments "uuid" .null)
    run h arguments ⟨name, .drop, some .released, shown, timeoutOf arguments⟩ device
      (fun h =>
        let (result, h) := h.drop device uuid
        (result.mapError ofRemote, h))
      fun _ => []

def waitLeaseEvent (h : Host) (name : String) (arguments : Entries) : Host × Except Fault Stage :=
  let ready : Except Fault (Waiting × Scalar) := do
    let (shown, device) ← deviceOf h arguments
    let kind ← eventKind (given arguments "event" .null)
    return (⟨name, .listen, kind, shown, timeoutOf arguments⟩, device)
  match ready with
  | .error fault => (h, .error fault)
  | .ok (w, device) => w.wait { h with bus := h.bus.await ⟨name, deviceFilter device, w.kind, none⟩ }

/-- The devices with their phases. Looking at a device opens its session. -/
def listDevices (h : Host) : Host × Except Fault Stage :=
  let service := h.store.devices.foldl (fun s d => (Remote.properties s d.name).2) h.service
  let h := { h with service := service }
  let line (d : Device) : Value :=
    .object [("name", .scalar d.name), ("ifindex", .int d.ifindex), ("state", phaseOf h d.name),
      ("leases", .int d.leases.length)]
  (h, told (.object [("mode", .str h.service.mode.name),
    ("devices", .list (h.store.devices.map line))]))

def leasesOf (store : Store) (device : Value) : Except Fault Value := do
  let name ← deviceName store device
  match store.device name with
  | .ok d => return d.view store.table
  | .error fault => throw (.unknownDevice fault)

def getLeases (h : Host) (arguments : Entries) : Host × Except Fault Stage :=
  (h, (needed arguments "device" >>= leasesOf h.store) >>= told)

def updaterStatus (h : Host) : Host × Except Fault Stage :=
  let h := h.configure
  (h, told (.object (("acquisition", h.service.view) :: h.engine.status h.store)))

/-- An audit record as the tool shows it, without the output of its script. -/
def shownRecord (r : Audit.Record) : Value :=
  match r.view with
  | .map fields => .map (fields.filter fun field => field.1 ≠ .str "output")
  | v => v

def getAuditLog (h : Host) (arguments : Entries) : Host × Except Fault Stage :=
  let kind := given arguments "kind" .null
  let operation := given arguments "operation" .null
  let limit := given arguments "limit" standardLimit
  (h, do
    -- The trail holds changes only, so nothing is nested in a line's map.
    let records ← (Audit.recent 1 (some (Audit.text 0 h.trail)) ⟨kind, operation, limit⟩).mapError .query
    told <| .object [
      ("total_records", .int records.length),
      ("filters", .object [("kind", kind), ("operation", operation), ("limit", limit)]),
      ("records", .list (records.map shownRecord))])

def reconcile {σ : Type} (perform : Host.Perform σ) (w : Host × σ) :
    (Host × σ) × Except Fault Stage :=
  let (results, w) := Host.reconcile perform 1 0 w
  (w, told ((results.head?.map PassResult.view).getD .null))

def call {σ : Type} (perform : Host.Perform σ) (w : Host × σ) (name : String) (intake : Intake)
    (tool : String) (arguments : Entries) : (Host × σ) × Except Fault Stage :=
  let (h, s) := w
  let beside (r : Host × Except Fault Stage) : (Host × σ) × Except Fault Stage := ((r.1, s), r.2)
  match tool with
  | "list_devices" => beside (listDevices h)
  | "get_leases" => beside (getLeases h arguments)
  | "acquire" => beside (acquire h name intake arguments)
  | "drop" => beside (drop h name arguments)
  | "wait_lease_event" => beside (waitLeaseEvent h name arguments)
  | "reconcile" => reconcile perform w
  | "updater_status" => beside (updaterStatus h)
  | "get_audit_log" => beside (getAuditLog h arguments)
  | _ => (w, .ok (.answered (.text ("Unknown tool: " ++ tool))))

def Stage.ofResult : Except Fault Stage → Stage
  | .ok stage => stage
  | .error fault => .answered fault.answer

def Stage.advance (stage : Stage) (h : Host) : Host × Stage :=
  match stage with
  | .answered a => (h, .answered a)
  | .waiting w =>
    match w.arrived? h with
    | some e => w.receive h e
    | none => (h, stage)
  | .draining w e task =>
    match h.engine.taskResult? task with
    | some pass => (h, .answered (w.completed e pass))
    | none => (h, stage)

/-- Ends a call whose time is up. An event that has come by then is its result after all. -/
def Stage.giveUp (stage : Stage) (h : Host) : Host × Stage :=
  match stage with
  | .waiting w =>
    match w.arrived? h with
    | some e => w.receive h e
    | none => (w.leave h, .answered w.expired)
  | stage => (h, stage)

end Leasehold.Tools
