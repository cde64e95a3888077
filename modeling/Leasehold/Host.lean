import Leasehold.Acquisition.Negotiator
import Leasehold.Acquisition.Remote
import Leasehold.Audit
import Leasehold.Bus
import Leasehold.Reconciliation.Engine

/-! A host: everything that one inventory brings about, wired together. What becomes of leases is told
on the bus, and the engine takes notice of that; its script runs are recorded in the audit trail. -/

namespace Leasehold

/-- The clock, the negotiator, the acquisition service with the outcomes that wait to be reported, the bus with the
events that were published on it and those that its subscribers and waiters got, the engine, and what
was written to trail and log. -/
structure Host where
  now : Moment
  negotiator : Negotiator
  service : Service
  callbacks : List Callback
  bus : Bus
  published : List Event
  mail : List (String × Event)
  engine : Engine
  trail : List Audit.Record
  log : List Log.Record

namespace Host

/-- The name of the engine's own subscription. -/
def engineName : String := "engine"

/-- Lets the engine take notice of the events on the bus. -/
def watch (h : Host) : Host :=
  { h with bus := h.bus.subscribe engineName 0 none }

/-- A host with a store and a registry, unwatched and with empty trail and log. -/
def bare (now : Moment) (negotiator : Negotiator) (mode : Mode) (store : Store)
    (registry : Registry) : Host where
  now := now
  negotiator := negotiator
  service := ⟨store, mode, []⟩
  callbacks := []
  bus := .empty
  published := []
  mail := []
  engine := .ofRegistry registry
  trail := []
  log := []

/-- The modes for which there is a negotiator. -/
def negotiable : List Mode := [.static]

def ofInventory (inv : Inventory) (now : Moment) : Except Inventory.Fault (Host × Binary64) := do
  let devices ← inv.devices
  let registry ← Registry.ofInventory inv .standard
  let timeout ← inv.scriptTimeout
  let mode ← inv.mode
  if negotiable.contains mode then
    let h := bare now (.static true) mode (.ofDevices devices) registry.configure.1
    return (h.watch, timeout)
  else throw (.negotiator mode.name)

def store (h : Host) : Store := h.service.store

def setStore (h : Host) (store : Store) : Host :=
  { h with service := { h.service with store := store } }

/-- Who gets an event: subscribers first, each one in the order of registration. -/
def addressees (b : Bus) (e : Event) : List String :=
  (b.observersOf e).map Subscription.name ++ (b.waitersFor e).map Waiter.name

def publish (h : Host) (e : Event) : Host :=
  let names := addressees h.bus e
  { h with
    bus := h.bus.resolve e
    published := h.published ++ [e]
    mail := h.mail ++ (names.filter (· ≠ engineName)).map (·, e)
    engine := if names.contains engineName then h.engine.notice e else h.engine }

def events (effects : List Effect) : List Event :=
  effects.filterMap fun
    | .publish e => some e
    | _ => none

/-- The host with another service, after effects of a call of it. -/
def told (h : Host) (service : Service) (effects : List Effect) : Host :=
  (events effects).foldl publish { h with service := service }

def after {ε α : Type} (h : Host) (o : Outcome ε α) : Host :=
  let (service, callbacks) := h.negotiator.advance o h.callbacks
  { h with callbacks := callbacks }.told service o.effects

def acquire (h : Host) (device : Scalar) (options : Value) (intake : Intake) :
    Except Remote.Fault Unit × Host :=
  let o := Remote.acquire h.service device options intake h.negotiator.start
  (o.result, h.after o)

def drop (h : Host) (device : Scalar) (uuid : Value) : Except Remote.Fault Unit × Host :=
  let o := Remote.drop h.service device uuid h.negotiator.release
  (o.result, h.after o)

def report (h : Host) : Host :=
  match h.callbacks with
  | [] => h
  | c :: rest =>
    let (service, effects) := Static.report h.service h.now c
    { h with callbacks := rest }.told service effects

def reportAll (h : Host) : Host :=
  h.callbacks.foldl (fun h _ => h.report) h

def timestamp (h : Host) : String := h.now.text ++ "+00:00"

def afterStep (h : Host) (s : EngineStep) : Host :=
  { h with
    engine := s.engine
    trail := h.trail ++ s.changes.map fun c => c.record h.timestamp
    log := h.log ++ s.log }

def beginPass (h : Host) : Host :=
  h.afterStep (h.engine.begin h.store)

def resumePass (h : Host) (result : RunResult) : Host :=
  h.afterStep (h.engine.resume h.store.table result)

def configure (h : Host) : Host :=
  let (registry, log) := h.engine.registry.configure
  { h with engine := { h.engine with registry := registry }, log := h.log ++ log }

/-- Runs a script: gives its result, and does whatever happens meanwhile. -/
abbrev Perform (σ : Type) := Call → Host × σ → RunResult × Host × σ

variable {σ : Type}

/-- Goes on with the pass under way until it waits for no script, or `fuel` scripts have run. -/
def runScripts (perform : Perform σ) : Nat → Host × σ → Host × σ
  | 0, w => w
  | fuel + 1, w =>
    match w.1.engine.call? with
    | none => w
    | some call =>
      let (result, h, s) := perform call w
      runScripts perform fuel (h.resumePass result, s)

/-- A pass runs at most two scripts for each kind. -/
def scriptLimit : Nat := 2 * Kind.all.length

/-- Runs passes until no one is in line, or `fuel` of them have run, and tells whose they were and what
came of them. -/
def runPasses (perform : Perform σ) : Nat → Host × σ → List (Requester × PassResult) × Host × σ
  | 0, w => ([], w)
  | fuel + 1, w =>
    let (h, s) := runScripts perform scriptLimit (w.1.beginPass, w.2)
    match h.engine.complete? with
    | none => ([], h, s)
    | some (who, result, engine) =>
      let (results, w) := runPasses perform fuel ({ h with engine := engine }, s)
      ((who, result) :: results, w)

/-- As many passes as there can be when nothing is scheduled meanwhile: one for each in line, and one
for the task. -/
def passLimit (h : Host) : Nat := h.engine.line.length + 1

/-- Asks for a number of passes at once, and runs them and at most `more` others. -/
def reconcile (perform : Perform σ) (count more : Nat) (w : Host × σ) :
    List PassResult × Host × σ :=
  let h := { w.1 with engine := (List.range count).foldl Engine.request w.1.engine }
  let (results, w) := runPasses perform (h.passLimit + more) (h, w.2)
  (results.filterMap fun
    | (.caller _, result) => some result
    | (.runner, _) => none, w)

/-- Waits for the newest task, whose passes run with at most `more` others, and gives its result. -/
def drain (perform : Perform σ) (more : Nat) (w : Host × σ) : Option PassResult × Host × σ :=
  match w.1.engine.newestTask? with
  | none => (none, w)
  | some task =>
    let h := { w.1 with engine := w.1.engine.wake }
    let (_, w) := runPasses perform (h.passLimit + more) (h, w.2)
    ((w.1.engine.taskResult? task).bind id, w)

/-- Reports the outcomes that wait for it, and runs the passes that follow. -/
def settle (perform : Perform σ) (w : Host × σ) : Host × σ :=
  (drain perform 0 (w.1.reportAll, w.2)).2

end Host

end Leasehold
