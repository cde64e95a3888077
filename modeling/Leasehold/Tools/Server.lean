import Leasehold.Reconciliation.Execution
import Leasehold.Tools.Resource
import Leasehold.Yaml.Document

/-! The server: the host is made from its configuration by the first call that needs it, and every call
tries again as long as that fails. -/

namespace Leasehold.Tools

inductive OpenFault
  | document (fault : Yaml.Fault)
  | inventory (fault : Inventory.Fault)

def OpenFault.message : OpenFault → String
  | .document fault => fault.message
  | .inventory fault => fault.message

/-- Why a call has no answer although the tool has done its work: the line about it in the performance
log is laid out for a device's name, and the argument is none. -/
inductive SubjectFault
  | number (typeName : String)
  | other (typeName : String)
deriving DecidableEq, Repr

def SubjectFault.message : SubjectFault → String
  | .number typeName => "Unknown format code 's' for object of type '" ++ typeName ++ "'"
  | .other typeName => "unsupported format string passed to " ++ typeName ++ ".__format__"

/-- What keeps a device argument from the performance log. Nothing is shown by a mark of its own. -/
def subjectFault? (device : Value) : Option SubjectFault :=
  if !device.isTruthy then none
  else
    match device with
    | .scalar (.str _) => none
    | .scalar s =>
      if s.number?.isSome then some (.number device.typeName) else some (.other device.typeName)
    | v => some (.other v.typeName)

/-- A call that has been made: the device argument, and where it stands. -/
structure CallState where
  device : Value
  stage : Stage

def CallState.answer? (c : CallState) : Option (Except SubjectFault Answer) :=
  match c.stage with
  | .answered a =>
    match subjectFault? c.device with
    | some fault => some (.error fault)
    | none => some (.ok a)
  | _ => none

/-- What a client asks for: a tool call, a resource's document, or the list of resources. -/
inductive Inquiry
  | call (tool : String) (arguments : Entries)
  | read (address : String)
  | list

abbrev ReadFault := OpenFault ⊕ Fault

abbrev ListFault := OpenFault ⊕ Resource.Fault

inductive Response
  | answer (a : Except SubjectFault Answer)
  | document (v : Except ReadFault Value)
  | resources (rs : Except ListFault (List Resource))

/-- The clock, the configuration as found, the processes that scripts meet, the host and its standing
time limit once it is made, how many calls there have been, those whose answers are still to be given,
and the attempts to start scripts. -/
structure Server where
  now : Moment
  document : Except Yaml.Fault Value
  path : String
  process : Kind → Role → Except SystemFault Child
  opened : Option (Host × Binary64)
  made : Nat
  calls : List CallState
  spawned : List Executor.Spawn

namespace Server

def host (s : Server) : Except OpenFault (Host × Binary64) := do
  match s.opened with
  | some opened => return opened
  | none =>
    let v ← s.document.mapError .document
    let (inv, _) ← (Inventory.ofValue v).mapError .inventory
    (Host.ofInventory inv s.now).mapError .inventory

def perform (s : Server) (timeout : Binary64) : Host.Perform (List Executor.Spawn) :=
  fun call (h, spawned) =>
    let report := Surroundings.run ⟨.float timeout, s.path, s.process⟩ call
    (report.runResult, h, spawned ++ report.spawned)

def call (s : Server) (intake : Intake) (tool : String) (arguments : Entries) : Server :=
  let device := given arguments "device" (.str "N/A")
  let made (s : Server) (stage : Stage) : Server :=
    { s with made := s.made + 1, calls := s.calls ++ [⟨device, stage⟩] }
  match s.host with
  | .error fault => made s (.answered (Fault.inventory fault.message).answer)
  | .ok (h, timeout) =>
    let ((h, spawned), result) :=
      Tools.call (s.perform timeout) (h, s.spawned) ("call " ++ toString s.made) intake tool arguments
    made { s with opened := some (h, timeout), spawned := spawned } (.ofResult result)

def onCalls (s : Server) (step : Stage → Host → Host × Stage) : Server :=
  match s.opened with
  | none => s
  | some (h, timeout) =>
    let (h, calls) := s.calls.foldl (fun (h, calls) c =>
      let (h, stage) := step c.stage h
      (h, calls ++ [{ c with stage := stage }])) (h, [])
    { s with opened := some (h, timeout), calls := calls }

def rest (s : Server) : Server :=
  match s.opened with
  | none => s
  | some (h, timeout) =>
    let (h, spawned) := Host.settle (s.perform timeout) (h, s.spawned)
    let s := { s with opened := some (h, timeout), spawned := spawned }
    (s.onCalls Stage.advance).onCalls Stage.advance

def resources (s : Server) : Except ListFault (List Resource) × Server :=
  match s.host with
  | .error fault => (.error (.inl fault), s)
  | .ok (h, timeout) =>
    ((Resource.all h.store).mapError .inr, { s with opened := some (h, timeout) })

/-- The document of a resource, or what keeps it from being read. -/
def resource (s : Server) (address : String) : Except ReadFault Value × Server :=
  match Resource.device? address with
  | none => (.ok (Resource.unknown address), s)
  | some device =>
    match s.host with
    | .error fault => (.error (.inl fault), s)
    | .ok (h, timeout) =>
      ((leasesOf h.store (.str device)).mapError .inr, { s with opened := some (h, timeout) })

/-- Takes up an inquiry. The response to a call comes later. -/
def take (s : Server) (intake : Intake) : Inquiry → Option Response × Server
  | .call tool arguments => (none, s.call intake tool arguments)
  | .read address =>
    let (result, s) := s.resource address
    (some (.document result), s)
  | .list =>
    let (result, s) := s.resources
    (some (.resources result), s)

def fill : List (Option Response) → List (Except SubjectFault Answer) → List Response
  | some response :: rest, answers => response :: fill rest answers
  | none :: rest, answer :: answers => .answer answer :: fill rest answers
  | none :: _, [] => []
  | [], _ => []

/-- Serves inquiries side by side: each is taken up when those before it can go no further, and calls
that still wait in the end give up. -/
def serve (s : Server) (intake : Intake) (inquiries : List Inquiry) : List Response × Server :=
  let (early, s) := inquiries.foldl (fun (early, s) inquiry =>
    let (response, s) := s.take intake inquiry
    (early ++ [response], s.rest)) ([], s)
  let s := s.onCalls Stage.giveUp
  (fill early (s.calls.filterMap CallState.answer?), { s with calls := [] })

end Server

end Leasehold.Tools
