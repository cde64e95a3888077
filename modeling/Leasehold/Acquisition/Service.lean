import Leasehold.Acquisition.Session

/-! The acquisition service. Acquiring and releasing only start the negotiation; its outcome is reported
later with the ticket that it was started with, and a report whose ticket is no longer waited for is
ignored. What the negotiator answers when it is called is an input here, and what the service asks of
it and tells the bus is an output, in the order in which it happens. A device may be called by every
name that is one key with its own: sessions keep the name of their first use, tickets and events have
the one of their caller. -/

namespace Leasehold

inductive Reply
  | accepted
  | refused (message : String)
  | crashed (message : String)
deriving DecidableEq, Repr, Inhabited

inductive Effect
  | start (t : Ticket)
  | release (t : Ticket) (lease : LeaseId)
  | cancel (t : Ticket)
  | publish (e : Event)
deriving DecidableEq, Repr

inductive ServiceFault
  | invalid (fault : Request.Fault)
  | unknownDevice (fault : UnknownDevice)
  | negotiation (message : String)
  | operation (message : String)
  | crash (message : String)
deriving DecidableEq, Repr

def ServiceFault.message : ServiceFault → String
  | .invalid fault => fault.message
  | .unknownDevice fault => fault.message
  | .negotiation message => message
  | .operation message => message
  | .crash message => message

/-- The store, the protocol of the negotiator, and the sessions in the order of their first use. -/
structure Service where
  store : Store
  mode : Mode
  sessions : List Session
deriving DecidableEq, Repr, Inhabited

/-- What came of a call: an answer or a fault, the service afterwards, and the effects. -/
structure Outcome (ε α : Type) where
  result : Except ε α
  service : Service
  effects : List Effect

def Outcome.reported {ε ε' α β : Type} (o : Outcome ε α) (report : Except ε α → Except ε' β) :
    Outcome ε' β :=
  ⟨report o.result, o.service, o.effects⟩

namespace Service

def session? (s : Service) (device : Scalar) : Option Session :=
  s.sessions.find? fun session => session.device.isKey device

def setSession (s : Service) (session : Session) : Service :=
  { s with sessions := s.sessions.map fun old =>
      if old.device.isKey session.device then session else old }

def openSession (s : Service) (device : Scalar) : Except UnknownDevice (Session × Service) := do
  let _ ← s.store.device device
  match s.session? device with
  | some session => return (session, s)
  | none =>
    let session := Session.fresh device
    return (session, { s with sessions := s.sessions ++ [session] })

/-- The session that a completion belongs to, if its ticket is waited for. -/
def currentSession? (s : Service) (t : Ticket) : Option Session :=
  (s.session? t.device).filter fun session => session.isCurrent t

def withdraw (s : Service) (device : Scalar) (lease : Option LeaseId) : Service :=
  match lease with
  | some id => { s with store := s.store.modifyDevice device fun d => d.removeLease id }
  | none => s

def emptied (session : Session) : Session :=
  { session with phase := .idle, ticket := none, lease := none }

def released (s : Service) (device : Scalar) (lease : Option LeaseId) (reason : Option String) :
    Event where
  device := device
  kind := .released
  success := true
  lease := lease.map s.store.named
  reason := reason
  requestUuid := lease.map fun id => (s.store.lease id).uuid

/-- Drops the session's lease and tells so, speaking of the device as its caller does. -/
def dropLease (s : Service) (session : Session) (device : Scalar) (reason : Option String) :
    Session × Service × Effect :=
  let next := emptied session
  (next, (s.withdraw session.device session.lease).setSession next,
    .publish (s.released device session.lease reason))

/-- Puts a ticket's phase into force, or back what was before if the negotiator does not accept. -/
def settle (s : Service) (before after : Session) (reply : Reply) (effects : List Effect)
    (t : Ticket) : Outcome ServiceFault Ticket :=
  match reply with
  | .accepted => ⟨.ok t, s.setSession after, effects⟩
  | .refused message => ⟨.error (.negotiation message), s.setSession before, effects⟩
  | .crashed message => ⟨.error (.crash message), s.setSession before, effects⟩

/-- Ends a release that is under way: its caller was already told that the lease is gone. -/
def finishRelease (s : Service) (session : Session) (device : Scalar) :
    Session × Service × List Effect :=
  match session.phase, session.ticket with
  | .releasing, some t =>
    let (next, s, told) := s.dropLease session device none
    (next, s, [.cancel t, told])
  | .releasing, none =>
    let (next, s, told) := s.dropLease session device none
    (next, s, [told])
  | _, _ => (session, s, [])

/-- Starts to acquire a lease. A request in flight is replaced, and a release under way is over. -/
def acquire (s : Service) (device : Scalar) (options : Value) (intake : Intake) (reply : Reply) :
    Outcome ServiceFault Ticket :=
  match Request.ofOptions intake options with
  | .error fault => ⟨.error (.invalid fault), s, []⟩
  | .ok request =>
    match s.openSession device with
    | .error fault => ⟨.error (.unknownDevice fault), s, []⟩
    | .ok (session, s) =>
      let (before, s, ended) := s.finishRelease session device
      let replaced := before.inFlight?.toList.map Effect.cancel
      let ticket : Ticket := ⟨device, before.generation + 1, some request⟩
      let after : Session :=
        { before with
          phase := .acquiring, generation := before.generation + 1, ticket := some ticket }
      s.settle before after reply (ended ++ replaced ++ [.start ticket]) ticket

def isSpecific (uuid : Option Bytes) : Bool :=
  uuid.any fun bytes => decide (bytes ≠ nullUuid)

def leaseUuid? (s : Service) (session : Session) : Option Bytes :=
  session.lease.map fun id => (s.store.lease id).uuid

def holds (s : Service) (session : Session) (uuid : Option Bytes) : Bool :=
  !isSpecific uuid || s.leaseUuid? session = uuid

def cancelRequest (s : Service) (session : Session) (t : Ticket) : Outcome ServiceFault Unit :=
  let next : Session :=
    { session with phase := .idle, generation := session.generation + 1, ticket := none }
  let told : Event := {
    device := session.device, kind := .released, success := false, lease := none
    reason := some "cancelled", requestUuid := t.request.map Request.uuid }
  ⟨.ok (), s.setSession next, [.cancel t, .publish told]⟩

def startRelease (s : Service) (session : Session) (device : Scalar) (id : LeaseId) (reply : Reply) :
    Outcome ServiceFault Unit :=
  let replaced := session.inFlight?.toList.map Effect.cancel
  let ticket : Ticket := ⟨device, session.generation + 1, none⟩
  let after : Session :=
    { session with
      phase := .releasing, generation := session.generation + 1, ticket := some ticket }
  (s.settle session after reply (replaced ++ [.release ticket id]) ticket).reported
    fun result => result.map fun _ => ()

/-- Starts to release the lease of a device: any, or only the one of a uuid. Without a lease the request
in flight is cancelled. -/
def release (s : Service) (device : Scalar) (uuid : Option Bytes) (reply : Reply) :
    Outcome ServiceFault Unit :=
  match s.openSession device with
  | .error fault => ⟨.error (.unknownDevice fault), s, []⟩
  | .ok (session, s) =>
    let refuse (message : String) : Outcome ServiceFault Unit :=
      ⟨.error (.operation message), s, []⟩
    if !s.holds session uuid then
      refuse ("no active lease with uuid " ++ Hex.encode (uuid.getD []))
    else
      match session.lease, session.inFlight? with
      | none, some t => s.cancelRequest session t
      | none, none => refuse "no active lease or negotiation to release"
      | some id, _ =>
        if session.phase = .releasing then refuse "lease release already in progress"
        else s.startRelease session device id reply

/-- A lease as it is stamped when it is obtained. -/
def stamp (lease : Lease) (mode : Mode) (seqno : Int) (now : Moment) (request : Option Request) :
    Lease :=
  let lease := { lease with seqno := seqno, mode := mode, acquiredAt := some now }
  match request with
  | none => lease
  | some r =>
    { lease with
      uuid := r.uuid
      family := r.family
      update := r.updateMask
      leaseTime := r.leaseTime.getD lease.leaseTime }

/-- The negotiator obtained a lease. It takes the place of the lease that it was acquired over. -/
def completeAcquire (s : Service) (t : Ticket) (id : LeaseId) (now : Moment) : Service × List Effect :=
  match s.currentSession? t with
  | none => (s, [])
  | some session =>
    let (seqno, store) := s.store.nextSeqno
    let store := store.setLease id (stamp (store.lease id) s.mode seqno now t.request)
    let s := { s with store := store }
    let s := s.withdraw t.device (session.lease.filter fun old => old ≠ id)
    let s := { s with store := s.store.modifyDevice t.device fun d => d.addLease s.store.table id }
    let s := s.setSession { session with phase := .bound, ticket := none, lease := some id }
    let told : Event := {
      device := t.device, kind := .acquired, success := true, lease := some (s.store.named id)
      reason := none, requestUuid := some (s.store.lease id).uuid }
    (s, [.publish told])

def failAcquire (s : Service) (t : Ticket) (reason : String) : Service × List Effect :=
  match s.currentSession? t with
  | none => (s, [])
  | some session =>
    let next : Session :=
      { session with phase := if session.lease.isSome then .bound else .idle, ticket := none }
    let told : Event := {
      device := t.device, kind := .acquired, success := false, lease := none
      reason := some reason, requestUuid := t.request.map Request.uuid }
    (s.setSession next, [.publish told])

def completeRelease (s : Service) (t : Ticket) : Service × List Effect :=
  match s.currentSession? t with
  | none => (s, [])
  | some session =>
    let (_, s, told) := s.dropLease session t.device none
    (s, [told])

/-- The session whose lease ran out. A request in flight outlives the lease it was issued over. -/
def expireLease (s : Service) (session : Session) (device : Scalar) (id : LeaseId) :
    Service × List Effect :=
  match session.inFlight? with
  | some _ =>
    ((s.withdraw session.device (some id)).setSession { session with lease := none },
      [.publish (s.released device (some id) (some "expired"))])
  | none =>
    let cancelled := session.ticket.toList.map Effect.cancel
    let (_, s, told) :=
      s.dropLease { session with generation := session.generation + 1 } device (some "expired")
    (s, cancelled ++ [told])

/-- Drops a lease that ran out: any, or only the one of a uuid. Tells whether there was one. -/
def expire (s : Service) (device : Scalar) (uuid : Option Bytes) : Outcome ServiceFault Bool :=
  match s.openSession device with
  | .error fault => ⟨.error (.unknownDevice fault), s, []⟩
  | .ok (session, s) =>
    match session.lease with
    | none => ⟨.ok false, s, []⟩
    | some id =>
      if s.holds session uuid then
        let (s, effects) := s.expireLease session device id
        ⟨.ok true, s, effects⟩
      else ⟨.ok false, s, []⟩

def view (s : Service) : Value :=
  .list (s.sessions.map fun session => session.view s.store)

end Service

end Leasehold
