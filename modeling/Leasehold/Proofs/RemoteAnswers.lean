import Leasehold.Acquisition.Remote
import Leasehold.Proofs.DropByUuid
import Leasehold.Proofs.ResolverDirectives

/-! What remote callers are told, and what is left after a refusal. Arguments that do not fit are the callers' fault,
and everything else that goes wrong is a failure. A refused call leaves the service as it was; only a release that was
under way is over, also if the acquisition that ended it could not start. -/

namespace Leasehold

namespace Request

variable {intake : Intake} {entries : Entries} {options : Value} {r : Request}

/-- Options of which no request can be made: there are none, they are empty or no mapping, or there is a field that
cannot be read or an entry that is no field. -/
inductive Unfit (intake : Intake) : Value → Prop
  | missing : Unfit intake .null
  | empty : Unfit intake (.map [])
  | notAMapping {options : Value} (other : ∀ entries, options ≠ .map entries) : Unfit intake options
  | invalid {entries : Entries} (unreadable : ∀ r, ¬ ReadFrom intake entries r) : Unfit intake (.map entries)

theorem ReadFrom.ofEntries (read : ReadFrom intake entries r) : ofEntries intake entries = .ok r := by
  have known : entries.filterMap (fun entry => keyProblem? entry.1) = [] :=
    List.filterMap_eq_nil_iff.mpr read.known
  simp only [Request.ofEntries, read.uuid, read.family, read.hostname, read.clientId, read.vendorClass,
    read.leaseTime, read.acquireTimeout, read.update, read.servers, read.search, read.domain, known]
  rfl

theorem ReadFrom.ofOptions (read : ReadFrom intake entries r) (filled : entries ≠ []) :
    ofOptions intake (.map entries) = .ok r := by
  cases entries with
  | nil => exact absurd rfl filled
  | cons first rest =>
    rw [Request.ofOptions, read.ofEntries]
    · rfl
    · simp

theorem unfit_iff : Unfit intake options ↔ ∃ fault, ofOptions intake options = .error fault := by
  constructor
  · intro unfit
    cases read : ofOptions intake options with
    | error fault => exact ⟨fault, rfl⟩
    | ok r =>
      obtain ⟨entries, rfl, fields⟩ := ofOptions_readFrom read
      cases unfit with
      | empty => cases read
      | notAMapping other => exact absurd rfl (other entries)
      | invalid unreadable => exact absurd fields (unreadable r)
  · rintro ⟨fault, refused⟩
    unfold ofOptions at refused
    split at refused
    next => exact .missing
    next => exact .empty
    next entries _ =>
      refine .invalid fun r fields => ?_
      rw [fields.ofEntries] at refused
      cases refused
    next other => exact .notAMapping fun entries same => other entries same

end Request

def Session.standing (x : Session) : Phase × Nat × Option Ticket × Option LeaseId :=
  (x.phase, x.generation, x.ticket, x.lease)

namespace Service

/-- The leases, the numbers for them and the sessions are the same; a device that has no session counts as one with a
fresh session. -/
structure Alike (s s' : Service) : Prop where
  store : s'.store = s.store
  sessions : ∀ device, (s'.sessionOf device).standing = (s.sessionOf device).standing

/-- Nothing has come of a call, and nobody heard of it. -/
structure Untouched {ε α : Type} (s : Service) (o : Outcome ε α) : Prop where
  service : s.Alike o.service
  silent : Host.events o.effects = []

/-- A release that was under way is over, as if it had been reported; the caller speaks of the device by its own name
for it. -/
structure Completed {ε α : Type} (s : Service) (device : Scalar) (t : Ticket) (o : Outcome ε α) : Prop where
  ticket : (s.sessionOf device).ticket = some t
  service : o.service = (s.completeRelease t).1
  told : Host.events o.effects = (Host.events (s.completeRelease t).2).map fun e => { e with device := device }

/-- The negotiator was asked to start while the device was giving a lease back. -/
def Interrupts {ε α : Type} (s : Service) (device : Scalar) (o : Outcome ε α) : Prop :=
  (s.sessionOf device).phase = .releasing ∧ ∃ t, Effect.start t ∈ o.effects

variable {s s' : Service} {device : Scalar} {options : Value} {intake : Intake} {uuid : Option Bytes} {reply : Reply}
  {x : Session} {t : Ticket} {fault : ServiceFault}

theorem Alike.refl (s : Service) : s.Alike s := ⟨rfl, fun _ => rfl⟩

theorem Becomes.alike (same : s.Becomes device (s.sessionOf device) s.store s') : s.Alike s' := by
  refine ⟨same.store, fun other => ?_⟩
  by_cases here : other.key = device.key
  · rw [same.sessionOf_here here, s.sessionOf_congr here]
    rfl
  · rw [same.sessionOf_elsewhere here]

/-- A session that is put back is as it was. -/
theorem Becomes.restored {opened : Service} (b : s.Becomes device (s.sessionOf device) s.store opened) :
    s.Alike (opened.setSession (s.sessionOf device)) :=
  Becomes.alike (b.store ▸ b.setSession opened _ rfl rfl (s.sessionOf_device device))

theorem setSession_twice (s : Service) (x : Session) : (s.setSession x).setSession x = s.setSession x := by
  have again (old : Session) :
      (if (if old.device.isKey x.device then x else old).device.isKey x.device then x
        else if old.device.isKey x.device then x else old) = if old.device.isKey x.device then x else old := by
    by_cases replaced : old.device.isKey x.device = true <;> simp [replaced]
  simp only [setSession, List.map_map, Function.comp_def, again]

/-- The negotiator does not accept an attempt: the session is put back. -/
theorem settle_error {before after : Session} {effects : List Effect}
    (refused : (s.settle before after reply effects t).result = .error fault) :
    (s.settle before after reply effects t).service = s.setSession before := by
  cases reply with
  | accepted => cases refused
  | refused message => rfl
  | crashed message => rfl

/-- Of a session that asks for an attempt nobody hears. -/
theorem events_asking (x : Session) {ask : Effect} (asked : ask.asked? = some t) :
    Host.events (x.replaced ++ [ask]) = [] := by
  rw [events_append, events_replaced, events_asked asked]
  rfl

/-- Why a call is turned down although its arguments are fit. -/
inductive Outage (reply : Reply) : ServiceFault → Prop
  | unknownDevice (fault : UnknownDevice) : Outage reply (.unknownDevice fault)
  | operation (message : String) : Outage reply (.operation message)
  | negotiation {message : String} (refused : reply = .refused message) : Outage reply (.negotiation message)
  | crash {message : String} (crashed : reply = .crashed message) : Outage reply (.crash message)

/-- A session that gives its lease back waits for the report of it. -/
theorem currentSession?_releasing (sound : s.SessionsSound) (phase : (s.sessionOf device).phase = .releasing) :
    ∃ t, (s.sessionOf device).ticket = some t ∧ t.device.key = device.key ∧
      s.session? device = some (s.sessionOf device) ∧ s.currentSession? t = some (s.sessionOf device) := by
  cases present : s.session? device with
  | none =>
    rw [sessionOf, present] at phase
    cases phase
  | some x =>
    rw [sessionOf_eq present] at phase ⊢
    have stands : x.Sound := sessionOf_eq present ▸ sound device
    obtain ⟨t, waiting⟩ := Option.isSome_iff_exists.mp (stands.releasing phase).2
    obtain ⟨name, generation⟩ := stands.ticket t waiting
    have same : t.device.key = device.key := name.trans (session?_device present)
    refine ⟨t, waiting, same, rfl, ?_⟩
    rw [currentSession?, s.session?_congr same, present]
    simp [Session.isCurrent, waiting, generation]

theorem openSession_present (present : s.session? device = some x) {y : Session} {opened : Service}
    (opens : s.openSession device = .ok (y, opened)) : opened = s := by
  unfold openSession at opens
  obtain ⟨d, -, opens⟩ := Reading.bind_ok opens
  rw [present] at opens
  exact (Prod.mk.inj (Except.ok.inj opens)).2.symm

/-- An acquisition that is turned down over a release: that release is over. -/
theorem acquire_completed (sound : s.SessionsSound)
    (refused : (s.acquire device options intake reply).result = .error fault)
    (interrupts : s.Interrupts device (s.acquire device options intake reply)) :
    ∃ t, s.Completed device t (s.acquire device options intake reply) := by
  obtain ⟨phase, ask⟩ := interrupts
  obtain ⟨t, waiting, name, present, current⟩ := currentSession?_releasing sound phase
  refine ⟨t, ?_⟩
  unfold Service.acquire at refused ask ⊢
  cases read : Request.ofOptions intake options with
  | error fault => simp [read] at ask
  | ok request =>
    cases opens : s.openSession device with
    | error fault => simp [read, opens] at ask
    | ok pair =>
      obtain ⟨x, opened⟩ := pair
      obtain ⟨rfl, -⟩ := openSession_ok opens
      obtain rfl := openSession_present present opens
      simp only [read, opens, finishRelease_releasing _ _ device phase] at refused ⊢
      refine ⟨waiting, ?_, ?_⟩
      · rw [settle_error refused, setSession_twice, completeRelease_current t current]
      · rw [settle_effects, completeRelease_current t current, List.append_assoc, List.append_assoc, events_append,
          events_abandoned, events_append, ← Session.replaced, events_asking _ rfl]
        rfl

/-- An acquisition that is turned down in any other way comes to nothing. -/
theorem acquire_untouched (refused : (s.acquire device options intake reply).result = .error fault)
    (calm : ¬ s.Interrupts device (s.acquire device options intake reply)) :
    s.Untouched (s.acquire device options intake reply) := by
  unfold Service.acquire at refused calm ⊢
  cases read : Request.ofOptions intake options with
  | error fault => exact ⟨.refl s, rfl⟩
  | ok request =>
    cases opens : s.openSession device with
    | error fault => exact ⟨.refl s, rfl⟩
    | ok pair =>
      obtain ⟨x, opened⟩ := pair
      obtain ⟨rfl, b⟩ := openSession_ok opens
      simp only [read, opens] at refused calm ⊢
      have phase : (s.sessionOf device).phase ≠ .releasing := by
        intro releasing
        refine calm ⟨releasing, ?_⟩
        simp only [settle_effects]
        exact ⟨_, List.mem_append_right _ (List.mem_singleton_self _)⟩
      rw [finishRelease_other opened _ device phase] at refused ⊢
      refine ⟨?_, ?_⟩
      · rw [settle_error refused]
        exact b.restored
      · rw [settle_effects]
        exact events_asking _ rfl

/-- A release that is turned down comes to nothing, and not for its arguments. -/
theorem release_error (refused : (s.release device uuid reply).result = .error fault) :
    s.Untouched (s.release device uuid reply) ∧ Outage reply fault := by
  unfold Service.release at refused ⊢
  cases opens : s.openSession device with
  | error unknown =>
    rw [opens] at refused
    cases refused
    exact ⟨⟨.refl s, rfl⟩, .unknownDevice unknown⟩
  | ok pair =>
    obtain ⟨x, opened⟩ := pair
    obtain ⟨rfl, b⟩ := openSession_ok opens
    have kept (result : Except ServiceFault Unit) : s.Untouched (⟨result, opened, []⟩ : Outcome _ _) := ⟨b.alike, rfl⟩
    simp only [opens] at refused ⊢
    split at refused
    next other =>
      cases refused
      rw [if_pos other]
      exact ⟨kept _, .operation _⟩
    next fits =>
      rw [if_neg fits]
      cases held : (s.sessionOf device).lease with
      | none =>
        cases waiting : (s.sessionOf device).inFlight? with
        | none =>
          rw [held, waiting] at refused
          cases refused
          exact ⟨kept _, .operation _⟩
        | some t =>
          rw [held, waiting] at refused
          cases refused
      | some id =>
        simp only [held] at refused ⊢
        split at refused
        next releasing =>
          cases refused
          rw [if_pos releasing]
          exact ⟨kept _, .operation _⟩
        next phase =>
          rw [if_neg phase]
          cases reply with
          | accepted => cases refused
          | refused message =>
            cases refused
            exact ⟨⟨b.restored, events_asking _ rfl⟩, .negotiation rfl⟩
          | crashed message =>
            cases refused
            exact ⟨⟨b.restored, events_asking _ rfl⟩, .crash rfl⟩

end Service

namespace Remote

open Service (Untouched Completed Interrupts)

variable {s : Service} {device : Scalar} {options uuid : Value} {intake : Intake} {reply : Reply}

/-- How a call is answered: that it has begun, or with a fault for its caller, which blames the arguments if and only
if they are unfit. -/
inductive Answered (unfit : Prop) : Except Fault Unit → Prop
  | begun (fit : ¬ unfit) : Answered unfit (.ok ())
  | blamed (bad : unfit) (message : String) : Answered unfit (.error (.method ⟨.invalidArguments, message⟩))
  | failed (fit : ¬ unfit) (message : String) : Answered unfit (.error (.method ⟨.failed, message⟩))

/-- The argument is given and is not sixteen bytes. -/
def BadUuid (uuid : Value) : Prop :=
  uuid ≠ .null ∧ ∀ bytes, uuid = .scalar (.bytes bytes) → bytes.length ≠ 16

theorem leaseUuid_cases (uuid : Value) :
    (BadUuid uuid ∧ leaseUuid uuid = .error ⟨.invalidArguments, "bad uuid argument"⟩) ∨
      (¬ BadUuid uuid ∧ ∃ named, leaseUuid uuid = .ok named) := by
  unfold leaseUuid
  split
  next => exact Or.inr ⟨fun bad => bad.1 rfl, none, rfl⟩
  next bytes =>
    split
    next sixteen => exact Or.inr ⟨fun bad => bad.2 bytes rfl sixteen, some bytes, rfl⟩
    next other =>
      refine Or.inl ⟨⟨nofun, fun given same => ?_⟩, rfl⟩
      cases same
      exact other
  next given other => exact Or.inl ⟨⟨given, fun bytes same => absurd same (other bytes)⟩, rfl⟩

theorem reportFault_outage {fault : ServiceFault} (steady : ∀ message, reply ≠ .crashed message)
    (outage : Service.Outage reply fault) (doing : String) :
    ∃ message, reportFault doing fault = .method ⟨.failed, message⟩ := by
  cases outage with
  | unknownDevice | operation | negotiation => exact ⟨_, rfl⟩
  | crash crashed => exact absurd crashed (steady _)

theorem acquire_answered (steady : ∀ message, reply ≠ .crashed message) :
    Answered (Request.Unfit intake options) (acquire s device options intake reply).result := by
  unfold acquire Service.acquire
  cases read : Request.ofOptions intake options with
  | error fault => exact .blamed (Request.unfit_iff.mpr ⟨fault, read⟩) _
  | ok request =>
    have fit : ¬ Request.Unfit intake options := by
      intro unfit
      obtain ⟨fault, refused⟩ := Request.unfit_iff.mp unfit
      rw [read] at refused
      cases refused
    cases s.openSession device with
    | error fault => exact .failed fit _
    | ok pair =>
      cases reply with
      | accepted => exact .begun fit
      | refused message => exact .failed fit _
      | crashed message => exact absurd rfl (steady message)

theorem drop_answered (steady : ∀ message, reply ≠ .crashed message) :
    Answered (BadUuid uuid) (drop s device uuid reply).result := by
  unfold drop
  obtain ⟨bad, read⟩ | ⟨fit, named, read⟩ := leaseUuid_cases uuid
  · rw [read]
    exact .blamed bad _
  · simp only [read, Outcome.reported]
    cases released : (s.release device named reply).result with
    | ok => exact .begun fit
    | error fault =>
      obtain ⟨message, told⟩ := reportFault_outage steady (Service.release_error released).2
        ("Unable to drop lease for interface " ++ device.display ++ ": ")
      simp only [Except.mapError, told]
      exact .failed fit message

/-- A drop that is turned down comes to nothing. -/
theorem drop_untouched {fault : Fault} (refused : (drop s device uuid reply).result = .error fault) :
    s.Untouched (drop s device uuid reply) := by
  unfold drop at refused ⊢
  obtain ⟨-, read⟩ | ⟨-, named, read⟩ := leaseUuid_cases uuid
  · rw [read]
    exact ⟨.refl s, rfl⟩
  · simp only [read, Outcome.reported] at refused ⊢
    cases released : (s.release device named reply).result with
    | ok => simp [released, Except.mapError] at refused
    | error fault =>
      obtain ⟨service, silent⟩ := (Service.release_error released).1
      exact ⟨service, silent⟩

/-- Whatever the service has come to, a remote call is answered by its arguments and by what the negotiator says. If it
is turned down, then everything stays as it was, but for a release over which the negotiator could not start: that one
is complete. -/
theorem run_calls_answered (devices : List (Scalar × Int)) (mode : Mode) (moves : List Service.Move) (device : Scalar)
    (intake : Intake) (reply : Reply) (steady : ∀ message, reply ≠ .crashed message) :
    let s := ((Service.initial devices mode).run moves).1
    (∀ options,
      let o := acquire s device options intake reply
      Answered (Request.Unfit intake options) o.result ∧ ∀ fault, o.result = .error fault →
        (¬ s.Interrupts device o → s.Untouched o) ∧ (s.Interrupts device o → ∃ t, s.Completed device t o)) ∧
    ∀ uuid,
      let o := drop s device uuid reply
      Answered (BadUuid uuid) o.result ∧ ∀ fault, o.result = .error fault → s.Untouched o := by
  intro s
  have sound : s.SessionsSound := Service.run_sessions_sound (Service.initial_sessions_sound devices mode) moves
  refine ⟨fun options => ⟨acquire_answered steady, fun fault refused => ?_⟩,
    fun uuid => ⟨drop_answered steady, fun fault refused => drop_untouched refused⟩⟩
  have turned : ∃ cause, (s.acquire device options intake reply).result = .error cause := by
    cases result : (s.acquire device options intake reply).result with
    | error cause => exact ⟨cause, rfl⟩
    | ok t => simp [acquire, Outcome.reported, result, Except.map, Except.mapError] at refused
  obtain ⟨cause, turned⟩ := turned
  refine ⟨fun calm => ?_, fun interrupts => ?_⟩
  · obtain ⟨service, silent⟩ := Service.acquire_untouched turned calm
    exact ⟨service, silent⟩
  · obtain ⟨t, ticket, service, told⟩ := Service.acquire_completed sound turned interrupts
    exact ⟨t, ticket, service, told⟩

/-- The negotiator does not start while a lease is given back; a drop by a text that is no uuid changes nothing. -/
theorem refused_start_completes_release :
    let eth0 : Scalar := .str "eth0"
    let options : Value := .map [(.str "hostname", .str "a")]
    let s := ((Service.initial [(eth0, 2)] .dhcp).run
      [.draft 0 default, .acquire eth0 options (.lenient nullUuid) .accepted,
      .completeAcquire ⟨eth0, 1, none⟩ 0 default, .release eth0 none .accepted]).1
    let o := acquire s eth0 options (.lenient nullUuid) (.refused "no carrier")
    s.Interrupts eth0 o ∧
      o.result = .error (.method ⟨.failed, "Cannot configure interface eth0: no carrier"⟩) ∧
      (∃ t, s.Completed eth0 t o) ∧ s.store.devices.map Device.leases = [[0]] ∧
      o.service.store.devices.map Device.leases = [[]] ∧
      Answered (BadUuid (.str "eth0")) (drop s eth0 (.str "eth0") (.refused "no carrier")).result := by
  intro eth0 options s o
  have steady (message : String) : Reply.refused "no carrier" ≠ .crashed message := nofun
  have calls := run_calls_answered [(eth0, 2)] .dhcp
    [.draft 0 default, .acquire eth0 options (.lenient nullUuid) .accepted,
    .completeAcquire ⟨eth0, 1, none⟩ 0 default, .release eth0 none .accepted] eth0 (.lenient nullUuid) _ steady
  let request : Request :=
    ⟨nullUuid, .ipv4, some "a", none, none, none, none, [.hostname, .resolver], [], [], none⟩
  have interrupts : s.Interrupts eth0 o := ⟨by decide +kernel, ⟨eth0, 3, some request⟩, by decide +kernel⟩
  have refused : o.result = .error (.method ⟨.failed, "Cannot configure interface eth0: no carrier"⟩) := by
    decide +kernel
  exact ⟨interrupts, refused, ((calls.1 options).2 _ refused).2 interrupts, by decide +kernel, by decide +kernel,
    (calls.2 (.str "eth0")).1⟩

end Remote

end Leasehold
