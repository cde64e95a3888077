import Leasehold.Proofs.AwaitedOutcomes
import Leasehold.Proofs.RemoteAnswers
import Leasehold.Proofs.UuidForms

/-! A uuid is the name of a lease. The lease that is acquired for a request has the request's uuid, in whatever form it
was written, and whoever gives back what was shown for a uuid drops the lease of that uuid and no other. -/

namespace Leasehold

namespace Request

variable {intake : Intake} {uuid : Bytes} {entries : Entries} {v : Value} {r : Request}

theorem field?_others {name : String} (other : name ≠ "uuid") :
    Entries.field? (entries.filter fun entry => entry.1 ≠ .str "uuid") name = Entries.field? entries name := by
  have kept (entry : Scalar × Value) :
      decide (decide (entry.1 ≠ .str "uuid") = true ∧ entry.1.isKey (.str name) = true) =
        entry.1.isKey (.str name) := by
    by_cases same : entry.1 = .str "uuid"
    · simp [same, Scalar.isKey, Scalar.key, Ne.symm other]
    · simp [same]
  simp only [Entries.field?, Entries.get?, List.find?_filter, kept]

/-- A uuid in any form stands for a fresh one, and no options are refused for it. -/
theorem ReadFrom.with_uuid
    (others : ReadFrom intake (entries.filter fun entry => entry.1 ≠ .str "uuid") r)
    (given : Entries.field? entries "uuid" = some v) (parsed : Uuid.parse v = .ok uuid) :
    ReadFrom intake entries { r with uuid := uuid } := by
  have known : ∀ entry ∈ entries, keyProblem? entry.1 = none := by
    intro entry member
    by_cases same : entry.1 = .str "uuid"
    · rw [same]
      rfl
    · exact others.known entry (List.mem_filter.mpr ⟨member, by simpa using same⟩)
  constructor
  case uuid => simp [given, readOr, readUuid, parsed]
  case known => exact known
  all_goals rw [← field?_others (by decide)]
  · exact others.family
  · exact others.hostname
  · exact others.clientId
  · exact others.vendorClass
  · exact others.leaseTime
  · exact others.acquireTimeout
  · exact others.update
  · exact others.servers
  · exact others.search
  · exact others.domain

end Request

namespace Service

variable {s : Service} {device : Scalar} {x : Session} {t : Ticket} {id : LeaseId} {r : Request}

theorem openSession_known (known : (s.store.device? device).isSome) :
    ∃ opened, s.openSession device = .ok (s.sessionOf device, opened) := by
  obtain ⟨d, found⟩ := Option.isSome_iff_exists.mp known
  unfold openSession
  simp only [Store.device, found]
  cases present : s.session? device with
  | some x => exact ⟨s, by rw [sessionOf_eq present]; rfl⟩
  | none => exact ⟨_, by simp only [sessionOf, present]; rfl⟩

/-- Only a session that is there can be anything but idle. -/
theorem session?_active (active : (s.sessionOf device).phase ≠ .idle) :
    s.session? device = some (s.sessionOf device) := by
  cases present : s.session? device with
  | some x => rw [sessionOf_eq present]
  | none => simp [sessionOf, present, Session.fresh] at active

theorem openSession_active (known : (s.store.device? device).isSome) (active : (s.sessionOf device).phase ≠ .idle) :
    s.openSession device = .ok (s.sessionOf device, s) := by
  obtain ⟨d, found⟩ := Option.isSome_iff_exists.mp known
  unfold openSession
  simp only [Store.device, found, session?_active active]
  rfl

/-- A release that is asked for in good order: it begins for the uuid of the lease, and for no other. -/
theorem release_bound (known : (s.store.device? device).isSome) (bound : (s.sessionOf device).phase = .bound)
    (held : (s.sessionOf device).lease = some id) {uuid : Bytes} (specific : uuid ≠ nullUuid) :
    s.release device (some uuid) .accepted =
      if (s.store.lease id).uuid = uuid then
        ⟨.ok (), s.setSession ((s.sessionOf device).attempt .releasing (s.returnTicket device)),
          [.release (s.returnTicket device) id]⟩
      else ⟨.error (.operation ("no active lease with uuid " ++ Hex.encode uuid)), s, []⟩ := by
  have opens := openSession_active known (by simp [bound])
  have quiet : (s.sessionOf device).inFlight? = none := by simp [Session.inFlight?, bound]
  simp only [Service.release, opens, holds, leaseUuid?, held, isSpecific, Option.any_some]
  by_cases same : (s.store.lease id).uuid = uuid
  · simp [same, startRelease, settle, quiet, bound, Outcome.reported, Session.attempt, returnTicket, Except.map,
      specific]
  · simp [same, specific]

/-- A release under way ends before the device's session begins anything else, and keeps its number. -/
theorem finishRelease_becomes {opened : Service} (b : s.Becomes device (s.sessionOf device) s.store opened) :
    ∃ before mid ended, opened.finishRelease (s.sessionOf device) device = (before, mid, ended) ∧
      before.generation = (s.sessionOf device).generation ∧ before.device = (s.sessionOf device).device ∧
      (∀ e ∈ ended, e.asked? = none) ∧ ∃ store, s.Becomes device before store mid := by
  by_cases phase : (s.sessionOf device).phase = .releasing
  · let store := opened.store.without (s.sessionOf device).device (s.sessionOf device).lease
    refine ⟨_, _, _, finishRelease_releasing opened _ device phase, rfl, rfl, abandoned_quiet _ _, store, ?_⟩
    exact b.setSession { opened with store := store } (emptied (s.sessionOf device)) rfl rfl (s.sessionOf_device device)
  · exact ⟨_, _, _, finishRelease_other opened _ device phase, rfl, rfl, by simp, s.store, b⟩

/-- An acquisition that the negotiator accepts waits for its ticket. -/
theorem acquire_starts {options : Value} {intake : Intake} (read : Request.ofOptions intake options = .ok r)
    (known : (s.store.device? device).isSome) :
    let t : Ticket := ⟨device, (s.sessionOf device).generation + 1, some r⟩
    let o := s.acquire device options intake .accepted
    o.result = .ok t ∧ (∃ quiet, o.effects = quiet ++ [.start t] ∧ ∀ e ∈ quiet, e.asked? = none) ∧
      (o.service.currentSession? t).isSome := by
  obtain ⟨opened, opens⟩ := openSession_known known
  obtain ⟨-, b⟩ := openSession_ok opens
  obtain ⟨before, mid, ended, finished, number, named, silent, store, ends⟩ := finishRelease_becomes b
  simp only [Service.acquire, read, opens, finished, settle, number]
  refine ⟨trivial, ⟨_, rfl, ?_⟩, ?_⟩
  · exact List.forall_mem_append.mpr ⟨silent, Static.replaced_quiet before⟩
  · have begun := ends.setSession mid
      { before with phase := .acquiring, generation := (s.sessionOf device).generation + 1,
                    ticket := some ⟨device, (s.sessionOf device).generation + 1, some r⟩ }
      rfl rfl (named ▸ s.sessionOf_device device)
    simp [currentSession?, begun.here device rfl, Session.isCurrent, Option.filter]

/-- The lease that is handed over for a request gets its uuid. -/
theorem completeAcquire_binds (found : s.currentSession? t = some x) (asked : t.request = some r)
    (made : id < s.store.table.length) (now : Moment) :
    let s' := (s.completeAcquire t id now).1
    (s'.sessionOf t.device).phase = .bound ∧ s'.leaseUuid? (s'.sessionOf t.device) = some r.uuid := by
  obtain ⟨present, -⟩ := currentSession?_some found
  have named : x.device.key = t.device.key := session?_device present
  have b := (Becomes.of_session? present).setSession { s with store := s.storeObtained t x.lease id now }
    { x with phase := .bound, ticket := none, lease := some id } rfl rfl named
  simp only [completeAcquire_current t id now found]
  rw [b.sessionOf_here rfl]
  refine ⟨rfl, ?_⟩
  rw [leaseUuid?, b.store]
  simp [storeObtained_lease, made, stamp, asked]

theorem run_length (s : Service) (moves : List Move) : s.store.table.length ≤ (s.run moves).1.store.table.length := by
  induction moves generalizing s with
  | nil => exact Nat.le_refl _
  | cons m rest ih => exact Nat.le_trans (s.step_length m) (ih _)

end Service

namespace Host

variable {h h' : Host} {device : Scalar} {id : LeaseId} {uuid : Bytes} {r : Request}

/-- The device gives its lease back: its session has begun to, and the outcome waits in line. -/
structure Releases (h : Host) (device : Scalar) (h' : Host) : Prop where
  store : h'.store = h.store
  session : h'.service.sessionOf device =
    (h.service.sessionOf device).attempt .releasing (h.service.returnTicket device)
  elsewhere : ∀ other : Scalar, other.key ≠ device.key → h'.service.session? other = h.service.session? other
  line : h'.callbacks = h.callbacks ++ [.returned (h.service.returnTicket device)]

/-- A request is in flight, and its lease waits in line to be handed over. -/
structure Obtains (h : Host) (device : Scalar) (r : Request) (t : Ticket) (id : LeaseId) (h' : Host) : Prop where
  device : t.device = device
  request : t.request = some r
  line : h'.callbacks = h.callbacks ++ [.obtained t id]
  made : id < h'.store.table.length
  current : (h'.service.currentSession? t).isSome

theorem after_rest {ε α : Type} {o : Outcome ε α} {service : Service} {line : List Callback}
    (advanced : h.negotiator.advance o h.callbacks = (service, line)) :
    (h.after o).service = service ∧ (h.after o).callbacks = line := by
  simp only [Host.after, advanced]
  obtain ⟨same, callbacks, -⟩ := told_rest { h with callbacks := line } service o.effects
  exact ⟨same, callbacks⟩

theorem acquire_obtains (static : h.negotiator = .static true) {options : Value} {intake : Intake}
    (read : Request.ofOptions intake options = .ok r) (known : (h.store.device? device).isSome) :
    (h.acquire device options intake).1 = .ok () ∧
      ∃ t id, h.Obtains device r t id (h.acquire device options intake).2 := by
  let t : Ticket := ⟨device, (h.service.sessionOf device).generation + 1, some r⟩
  let o := Remote.acquire h.service device options intake .accepted
  obtain ⟨ok, ⟨quiet, asked, silent⟩, current⟩ := Service.acquire_starts read known
  have same : h.acquire device options intake = (o.result, h.after o) := by
    rw [Host.acquire, static]
    rfl
  have advanced : h.negotiator.advance o h.callbacks =
      ({ o.service with store := (o.service.store.makeLease (Static.lease r)).2 },
        h.callbacks ++ [.obtained t o.service.store.table.length]) := by
    have asked : o.effects = quiet ++ [.start t] := asked
    simp only [static, Negotiator.advance, Static.advance, if_true, asked, List.foldl_append,
      Static.follow_quiet quiet silent]
    rfl
  obtain ⟨service, callbacks⟩ := after_rest advanced
  have result : o.result = .ok () := by simp only [o, Remote.acquire, Outcome.reported, ok]; rfl
  rw [same]
  refine ⟨result, t, o.service.store.table.length, rfl, rfl, callbacks, ?_, ?_⟩
  · rw [Host.store, service]
    simp [Store.makeLease]
  · rw [service]
    exact current

/-- A drop by uuid while the device is bound: its lease is given back, or the call fails and nothing is different. -/
theorem drop_bound (static : h.negotiator = .static true) (known : (h.store.device? device).isSome)
    (bound : (h.service.sessionOf device).phase = .bound) (held : (h.service.sessionOf device).lease = some id)
    (specific : uuid ≠ nullUuid) {argument : Value} (named : Remote.leaseUuid argument = .ok (some uuid)) :
    ((h.store.lease id).uuid = uuid →
      (h.drop device argument).1 = .ok () ∧ h.Releases device (h.drop device argument).2) ∧
    ((h.store.lease id).uuid ≠ uuid → h.drop device argument =
      (.error (.method ⟨.failed, "Unable to drop lease for interface " ++ device.display ++
        ": no active lease with uuid " ++ Hex.encode uuid⟩), h)) := by
  have release := Service.release_bound known bound held specific
  have reply : h.negotiator.release = .accepted := static ▸ rfl
  simp only [Host.drop, Remote.drop, named, reply, release]
  constructor
  · intro same
    have same : (h.service.store.lease id).uuid = uuid := same
    simp only [if_pos same, Outcome.reported, Except.mapError, true_and]
    have begun := (Service.Becomes.of_session? (Service.session?_active (by simp [bound]))).setSession h.service
      ((h.service.sessionOf device).attempt .releasing (h.service.returnTicket device)) rfl rfl
      (h.service.sessionOf_device device)
    have advanced (o : Outcome Remote.Fault Unit)
        (asked : o.effects = [.release (h.service.returnTicket device) id]) : h.negotiator.advance o h.callbacks =
          (o.service, h.callbacks ++ [.returned (h.service.returnTicket device)]) := by
      simp only [static, Negotiator.advance, Static.advance, if_true, asked]
      rfl
    obtain ⟨service, callbacks⟩ := after_rest (advanced ⟨.ok (), _, _⟩ rfl)
    refine ⟨?_, ?_, ?_, callbacks⟩
    · rw [Host.store, service]
      exact begun.store
    · rw [service]
      exact begun.sessionOf_here rfl
    · intro other different
      rw [service]
      exact begun.elsewhere other different
  · intro other
    have other : ¬ (h.service.store.lease id).uuid = uuid := other
    simp only [if_neg other, Outcome.reported]
    rw [after_silent h (by simp), advance_unheard _ _ _ (Or.inl rfl)]
    have text : ": " ++ "no active lease with uuid " = ": no active lease with uuid " := by decide
    simp only [Except.mapError, Remote.reportFault, ServiceFault.message, String.append_assoc, ← text]

/-- What else is done to the bus is no matter. -/
theorem Releases.aside {heard : Bus} (releases : ({ h with bus := heard } : Host).Releases device h') {after : Host}
    (aside : ∃ bus mail, after = { h' with bus := bus, mail := mail }) : h.Releases device after := by
  obtain ⟨bus, mail, rfl⟩ := aside
  exact ⟨releases.store, releases.session, releases.elsewhere, releases.line⟩

theorem Obtains.aside {t : Ticket} {heard : Bus} (obtains : ({ h with bus := heard } : Host).Obtains device r t id h')
    {after : Host} (aside : ∃ bus mail, after = { h' with bus := bus, mail := mail }) :
    h.Obtains device r t id after := by
  obtain ⟨bus, mail, rfl⟩ := aside
  exact ⟨obtains.device, obtains.request, obtains.line, obtains.made, obtains.current⟩

/-- The lease that waits in line has its request's uuid once it is handed over, whatever happened before. -/
theorem Obtains.binds {t : Ticket} (obtains : h.Obtains device r t id h') (moves : List Service.Move) {x : Session}
    (waiting : (h'.service.run moves).1.currentSession? t = some x) (now : Moment) :
    let after := (Static.report (h'.service.run moves).1 now (.obtained t id)).1
    (after.sessionOf device).phase = .bound ∧ after.leaseUuid? (after.sessionOf device) = some r.uuid := by
  have made : id < (h'.service.run moves).1.store.table.length :=
    Nat.lt_of_lt_of_le obtains.made (h'.service.run_length moves)
  have binds := Service.completeAcquire_binds waiting obtains.request made now
  rw [obtains.device] at binds
  exact binds

end Host

namespace Tools

open Host (Releases Obtains)

variable {h : Host} {arguments : Entries} {shown : Value} {device : Scalar}

theorem deviceOf_known (known : deviceOf h arguments = .ok (shown, device)) : (h.store.device? device).isSome := by
  obtain ⟨given, -, known⟩ := Reading.bind_ok known
  obtain ⟨found, named, same⟩ := Reading.bind_ok known
  cases same
  unfold deviceName at named
  split at named
  · split at named
    next there =>
      cases named
      exact (Bool.and_eq_true_iff.mp there).1
    next => cases named
  · cases named

/-- An errand that succeeds, with the call on the bus or not, leaves its mark on the host. -/
theorem run_leaves {p : Host → Prop} {w : Waiting} {errand : Host → Except Fault Unit × Host}
    {started : Host → List (String × Value)}
    (succeeds : ∀ bus, (errand { h with bus := bus }).1 = .ok () ∧
      ∀ after, (∃ bus' mail, after = { (errand { h with bus := bus }).2 with bus := bus', mail := mail }) → p after) :
    p (run h arguments w device errand started).1 := by
  unfold run
  split
  · unfold Waiting.start
    obtain ⟨ok, leaves⟩ := succeeds (h.bus.subscribe w.name 1 (deviceFilter device))
    generalize errand { h with bus := h.bus.subscribe w.name 1 (deviceFilter device) } = result at ok leaves ⊢
    obtain ⟨outcome, next⟩ := result
    cases ok
    exact leaves _ (Waiting.wait_aside w next)
  · obtain ⟨ok, leaves⟩ := succeeds h.bus
    have leaves := leaves (errand h).2 ⟨_, _, rfl⟩
    have ok : (errand h).1 = .ok () := ok
    generalize errand h = result at ok leaves ⊢
    obtain ⟨outcome, next⟩ := result
    cases ok
    exact leaves

theorem acquire_obtains (name : String) (static : h.negotiator = .static true)
    (known : deviceOf h arguments = .ok (shown, device)) {intake : Intake} {r : Request}
    (read : Request.ofOptions intake (given arguments "options" .null) = .ok r) :
    ∃ t id, h.Obtains device r t id (acquire h name intake arguments).1 := by
  simp only [acquire, known]
  refine run_leaves (p := fun next => ∃ t id, h.Obtains device r t id next) fun bus => ?_
  obtain ⟨ok, t, id, obtains⟩ :=
    Host.acquire_obtains (h := { h with bus := bus }) static read (deviceOf_known known)
  exact ⟨by simp only [ok]; rfl, fun after aside => ⟨t, id, obtains.aside aside⟩⟩

theorem drop_releases (name : String) (known : deviceOf h arguments = .ok (shown, device))
    (begins : ∀ bus, (({ h with bus := bus } : Host).drop device (Uuid.ofArgument (given arguments "uuid" .null))).1 =
      .ok () ∧ ({ h with bus := bus } : Host).Releases device
        (({ h with bus := bus } : Host).drop device (Uuid.ofArgument (given arguments "uuid" .null))).2) :
    h.Releases device (drop h name arguments).1 := by
  simp only [drop, known]
  refine run_leaves fun bus => ?_
  obtain ⟨ok, releases⟩ := begins bus
  exact ⟨by simp only [ok]; rfl, fun after aside => releases.aside aside⟩

namespace Server

variable {s : Server} {timeout : Binary64}

theorem static_kept (name : String) : Host.Lasts (fun h => h.negotiator = .static true) name where
  beside static same := same.negotiator.trans static
  look static _ := static
  acquire static _ _ _ := (Host.told_rest _ _ _).2.2.trans static
  drop static _ _ := (Host.told_rest _ _ _).2.2.trans static
  subscribe static _ _ := static
  await static _ _ := static
  leave static _ := static

theorem static_between : Host.LastsBetween fun h => h.negotiator = .static true where
  beside static same := same.negotiator.trans static
  leave static _ := static
  reported static _ _ _ _ _ := (Host.told_rest _ _ _).2.2.trans static

/-- The negotiator of a server's host is the one that it was made with. -/
theorem step_static (static : s.Holds fun h => h.negotiator = .static true) (m : Move) :
    (s.step m).Holds fun h => h.negotiator = .static true := by
  by_cases serving : ∃ m' wired, m = .happen (.serve m') wired
  · obtain ⟨m', wired, rfl⟩ := serving
    intro h timeout standing
    obtain ⟨⟨before, limit⟩, opened, moved⟩ := Option.map_eq_some_iff.mp standing
    cases moved
    exact (Host.told_rest _ _ _).2.2.trans (static before limit opened)
  · have alone : s.Alone m := by
      unfold Alone
      split
      next m' wired => exact absurd ⟨m', wired, rfl⟩ serving
      next => trivial
    refine step_holds static_between alone ?_ static
    rintro intake inquiry rfl
    exact take_holds (fun made => (Host.Tended.ofInventory made).negotiator) (static_kept _) static intake inquiry

theorem run_static (static : s.Holds fun h => h.negotiator = .static true) (moves : List Move) :
    (s.run moves).Holds fun h => h.negotiator = .static true := by
  induction moves generalizing s with
  | nil => exact static
  | cons m rest ih => exact ih (step_static static m)

/-- Leases by their uuids, in any state that a server can come to. A request is accepted whatever value a uuid is read
from, if the rest of it can be read, and the lease that is handed over for it has that uuid. While a device has a lease
and nothing is under way, a drop that gives a uuid in any form begins to give that lease back if it has this uuid; and
if not, the drop fails, and nothing on the host is different afterwards but for the number that a call's subscription
used up. A request reads every form, and what is shown of a lease is a form of its uuid. -/
theorem leases_by_uuid (now : Moment) (document : Except Yaml.Fault Value) (path : String)
    (process : Kind → Role → Except SystemFault Child) (moves : List Move) {h : Host}
    (found : ((initial now document path process).run moves).host = .ok (h, timeout)) :
    let s := (initial now document path process).run moves
    (∀ intake arguments shown device entries uuid v r, deviceOf h arguments = .ok (shown, device) →
      given arguments "options" .null = .map entries → Entries.field? entries "uuid" = some v →
      Uuid.parse v = .ok uuid →
      Request.ofEntries intake (entries.filter fun entry => entry.1 ≠ .str "uuid") = .ok r →
      ∃ h' t id, (s.call intake "acquire" arguments).opened = some (h', timeout) ∧
        h.Obtains device { r with uuid := uuid } t id h' ∧
        ∀ moves x now, (h'.service.run moves).1.currentSession? t = some x →
          let after := (Static.report (h'.service.run moves).1 now (.obtained t id)).1
          (after.sessionOf device).phase = .bound ∧ after.leaseUuid? (after.sessionOf device) = some uuid) ∧
    (∀ intake arguments shown device id uuid, deviceOf h arguments = .ok (shown, device) →
      (h.service.sessionOf device).phase = .bound → (h.service.sessionOf device).lease = some id →
      uuid.length = 16 → uuid ≠ nullUuid → Uuid.Form uuid (given arguments "uuid" .null) →
      ((h.store.lease id).uuid = uuid →
        ∃ h', (s.call intake "drop" arguments).opened = some (h', timeout) ∧ h.Releases device h') ∧
      ((h.store.lease id).uuid ≠ uuid →
        ∃ bus, (bus = h.bus ∨ bus = h.bus.spent (callName s.made)) ∧ s.call intake "drop" arguments =
          { s with
            opened := some ({ h with bus := bus }, timeout)
            made := s.made + 1
            calls := s.calls ++ [⟨given arguments "device" (.str "N/A"), .answered (.document (.object [("error",
              .object [("domain", .str "org.freedesktop.DBus.Error.Failed"),
                ("message", .str ("Unable to drop lease for interface " ++ device.display ++
                  ": no active lease with uuid " ++ Hex.encode uuid))])]))⟩] })) ∧
    (∀ uuid v, uuid.length = 16 → Uuid.Form uuid v → Uuid.parse v = .ok uuid) ∧
    ∀ lease : Lease, ∃ v, lease.shownUuid? = some v ∧ Uuid.Form lease.uuid v := by
  intro s
  have static : h.negotiator = .static true :=
    (run_static (.of_initial now document path process _) moves).host
      (fun made => (Host.Tended.ofInventory made).negotiator) found
  have wired : s.Wired := (initial_wired now document path process).run moves
  refine ⟨?_, ?_, fun uuid v sixteen form => form.parse sixteen, Lease.shownUuid?_form⟩
  · intro intake arguments shown device entries uuid v r known options written parsed others
    have read : Request.ofOptions intake (given arguments "options" .null) = .ok { r with uuid := uuid } := by
      rw [options]
      refine ((Request.ofEntries_readFrom others).with_uuid written parsed).ofOptions ?_
      rintro rfl
      cases written
    obtain ⟨t, id, obtains⟩ := Tools.acquire_obtains (callName s.made) static known read
    refine ⟨_, t, id, ?_, obtains, fun moves x now waiting => obtains.binds moves waiting now⟩
    rw [call_acquire found]
  · intro intake arguments shown device id uuid known bound held sixteen specific form
    have named : Remote.leaseUuid (Uuid.ofArgument (given arguments "uuid" .null)) = .ok (some uuid) :=
      (form.spells sixteen).taken
    have drops (bus : Bus) := Host.drop_bound (h := { h with bus := bus }) static (deviceOf_known known) bound held
      specific named
    refine ⟨fun same => ⟨_, ?_, drop_releases (callName s.made) known fun bus => (drops bus).1 same⟩,
      fun other => ?_⟩
    · rw [call_drop found]
    · obtain ⟨bus, spent, failed⟩ := drop_fails (wired.fresh found) known fun bus => (drops bus).2 other
      refine ⟨bus, spent, ?_⟩
      rw [call_drop found, failed]
      rfl

/-- A lease is acquired by a uuid with hyphens and capitals, and dropped by the text that is shown of it. -/
theorem shown_uuid_drops :
    let eth0 : Scalar := .str "eth0"
    let document : Value := .map [(.str "devices", .map [(eth0, .map [])])]
    let options : Entries := [(.str "uuid", .str "ABABABAB-ABAB-ABAB-ABAB-ABABABABABAB")]
    let asked : Entries := [(.str "device", .scalar eth0), (.str "options", .map options)]
    let dropping (uuid : Value) : Entries := [(.str "device", .scalar eth0), (.str "uuid", uuid)]
    let s₀ := (initial default (.ok document) "" fun _ _ => .ok .quiet).run []
    let s := (initial default (.ok document) "" fun _ _ => .ok .quiet).run
      [.take default (.call "acquire" asked), .rest]
    (∃ h timeout h' t id r, s₀.host = .ok (h, timeout) ∧ (s₀.call default "acquire" asked).opened = some (h', timeout) ∧
      r.uuid = List.replicate 16 0xab ∧ h.Obtains eth0 r t id h') ∧
    ∃ h timeout, s.host = .ok (h, timeout) ∧
      (∃ h', (s.call default "drop" (dropping (.str "abababababababababababababababab"))).opened = some (h', timeout) ∧
        h.Releases eth0 h') ∧
      ∃ bus, (s.call default "drop" (dropping (.scalar (.bytes (List.replicate 16 1))))).opened =
        some ({ h with bus := bus }, timeout) := by
  intro eth0 document options asked dropping s₀ s
  have known {h : Host} (there : (h.store.device? eth0).isSome) (arguments : Entries)
      (given : Entries.field? arguments "device" = some (.scalar eth0)) :
      deviceOf h arguments = .ok (.scalar eth0, eth0) := by
    simp only [deviceOf, needed, given]
    change (deviceName h.store (.scalar eth0) >>= _) = _
    simp only [deviceName, there]
    rfl
  have upper : Uuid.Form (List.replicate 16 0xab) (.str "ABABABAB-ABAB-ABAB-ABAB-ABABABABABAB") :=
    have digits : Hex.Digits "ABABABABABABABABABABABABABABABAB".toList (List.replicate 16 0xab) := by decide
    .hyphenated digits (by decide)
  have lower : Uuid.Form (List.replicate 16 0xab) (.str "abababababababababababababababab") :=
    .digits (Hex.encode_digits (List.replicate 16 0xab))
  constructor
  · have opens : (s₀.host.toOption.map fun opened => (opened.1.store.device? eth0).isSome) = some true := by
      decide +kernel
    obtain ⟨⟨h, timeout⟩, host, there⟩ := Option.map_eq_some_iff.mp opens
    have found := Reading.ok_of_toOption host
    obtain ⟨h', t, id, called, obtains, -⟩ := (leases_by_uuid _ _ _ _ [] found).1 default asked _ _ options _ _ _
      (known there _ rfl) rfl rfl (upper.parse rfl) rfl
    exact ⟨h, timeout, h', t, id, _, found, called, rfl, obtains⟩
  · have stands : (s.host.toOption.map fun opened => ((opened.1.store.device? eth0).isSome,
        (opened.1.service.sessionOf eth0).phase, (opened.1.service.sessionOf eth0).lease,
        (opened.1.store.lease 0).uuid)) = some (true, .bound, some 0, List.replicate 16 0xab) := by decide +kernel
    obtain ⟨⟨h, timeout⟩, host, facts⟩ := Option.map_eq_some_iff.mp stands
    have found := Reading.ok_of_toOption host
    simp only [Prod.mk.injEq] at facts
    obtain ⟨there, bound, held, uuid⟩ := facts
    have drops := (leases_by_uuid _ _ _ _ _ found).2.1 default
    obtain ⟨bus, -, failed⟩ := (drops (dropping (.scalar (.bytes (List.replicate 16 1)))) _ _ 0 _ (known there _ rfl)
      bound held rfl (by decide) .bytes).2 (by rw [uuid]; decide)
    exact ⟨h, timeout, found, (drops (dropping _) _ _ 0 _ (known there _ rfl) bound held rfl (by decide) lower).1 uuid,
      bus, congrArg Server.opened failed⟩

end Server

end Tools

end Leasehold
