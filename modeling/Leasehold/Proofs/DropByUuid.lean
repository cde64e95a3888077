import Leasehold.Proofs.ServerRuns
import Leasehold.Proofs.StaticAssignment
import Leasehold.Proofs.UuidArguments

/-! Dropping by uuid. A drop that names a lease begins to give back that lease or does nothing, and its ticket stands
for no other lease as long as it is waited for. An argument that names none is refused before the service is asked;
only a text that passes for sixteen bytes is not. -/

namespace Leasehold

/-- The bus after a subscription that has ended again: all that it left is that a number is gone. -/
def Bus.spent (b : Bus) (name : String) : Bus :=
  { b with newest := (name, b.issued) :: b.newest, issued := b.issued + 1 }

/-- A session gives a lease back for a ticket, or is done with that ticket. -/
inductive Session.Returning (x : Session) (t : Ticket) (id : LeaseId) : Prop
  | ongoing (phase : x.phase = .releasing) (lease : x.lease = some id) (generation : t.generation = x.generation)
  | ended (past : x.Past t)

namespace Service

variable {s s' : Service} {m : Move} {name : Scalar} {x next : Session} {store : Store} {es : List Effect}
  {t : Ticket} {id : LeaseId}

theorem Turn.returning (turn : s.Turn m name x next store es) (returning : x.Returning t id) :
    next.Returning t id := by
  cases returning with
  | ended past => exact .ended (turn.ticketing.1.past past)
  | ongoing phase lease generation =>
    have reached : t.generation ≤ x.generation := Nat.le_of_eq generation
    -- A session that gives back its lease begins nothing else: it stays as it is, or the ticket is done with.
    cases turn with
    | kept | refused => exact .ongoing phase lease generation
    | finished | returned | failed | obtained => exact .ended ⟨reached, by simp [emptied]⟩
    | expired => exact .ended ⟨Nat.le_succ_of_le reached, by simp [emptied]⟩
    | started request reply other => exact absurd phase other
    | releasing id held reply other => exact absurd phase other
    | cancelled u empty waiting =>
      rw [lease] at empty
      cases empty
    | outlived id held u waiting =>
      have acquiring := (Session.inFlight?_some waiting).1
      rw [phase] at acquiring
      cases acquiring

theorem Turned.returning (turned : s.Turned m name es s') {device : Scalar}
    (returning : (s.sessionOf device).Returning t id) : (s'.sessionOf device).Returning t id := by
  obtain ⟨next, store, turn, b⟩ := turned
  by_cases same : device.key = name.key
  · rw [s.sessionOf_congr same] at returning
    rw [b.sessionOf_here same]
    apply turn.returning
    cases returning with
    | ongoing phase lease generation => exact .ongoing phase lease generation
    | ended past => exact .ended ⟨past.reached, past.waiting⟩
  · rw [b.sessionOf_elsewhere same]
    exact returning

theorem run_returning (s : Service) (moves : List Move) {device : Scalar}
    (returning : (s.sessionOf device).Returning t id) : ((s.run moves).1.sessionOf device).Returning t id := by
  induction moves generalizing s with
  | nil => exact returning
  | cons m rest ih =>
    apply ih
    have moved := s.step_moved m
    generalize (s.step m).1 = s', (s.step m).2 = es at moved ⊢
    cases moved with
    | still => exact returning
    | drafted id lease same => exact returning
    | turn name turned => exact turned.returning returning
    | turns name free phase ended last =>
      have first := Moved.first_turn s m phase ended
      exact last.returning (first.returning returning)

theorem lease_of_current (returning : (s.sessionOf t.device).Returning t id)
    (found : s.currentSession? t = some x) : x.lease = some id := by
  obtain ⟨present, current⟩ := currentSession?_some found
  rw [sessionOf_eq present] at returning
  cases returning with
  | ongoing phase lease generation => exact lease
  | ended past =>
    rw [past.not_current] at current
    cases current

def returnTicket (s : Service) (device : Scalar) : Ticket := ⟨device, (s.sessionOf device).generation + 1, none⟩

/-- What may come of a release that asks for one lease: its device holds another one or none, the release is turned
down for another reason, or it begins. -/
inductive Aimed (s : Service) (device : Scalar) (uuid : Bytes) (reply : Reply) : Outcome ServiceFault Unit → Prop
  | missed {service : Service} (other : s.leaseUuid? (s.sessionOf device) ≠ some uuid)
      (same : s.Becomes device (s.sessionOf device) s.store service) :
      Aimed s device uuid reply
        ⟨.error (.operation ("no active lease with uuid " ++ Hex.encode uuid)), service, []⟩
  | refused {fault : ServiceFault} {service : Service} {es : List Effect}
      (same : service = s ∨ s.Becomes device (s.sessionOf device) s.store service)
      (unheard : es = [] ∨ reply ≠ .accepted) (silent : ∀ e, Effect.publish e ∉ es) :
      Aimed s device uuid reply ⟨.error fault, service, es⟩
  | begun {service : Service} (id : LeaseId) (held : (s.sessionOf device).lease = some id)
      (named : (s.store.lease id).uuid = uuid) (accepted : reply = .accepted)
      (begins : s.Becomes device ((s.sessionOf device).attempt .releasing (s.returnTicket device)) s.store service) :
      Aimed s device uuid reply
        ⟨.ok (), service, (s.sessionOf device).replaced ++ [.release (s.returnTicket device) id]⟩

theorem release_aimed (s : Service) (device : Scalar) {uuid : Bytes} (specific : uuid ≠ nullUuid) (reply : Reply) :
    s.Aimed device uuid reply (s.release device (some uuid) reply) := by
  unfold Service.release
  cases opens : s.openSession device with
  | error fault => exact .refused (Or.inl rfl) (Or.inl rfl) (by simp)
  | ok pair =>
    obtain ⟨x, opened⟩ := pair
    obtain ⟨rfl, b⟩ := openSession_ok opens
    have asked : opened.leaseUuid? (s.sessionOf device) = s.leaseUuid? (s.sessionOf device) := by
      simp only [leaseUuid?, b.store]
    simp only [holds, asked]
    split
    next other => exact .missed (by simpa [isSpecific, specific] using other) b
    next fits =>
      have found : s.leaseUuid? (s.sessionOf device) = some uuid := by simpa [isSpecific, specific] using fits
      obtain ⟨id, held, named⟩ := Option.map_eq_some_iff.mp found
      simp only [held]
      split
      · exact .refused (Or.inr b) (Or.inl rfl) (by simp)
      have silent (e : Event) :
          Effect.publish e ∉ (s.sessionOf device).replaced ++ [.release (s.returnTicket device) id] := by
        simp [Session.replaced]
      -- Whatever is put into force or put back afterwards has the name of the session's device.
      have placed (y : Session) (same : y.device = (s.sessionOf device).device) :
          s.Becomes device y s.store (opened.setSession y) :=
        b.store ▸ b.setSession opened y rfl rfl (same ▸ s.sessionOf_device device)
      cases reply with
      | accepted => exact .begun id held named rfl (placed _ rfl)
      | refused message => exact .refused (Or.inr (placed _ rfl)) (Or.inr (by simp)) silent
      | crashed message => exact .refused (Or.inr (placed _ rfl)) (Or.inr (by simp)) silent

end Service

namespace Host

variable {h h' after : Host} {device : Scalar} {uuid : Bytes}

/-- The release of a lease has begun, and its ticket will never stand for another lease. -/
structure GivesBack (h h' : Host) (device : Scalar) (id : LeaseId) : Prop where
  held : (h.service.sessionOf device).lease = some id
  session : h'.service.sessionOf device =
    (h.service.sessionOf device).attempt .releasing (h.service.returnTicket device)
  line : h'.callbacks = h.callbacks ∨ h'.callbacks = h.callbacks ++ [.returned (h.service.returnTicket device)]
  later : ∀ moves x, (h'.service.run moves).1.currentSession? (h.service.returnTicket device) = some x →
    x.lease = some id

/-- Nothing but the lease of a uuid may be affected: either its release has begun, or no session is another one than
before. Whatever else there is on the host stays, but for the bus and the mail from it. -/
structure Narrow (h : Host) (device : Scalar) (uuid : Bytes) (h' : Host) : Prop where
  store : h'.store = h.store
  elsewhere : ∀ other : Scalar, other.key ≠ device.key → h'.service.session? other = h.service.session? other
  here : (h'.service.sessionOf device = h.service.sessionOf device ∧ h'.callbacks = h.callbacks) ∨
    ∃ id, (h.store.lease id).uuid = uuid ∧ h.GivesBack h' device id
  rest : ∃ bus mail, h' = { h with service := h'.service, callbacks := h'.callbacks, bus := bus, mail := mail }

theorem events_nil {es : List Effect} (silent : ∀ e, Effect.publish e ∉ es) : events es = [] := by
  apply List.filterMap_eq_nil_iff.mpr
  intro effect member
  cases effect with
  | publish e => exact absurd member (silent e)
  | start | release | cancel => rfl

theorem after_silent {ε α : Type} (h : Host) {o : Outcome ε α} (silent : ∀ e, Effect.publish e ∉ o.effects) :
    h.after o = { h with
      service := (h.negotiator.advance o h.callbacks).1
      callbacks := (h.negotiator.advance o h.callbacks).2 } := by
  simp only [after, told, events_nil silent, List.foldl_nil]

theorem advance_unheard {ε α : Type} (n : Negotiator) (o : Outcome ε α) (line : List Callback)
    (unheard : o.effects = [] ∨ n.release ≠ .accepted) : n.advance o line = (o.service, line) := by
  cases n with
  | other start release => rfl
  | static running =>
    cases running with
    | false => rfl
    | true =>
      rcases unheard with empty | refused
      · simp [Negotiator.advance, Static.advance, empty]
      · exact absurd rfl refused

theorem advance_release {ε α : Type} (n : Negotiator) {o : Outcome ε α} {x : Session} {t : Ticket} {id : LeaseId}
    (line : List Callback) (asked : o.effects = x.replaced ++ [.release t id]) (accepted : n.release = .accepted) :
    n.advance o line = (o.service, line) ∨ n.advance o line = (o.service, line ++ [.returned t]) := by
  cases n with
  | other start release => exact Or.inl rfl
  | static running =>
    cases running with
    | false => cases accepted
    | true =>
      right
      simp only [Negotiator.advance, Static.advance, if_true, asked, List.foldl_append,
        Static.follow_quiet _ (Static.replaced_quiet x)]
      rfl

theorem drop_rejected {argument : Value} {fault : Remote.MethodFault}
    (rejected : Remote.leaseUuid argument = .error fault) (h : Host) (device : Scalar) :
    h.drop device argument = (.error (.method fault), h) := by
  unfold Host.drop Remote.drop
  rw [rejected]
  simp only
  rw [after_silent h (by simp), advance_unheard _ _ _ (Or.inl rfl)]

theorem Narrow.of_same {service : Service} (uuid : Bytes)
    (same : service = h.service ∨ h.service.Becomes device (h.service.sessionOf device) h.service.store service) :
    h.Narrow device uuid { h with service := service } := by
  obtain rfl | same := same
  · exact ⟨rfl, fun _ _ => rfl, Or.inl ⟨rfl, rfl⟩, h.bus, h.mail, rfl⟩
  · exact ⟨same.store, fun other => same.elsewhere other, Or.inl ⟨same.sessionOf_here rfl, rfl⟩, h.bus, h.mail, rfl⟩

theorem Narrow.of_begun {service : Service} {advanced : Service × List Callback} {id : LeaseId}
    (held : (h.service.sessionOf device).lease = some id) (named : (h.store.lease id).uuid = uuid)
    (begins : h.service.Becomes device ((h.service.sessionOf device).attempt .releasing (h.service.returnTicket device))
      h.service.store service)
    (asked : advanced = (service, h.callbacks) ∨
      advanced = (service, h.callbacks ++ [.returned (h.service.returnTicket device)])) :
    h.Narrow device uuid { h with service := advanced.1, callbacks := advanced.2 } := by
  have same : advanced.1 = service := by rcases asked with rfl | rfl <;> rfl
  have line : advanced.2 = h.callbacks ∨ advanced.2 = h.callbacks ++ [.returned (h.service.returnTicket device)] :=
    asked.imp (congrArg Prod.snd) (congrArg Prod.snd)
  have session := begins.sessionOf_here rfl
  rw [same]
  refine ⟨begins.store, fun other => begins.elsewhere other, Or.inr ⟨id, named, held, session, line, ?_⟩,
    h.bus, h.mail, rfl⟩
  intro moves x found
  apply Service.lease_of_current (service.run_returning moves _) found
  change (service.sessionOf device).Returning _ id
  rw [session]
  exact .ongoing rfl held rfl

theorem drop_narrow {argument : Value} (named : Remote.leaseUuid argument = .ok (some uuid))
    (specific : uuid ≠ nullUuid) (h : Host) (device : Scalar) : h.Narrow device uuid (h.drop device argument).2 := by
  have aimed := h.service.release_aimed device specific h.negotiator.release
  unfold Host.drop Remote.drop
  rw [named]
  simp only
  generalize h.service.release device (some uuid) h.negotiator.release = o at aimed ⊢
  cases aimed with
  | missed other same =>
    rw [after_silent h (by simp [Outcome.reported]), advance_unheard _ _ _ (Or.inl rfl)]
    exact .of_same uuid (Or.inr same)
  | refused same unheard silent =>
    rw [after_silent h silent, advance_unheard _ _ _ unheard]
    exact .of_same uuid same
  | begun id held holds accepted begins =>
    rw [after_silent h (by simp [Outcome.reported, Session.replaced])]
    exact .of_begun held holds begins (advance_release h.negotiator h.callbacks rfl accepted)

/-- Who listens to the bus meanwhile is no matter. -/
theorem Narrow.aside {heard : Bus} (narrow : ({ h with bus := heard } : Host).Narrow device uuid h')
    (aside : ∃ bus mail, after = { h' with bus := bus, mail := mail }) : h.Narrow device uuid after := by
  obtain ⟨bus, mail, rfl⟩ := aside
  obtain ⟨_, _, same⟩ := narrow.rest
  refine ⟨narrow.store, narrow.elsewhere, ?_, bus, mail, ?_⟩
  · obtain kept | ⟨id, named, back⟩ := narrow.here
    · exact Or.inl kept
    · exact Or.inr ⟨id, named, back.held, back.session, back.line, back.later⟩
  · rw [same]

end Host

namespace Tools

open Host (Named Narrow)

variable {h : Host} {arguments : Entries} {shown : Value} {device : Scalar}

namespace Waiting

theorem leave_subscribed (w : Waiting) (fresh : h.Named (· ≠ w.name)) (observer : Nat) (wanted : Option Scalar) :
    w.leave { h with bus := h.bus.subscribe w.name observer wanted } =
      { h with bus := h.bus.spent w.name } := by
  -- Number and name are new, so nobody else's subscription, waiter or mail goes with the call.
  have subscriptions : (h.bus.subscriptions ++ [(⟨h.bus.issued, w.name, observer, wanted⟩ : Subscription)]).filter
      (fun s => s.id ≠ h.bus.issued) = h.bus.subscriptions := by
    rw [List.filter_append, List.filter_eq_self.mpr]
    · simp
    · intro s member
      simpa using Nat.ne_of_lt (fresh.numbered s member)
  have waiters : h.bus.waiters.filter (fun waiter => waiter.name ≠ w.name) = h.bus.waiters := by
    apply List.filter_eq_self.mpr
    intro waiter member
    simpa using fresh.waiters waiter member
  have mail : h.mail.filter (fun letter => letter.1 != w.name) = h.mail := by
    apply List.filter_eq_self.mpr
    intro letter member
    simpa using fresh.mail letter member
  have newest : (h.bus.subscribe w.name observer wanted).idOf? w.name = some h.bus.issued := by
    simp [Bus.idOf?, Bus.subscribe]
  simp only [leave, Bus.cancel, newest]
  simp only [Bus.forget, Bus.unsubscribe, Bus.subscribe, Bus.spent, subscriptions, waiters, mail]

theorem leave_aside (w : Waiting) (h : Host) :
    ∃ bus mail, w.leave h = { h with bus := bus, mail := mail } := ⟨_, _, rfl⟩

theorem receive_aside (w : Waiting) (h : Host) (e : Event) :
    ∃ bus mail, (w.receive h e).1 = { h with bus := bus, mail := mail } := by
  unfold receive
  simp only
  split
  · exact w.leave_aside h
  · split <;> exact w.leave_aside h

theorem wait_aside (w : Waiting) (h : Host) :
    ∃ bus mail, (w.wait h).1 = { h with bus := bus, mail := mail } := by
  unfold wait
  split
  · exact w.leave_aside h
  · exact w.receive_aside h _
  · exact w.leave_aside h
  · exact ⟨h.bus, h.mail, rfl⟩

end Waiting

/-- A drop that does nothing but fail leaves nothing behind, but for the number of its subscription if it was to
wait. -/
theorem drop_fails {fault : Remote.Fault} {name : String} (fresh : h.Named (· ≠ name))
    (known : deviceOf h arguments = .ok (shown, device))
    (fails : ∀ bus, ({ h with bus := bus } : Host).drop device (Uuid.ofArgument (given arguments "uuid" .null)) =
      (.error fault, { h with bus := bus })) :
    ∃ bus, (bus = h.bus ∨ bus = h.bus.spent name) ∧
      drop h name arguments = ({ h with bus := bus }, .error (ofRemote fault)) := by
  simp only [drop, known, run]
  split
  · simp only [Waiting.start, fails, Except.mapError]
    rw [Waiting.leave_subscribed _ fresh]
    exact ⟨_, Or.inr rfl, rfl⟩
  · have same := fails h.bus
    simp only [same, Except.mapError]
    exact ⟨h.bus, Or.inl rfl, rfl⟩

theorem drop_narrow {uuid : Bytes} (known : deviceOf h arguments = .ok (shown, device))
    (named : Remote.leaseUuid (Uuid.ofArgument (given arguments "uuid" .null)) = .ok (some uuid))
    (specific : uuid ≠ nullUuid) (name : String) : h.Narrow device uuid (drop h name arguments).1 := by
  simp only [drop, known, run]
  split
  · have narrow (heard : Bus) := Host.drop_narrow named specific { h with bus := heard } device
    unfold Waiting.start
    generalize h.bus.subscribe name 1 (deviceFilter device) = heard
    have narrow := narrow heard
    simp only
    generalize Host.drop { h with bus := heard } device _ = dropped at narrow ⊢
    obtain ⟨fault | _, h'⟩ := dropped
    · exact narrow.aside (Waiting.leave_aside _ h')
    · exact narrow.aside (Waiting.wait_aside _ h')
  · have narrow := Host.drop_narrow named specific h device
    generalize h.drop device _ = dropped at narrow ⊢
    obtain ⟨fault | _, h'⟩ := dropped <;> exact narrow

namespace Server

variable {timeout : Binary64}

theorem call_drop {s : Server} (found : s.host = .ok (h, timeout)) (intake : Intake) (arguments : Entries) :
    s.call intake "drop" arguments =
      { s with
        opened := some ((drop h (callName s.made) arguments).1, timeout)
        made := s.made + 1
        calls := s.calls ++ [⟨given arguments "device" (.str "N/A"),
          .ofResult (drop h (callName s.made) arguments).2⟩] } := by
  unfold Server.call
  rw [found]
  rfl

/-- A call of `drop` for a known device, in any state that a server can come to. An argument that spells no uuid is
refused, and nothing on the host is different afterwards but for the number that a call's subscription used up; the
one exception is a text of sixteen bytes, which is taken for the uuid that these bytes are. A uuid, in whatever way it
was given, affects no lease but its own. -/
theorem drop_by_uuid (now : Moment) (document : Except Yaml.Fault Value) (path : String)
    (process : Kind → Role → Except SystemFault Child) (moves : List Move) (intake : Intake) (arguments : Entries)
    (found : ((initial now document path process).run moves).host = .ok (h, timeout))
    (known : deviceOf h arguments = .ok (shown, device)) :
    let s := (initial now document path process).run moves
    let v := given arguments "uuid" .null
    (Uuid.Undecodable v → (∀ uuid, ¬ Uuid.Impostor v uuid) →
      ∃ bus, (bus = h.bus ∨ bus = h.bus.spent (callName s.made)) ∧ s.call intake "drop" arguments =
        { s with
          opened := some ({ h with bus := bus }, timeout)
          made := s.made + 1
          calls := s.calls ++ [⟨given arguments "device" (.str "N/A"), .answered (.document (.object [("error",
            .object [("domain", .str "org.freedesktop.DBus.Error.InvalidArgs"),
              ("message", .str "bad uuid argument")])]))⟩] }) ∧
    ∀ uuid, uuid ≠ nullUuid → Uuid.Spells v uuid ∨ Uuid.Impostor v uuid →
      ∃ h', (s.call intake "drop" arguments).opened = some (h', timeout) ∧ h.Narrow device uuid h' := by
  intro s v
  have wired : s.Wired := (initial_wired now document path process).run moves
  have call := call_drop found intake arguments
  refine ⟨?_, ?_⟩
  · intro undecodable honest
    obtain ⟨bus, spent, refused⟩ := drop_fails (wired.fresh found) known fun bus =>
      Host.drop_rejected (undecodable.refused honest) { h with bus := bus } device
    refine ⟨bus, spent, ?_⟩
    rw [call, refused]
    rfl
  · intro uuid specific named
    have taken : Remote.leaseUuid (Uuid.ofArgument v) = .ok (some uuid) :=
      named.elim Uuid.Spells.taken Uuid.Impostor.taken
    refine ⟨(drop h (callName s.made) arguments).1, ?_, drop_narrow known taken specific _⟩
    rw [call]

theorem held_lease_spared :
    let document : Value := .map [(.str "devices", .map [(.str "eth0", .map [])])]
    let options : Value := .map [(.str "hostname", .str "a"), (.str "uuid", .scalar (.bytes (List.replicate 16 7)))]
    let device : Scalar × Value := (.str "device", .str "eth0")
    let s := (initial default (.ok document) "" fun _ _ => .ok .quiet).run
      [.take default (.call "acquire" [device, (.str "options", options)]), .rest]
    ∃ h timeout, s.host = .ok (h, timeout) ∧ (h.service.sessionOf (.str "eth0")).lease = some 0 ∧
      (∃ bus, (bus = h.bus ∨ bus = h.bus.spent (callName s.made)) ∧
        s.call default "drop" [device, (.str "uuid", .str "0707")] = { s with
          opened := some ({ h with bus := bus }, timeout)
          made := s.made + 1
          calls := s.calls ++ [⟨.str "eth0", .answered (.document (.object [("error",
            .object [("domain", .str "org.freedesktop.DBus.Error.InvalidArgs"),
              ("message", .str "bad uuid argument")])]))⟩] }) ∧
      ∃ h', (s.call default "drop" [device, (.str "uuid", .scalar (.bytes (List.replicate 16 8)))]).opened =
        some (h', timeout) ∧ h.Narrow (.str "eth0") (List.replicate 16 8) h' := by
  intro document options device s
  have stands : (s.host.toOption.map fun opened =>
      ((opened.1.store.device? (.str "eth0")).isSome, (opened.1.service.sessionOf (.str "eth0")).lease)) =
        some (true, some 0) := by decide +kernel
  obtain ⟨⟨h, timeout⟩, host, facts⟩ := Option.map_eq_some_iff.mp stands
  have found := Reading.ok_of_toOption host
  obtain ⟨listed, lease⟩ := Prod.mk.inj facts
  have known (arguments : Entries) (given : Entries.field? arguments "device" = some (.str "eth0")) :
      deviceOf h arguments = .ok (.str "eth0", .str "eth0") := by
    simp only [deviceOf, needed, given]
    change (deviceName h.store (.scalar (.str "eth0")) >>= _) = _
    simp only [deviceName, listed]
    rfl
  refine ⟨h, timeout, found, lease, ?_, ?_⟩
  · apply (drop_by_uuid _ _ _ _ _ default _ found (known _ rfl)).1
    · exact Uuid.undecodable_str (by decide) (by decide +kernel) (by decide +kernel)
    · rintro uuid ⟨-, ⟨s, same, other, -⟩, -⟩
      cases same
      exact other [7, 7] (Hex.decodeChars_iff.mp rfl)
  · exact (drop_by_uuid _ _ _ _ _ default _ found (known _ rfl)).2 _ (by decide) (Or.inl (.bytes rfl))

def held (s : Server) : Option (List (List LeaseId)) :=
  s.opened.map fun opened => opened.1.store.devices.map Device.leases

/-- The text spells no uuid, and the lease with the uuid that its sixteen characters are is gone. -/
theorem sixteen_characters_release :
    let v : Value := .str "not-a-uuid-value"
    let document : Value := .map [(.str "devices", .map [(.str "eth0", .map [])])]
    let options : Value := .map [(.str "hostname", .str "a"),
      (.str "uuid", .scalar (.bytes (Utf8.encode "not-a-uuid-value")))]
    let s := (initial default (.ok document) "" fun _ _ => .ok .quiet).run
      [.take default (.call "acquire" [(.str "device", .str "eth0"), (.str "options", options)]), .rest]
    Uuid.Undecodable v ∧ s.held = some [[0]] ∧
      (s.call default "drop" [(.str "device", .str "eth0"), (.str "uuid", v)]).rest.held = some [[]] := by
  intro v document options s
  refine ⟨Uuid.undecodable_str (by decide) (by decide +kernel) ?_, by decide +kernel, by decide +kernel⟩
  intro bytes digits
  cases digits

end Server

end Tools

end Leasehold
