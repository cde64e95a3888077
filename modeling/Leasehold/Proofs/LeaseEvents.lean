import Leasehold.Host
import Leasehold.Proofs.LeaseOwnership

/-! The events are a log of the leases. Whoever keeps count of a device's events knows which lease its session
and the device have, as it was stamped; a lease that is given up is the one that was counted; and a call that
changes a device's leases tells so in one event, while one that changes nothing tells nothing of the kind. -/

namespace Leasehold

namespace Event

def update (current : Option NamedLease) (e : Event) : Option NamedLease :=
  match e.kind, e.success, e.lease with
  | .acquired, true, lease => lease
  | .released, true, some _ => none
  | _, _, _ => current

def ofDevice (name : Scalar) (events : List Event) : List Event :=
  events.filter fun e => e.device.isKey name

def recalled (name : Scalar) (events : List Event) : Option NamedLease :=
  (ofDevice name events).foldl update none

theorem ofDevice_single (name : Scalar) (e : Event) :
    ofDevice name [e] = if e.device.key = name.key then [e] else [] := by
  by_cases same : e.device.key = name.key <;> simp [ofDevice, Scalar.isKey, same]

theorem recalled_append (name : Scalar) (events : List Event) (e : Event) : recalled name (events ++ [e]) =
    if e.device.key = name.key then e.update (recalled name events) else recalled name events := by
  have split : ofDevice name (events ++ [e]) = ofDevice name events ++ ofDevice name [e] := List.filter_append ..
  rw [recalled, split, ofDevice_single]
  split <;> simp [recalled, Event.update]

/-- An event tells what becomes of the current lease. -/
structure Tells (old new : Option NamedLease) (e : Event) : Prop where
  update : update old e = new
  ended : e.kind = .released → e.changesLeases = true → e.lease = old
  changes : e.changesLeases = true ↔ new ≠ old

variable {before : Option NamedLease} {e : Event}

theorem Tells.of_failure (failed : e.success = false) : Tells before before e := by
  have silent : e.changesLeases = false := by simp [changesLeases, failed]
  refine ⟨?_, fun _ changes => ?_, by simp [silent]⟩
  · cases kind : e.kind <;> simp [Event.update, kind, failed]
  · rw [silent] at changes
    cases changes

theorem Tells.of_release (kind : e.kind = .released) (success : e.success = true) (lease : e.lease = before) :
    Tells before none e := by
  refine ⟨?_, fun _ _ => lease, ?_⟩
  · cases before <;> simp [Event.update, kind, success, lease]
  · cases before <;> simp [changesLeases, success, lease]

end Event

namespace Store

def Knows (s : Store) (name : Scalar) : Prop := ∃ d ∈ s.devices, d.name.key = name.key

variable {s : Store} {name : Scalar}

theorem Knows.modifyDevice {other : Scalar} {change : Device → Device} (known : s.Knows name)
    (named : ∀ d, (change d).name = d.name) : (s.modifyDevice other change).Knows name := by
  obtain ⟨d, member, same⟩ := known
  refine ⟨_, List.mem_map_of_mem member, ?_⟩
  split
  · rw [named, same]
  · exact same

theorem Knows.without {device : Scalar} (known : s.Knows name) (lease : Option LeaseId) :
    (s.without device lease).Knows name := by
  cases lease with
  | none => exact known
  | some id => exact known.modifyDevice fun _ => rfl

theorem device?_key {d : Device} (found : s.device? name = some d) : d.name.key = name.key :=
  Scalar.isKey_iff.mp (List.find?_some (p := fun d : Device => d.name.isKey name) found)

theorem knows_of_device {d : Device} (found : s.device name = .ok d) : s.Knows name := by
  unfold Store.device at found
  cases present : s.device? name with
  | none => simp [present] at found
  | some other => exact ⟨other, List.mem_of_find?_eq_some present, device?_key present⟩

end Store

namespace Service

def current (s : Service) (name : Scalar) : Option NamedLease :=
  (s.sessionOf name).lease.map s.store.named

def Housed (s : Service) : Prop :=
  ∀ name, (s.sessionOf name).ticket.isSome ∨ (s.sessionOf name).lease.isSome → s.store.Knows name

variable {s s' : Service} {m : Move} {name : Scalar} {x next : Session} {store : Store} {es : List Effect}

theorem current_congr (s : Service) {other : Scalar} (same : name.key = other.key) :
    s.current name = s.current other := by
  rw [current, s.sessionOf_congr same]
  rfl

theorem settle_effects (s : Service) (before after : Session) (reply : Reply) (es : List Effect) (t : Ticket) :
    (s.settle before after reply es t).effects = es := by
  cases reply <;> rfl

theorem openSession_knows {opened : Service} (opens : s.openSession name = .ok (x, opened)) : s.store.Knows name := by
  unfold openSession at opens
  cases known : s.store.device name with
  | error fault => simp [known, bind, Except.bind] at opens
  | ok d => exact Store.knows_of_device known

theorem finishRelease_start (s : Service) (x : Session) (device : Scalar) (t : Ticket) :
    Effect.start t ∉ (s.finishRelease x device).2.2 := by
  by_cases phase : x.phase = .releasing
  · simp [finishRelease_releasing s x device phase, Session.abandoned]
  · simp [finishRelease_other s x device phase]

/-- The negotiator is asked to start only for a device that is there. -/
theorem step_start (s : Service) (m : Move) {t : Ticket} (asked : Effect.start t ∈ (s.step m).2) :
    s.store.Knows t.device := by
  cases m with
  | acquire device options intake reply =>
    simp only [step, Service.acquire] at asked
    cases requested : Request.ofOptions intake options with
    | error fault => simp [requested] at asked
    | ok request =>
      cases opens : s.openSession device with
      | error fault => simp [requested, opens] at asked
      | ok pair =>
        obtain ⟨x, opened⟩ := pair
        have quiet := opened.finishRelease_start x device t
        simp only [requested, opens, settle_effects, List.mem_append, quiet, false_or] at asked
        simp only [List.mem_map, reduceCtorEq, and_false, exists_false, false_or, List.mem_singleton,
          Effect.start.injEq] at asked
        rw [asked]
        exact openSession_knows opens
  | release device uuid reply =>
    simp only [step, Service.release] at asked
    repeat' split at asked
    all_goals simp [cancelRequest, startRelease, Outcome.reported, settle_effects] at asked
  | expire device uuid =>
    simp only [step, Service.expire, expireLease, dropLease] at asked
    repeat' split at asked
    all_goals simp at asked
  | completeAcquire t id now =>
    simp only [step, Service.completeAcquire] at asked
    split at asked <;> simp at asked
  | failAcquire t reason =>
    simp only [step, Service.failAcquire] at asked
    split at asked <;> simp at asked
  | completeRelease t =>
    simp only [step, Service.completeRelease, dropLease] at asked
    split at asked <;> simp at asked
  | draft id lease => simp [step] at asked

theorem Turn.knows {other : Scalar} (turn : s.Turn m name x next store es) (known : s.store.Knows other) :
    store.Knows other := by
  rcases turn.store_cases with ⟨rfl, -⟩ | ⟨rfl, -⟩ | ⟨id, t, now, -, -, rfl, -⟩
  · exact known
  · exact known.without _
  · exact (Store.Knows.without (s := s.store.nextSeqno.2.setLease id _) known _).modifyDevice fun _ => rfl

theorem Turned.knows {other : Scalar} (turned : s.Turned m name es s') (known : s.store.Knows other) :
    s'.store.Knows other := by
  obtain ⟨next, store, turn, b⟩ := turned
  rw [b.store]
  exact turn.knows known

theorem Turned.housed (turned : s.Turned m name es s') (housed : s.Housed)
    (asked : ∀ t, Effect.start t ∈ es → s.store.Knows t.device) : s'.Housed := by
  have knows {other : Scalar} : s.store.Knows other → s'.store.Knows other := turned.knows
  obtain ⟨next, store, turn, b⟩ := turned
  intro other active
  by_cases same : other.key = name.key
  · have here : s.store.Knows name → s'.store.Knows other := fun known => by
      obtain ⟨d, member, device⟩ := knows known
      exact ⟨d, member, device.trans same.symm⟩
    have housed := housed name
    rw [b.sessionOf_here same] at active
    apply here
    cases turn with
    | kept | refused => exact housed active
    | finished | expired | returned => simp [emptied] at active
    | started request reply phase => exact asked _ (List.mem_append_right _ (.head _))
    | releasing id held reply phase => exact housed (Or.inr (by simp [held]))
    | cancelled t empty waiting => simp [empty] at active
    | outlived id held t waiting => exact housed (Or.inr (by simp [held]))
    | obtained id t now handed device current =>
      exact housed (Or.inl (Bool.and_eq_true_iff.mp current).1)
    | failed t reason current => exact housed (Or.inl (Bool.and_eq_true_iff.mp current).1)
  · rw [b.sessionOf_elsewhere same] at active
    exact knows (housed other active)

theorem step_housed (housed : s.Housed) (m : Move) : (s.step m).1.Housed := by
  have moved := s.step_moved m
  have asked (t : Ticket) : Effect.start t ∈ (s.step m).2 → s.store.Knows t.device := s.step_start m
  generalize (s.step m).1 = s', (s.step m).2 = es at moved asked ⊢
  cases moved with
  | still => exact housed
  | drafted id lease same =>
    intro name active
    obtain ⟨d, member, device⟩ := housed name active
    exact ⟨d, by rwa [Store.draft_devices], device⟩
  | turn name turned => exact turned.housed housed asked
  | turns name free phase ended last =>
    have first := Moved.first_turn s m phase ended
    have mid := first.housed housed fun t member => asked t (List.mem_append_left _ member)
    exact last.housed mid fun t member => first.knows (asked t (List.mem_append_right _ member))

theorem Owned.holder (owned : s.Owned) (housed : s.Housed) {id : LeaseId}
    (lease : (s.sessionOf name).lease = some id) : ∃ d ∈ s.store.devices, d.name.key = name.key ∧ id ∈ d.leases := by
  obtain ⟨d, member, device⟩ := housed name (Or.inr (by simp [lease]))
  exact ⟨d, member, device, by simp [owned.of_key member device, lease]⟩

theorem Owned.leasesOf (owned : s.Owned) (housed : s.Housed) (name : Scalar) :
    (s.store.leasesOf name).map s.store.named = (s.current name).toList := by
  unfold Store.leasesOf current
  cases found : s.store.device? name with
  | some d =>
    have device := Store.device?_key found
    simp [owned.of_key (List.mem_of_find?_eq_some found) device, Option.toList_map]
  | none =>
    cases lease : (s.sessionOf name).lease with
    | none => rfl
    | some id =>
      obtain ⟨d, member, device, -⟩ := owned.holder housed lease
      exact absurd (Scalar.isKey_iff.mpr device) (List.find?_eq_none.mp found d member)

theorem events_append (first last : List Effect) :
    Host.events (first ++ last) = Host.events first ++ Host.events last :=
  List.filterMap_append ..

theorem events_abandoned (x : Session) : Host.events x.abandoned = [] := by
  cases waiting : x.ticket <;> simp [Host.events, Session.abandoned, waiting]

theorem events_replaced (x : Session) : Host.events x.replaced = [] := by
  cases waiting : x.inFlight? <;> simp [Host.events, Session.replaced, waiting]

theorem events_asked {ask : Effect} {t : Ticket} (asked : ask.asked? = some t) : Host.events [ask] = [] := by
  cases ask with
  | start | release => rfl
  | cancel | publish => cases asked

/-- Nothing is told and no lease has changed, or one event tells what has become of one device's lease. -/
inductive Told (s : Service) : List Event → Service → Prop
  | silent {s' : Service} (same : ∀ name, s'.current name = s.current name) : Told s [] s'
  | told {s' : Service} (e : Event) (tells : Event.Tells (s.current e.device) (s'.current e.device) e)
      (elsewhere : ∀ other, other.key ≠ e.device.key → s'.current other = s.current other) : Told s [e] s'

theorem released_tells (s : Service) (device : Scalar) (lease : Option LeaseId) (reason : Option String) :
    Event.Tells (lease.map s.store.named) none (s.released device lease reason) :=
  .of_release rfl rfl rfl

private theorem obtained_tells (owned : s.Owned) (housed : s.Housed) (permitted : s.Permits m) {id : LeaseId}
    {t : Ticket} {now : Moment} (handed : m = .completeAcquire t id now) (name : Scalar) (uuid : Option Bytes) :
    let named := (s.storeObtained t (s.sessionOf name).lease id now).named id
    Event.Tells (s.current name) (some named) ⟨name, .acquired, true, some named, none, uuid⟩ := by
  intro named
  subst handed
  refine ⟨rfl, nofun, ⟨fun _ same => ?_, fun _ => rfl⟩⟩
  -- Even if the lease before is obtained again it changes, since its number is new.
  obtain ⟨old, lease, equal⟩ := Option.map_eq_some_iff.mp same.symm
  obtain ⟨d, member, -, held⟩ := owned.holder housed lease
  have below := (owned.stamped old ⟨d, member, held⟩).2
  have number : (s.store.lease old).seqno = s.store.lastSeqno + 1 := by
    have content : s.store.lease old = (s.storeObtained t (s.sessionOf name).lease id now).lease id :=
      congrArg NamedLease.lease equal
    rw [content, storeObtained_lease, if_pos ⟨rfl, permitted.1⟩, stamp_seqno]
  omega

theorem Turn.told (turn : s.Turn m name (s.sessionOf name) next store es) (permitted : s.Permits m) (owned : s.Owned)
    (housed : s.Housed) :
    Host.events es = [] ∧ next.lease.map store.named = s.current name ∨
      ∃ e, Host.events es = [e] ∧ e.device.key = name.key ∧
        Event.Tells (s.current name) (next.lease.map store.named) e := by
  cases turn with
  | kept => exact Or.inl ⟨rfl, rfl⟩
  | refused t ask asked reply =>
    exact Or.inl ⟨by rw [events_append, events_replaced, events_asked asked]; rfl, rfl⟩
  | started request reply phase =>
    exact Or.inl ⟨by rw [events_append, events_replaced]; rfl, rfl⟩
  | releasing id held reply phase =>
    exact Or.inl ⟨by rw [events_append, events_replaced]; rfl, rfl⟩
  | finished | expired =>
    rw [events_append, events_abandoned]
    exact Or.inr ⟨_, rfl, rfl, s.released_tells name _ _⟩
  | outlived | returned => exact Or.inr ⟨_, rfl, rfl, s.released_tells name _ _⟩
  | cancelled t empty waiting => exact Or.inr ⟨_, rfl, s.sessionOf_device name, .of_failure rfl⟩
  | obtained id t now handed device current =>
    exact Or.inr ⟨_, rfl, rfl, obtained_tells owned housed permitted handed name _⟩
  | failed t reason current => exact Or.inr ⟨_, rfl, rfl, .of_failure rfl⟩

theorem Turned.current_elsewhere (turned : s.Turned m name es s') (permitted : s.Permits m) (owned : s.Owned)
    (housed' : s'.Housed) {other : Scalar} (different : other.key ≠ name.key) : s'.current other = s.current other := by
  have owned' := turned.owned permitted owned
  obtain ⟨new, succeeds⟩ := turned.succeeds permitted owned
  obtain ⟨next, store, turn, b⟩ := turned
  have same := b.sessionOf_elsewhere different
  unfold current
  rw [same]
  cases lease : (s.sessionOf other).lease with
  | none => rfl
  | some id =>
    -- Its device still holds the lease, so it is not the one that was handed to another device.
    obtain ⟨d, member, device, held⟩ := owned'.holder housed' (same.symm ▸ lease)
    rcases succeeds.held d member id held with ⟨-, here, -⟩ | ⟨-, content⟩
    · exact absurd (device.symm.trans here) different
    · simp only [Option.map_some, Store.named, content]

theorem Turned.told (turned : s.Turned m name es s') (permitted : s.Permits m) (owned : s.Owned)
    (housed : s.Housed) (housed' : s'.Housed) : s.Told (Host.events es) s' := by
  have elsewhere (other : Scalar) (different : other.key ≠ name.key) : s'.current other = s.current other :=
    turned.current_elsewhere permitted owned housed' different
  obtain ⟨next, store, turn, b⟩ := turned
  have here : s'.current name = next.lease.map store.named := by
    rw [current, b.sessionOf_here rfl, b.store]
  rcases turn.told permitted owned housed with ⟨quiet, same⟩ | ⟨e, told, device, tells⟩
  · rw [quiet]
    refine .silent fun other => ?_
    by_cases equal : other.key = name.key
    · rw [s'.current_congr equal, s.current_congr equal, here, same]
    · exact elsewhere other equal
  · rw [told]
    refine .told e ?_ fun other different => elsewhere other (device ▸ different)
    rw [s'.current_congr device, s.current_congr device, here]
    exact tells

/-- A session that is idle has no turn that tells anything. -/
theorem Turn.quiet (turn : s.Turn m name x next store es) (idle : x.phase = .idle) (ticket : x.ticket = none)
    (empty : x.lease = none) : Host.events es = [] := by
  have quiet {t : Ticket} : x.isCurrent t = true → False := by simp [Session.isCurrent, ticket]
  cases turn with
  | kept => rfl
  | refused t ask asked reply => rw [events_append, events_replaced, events_asked asked]; rfl
  | started => rw [events_append, events_replaced]; rfl
  | finished phase => simp [idle] at phase
  | releasing id held | outlived id held | expired id held => simp [empty] at held
  | cancelled t empty waiting => simp [Session.inFlight?, idle] at waiting
  | obtained id t now handed device current => exact (quiet current).elim
  | failed t reason current => exact (quiet current).elim
  | returned t current => exact (quiet current).elim

theorem Told.followed {mid : Service} {events : List Event} (told : s.Told events mid)
    (same : ∀ name, s'.current name = mid.current name) : s.Told events s' := by
  cases told with
  | silent before => exact .silent fun name => (same name).trans (before name)
  | told e tells elsewhere =>
    exact .told e (same e.device ▸ tells) fun other different => (same other).trans (elsewhere other different)

theorem draft_current (owned : s.Owned) (housed : s.Housed) {id : LeaseId} (lease : Lease)
    (free : ¬ s.store.Holds id) (name : Scalar) :
    ({ s with store := s.store.draft id lease } : Service).current name = s.current name := by
  unfold current
  cases held : (s.sessionOf name).lease with
  | none => simp [show (({ s with store := s.store.draft id lease } : Service).sessionOf name).lease = none from held]
  | some old =>
    obtain ⟨d, member, -, holds⟩ := owned.holder housed held
    have different : old ≠ id := fun same => free ⟨d, member, same ▸ holds⟩
    have content := s.store.lease_draft lease different (owned.named old ⟨d, member, holds⟩)
    simp [show (({ s with store := s.store.draft id lease } : Service).sessionOf name).lease = some old from held,
      Store.named, content]

/-- Each move tells what becomes of the leases, in one event at most. -/
theorem step_told (permitted : s.Permits m) (owned : s.Owned) (housed : s.Housed) :
    s.Told (Host.events (s.step m).2) (s.step m).1 := by
  have housed' := step_housed housed m
  have moved := s.step_moved m
  have asked (t : Ticket) : Effect.start t ∈ (s.step m).2 → s.store.Knows t.device := s.step_start m
  generalize (s.step m).1 = s', (s.step m).2 = es at moved asked housed' ⊢
  cases moved with
  | still => exact .silent fun _ => rfl
  | drafted id lease same =>
    subst same
    exact .silent (draft_current owned housed lease permitted)
  | turn name turned => exact turned.told permitted owned housed housed'
  | @turns mid es s' name free phase ended last =>
    -- The release that ends is told. What follows starts from an idle session and tells nothing.
    have first := Moved.first_turn s m phase ended
    have mid_housed := first.housed housed fun t member => asked t (List.mem_append_left _ member)
    have before := first.told (free _) owned housed mid_housed
    have after := last.told (free _) (first.owned (free _) owned) mid_housed housed'
    have quiet : Host.events es = [] := by
      obtain ⟨next, store, turn, -⟩ := last
      rw [ended.sessionOf_here rfl] at turn
      exact turn.quiet rfl rfl rfl
    rw [quiet] at after
    rw [events_append, quiet, List.append_nil]
    cases after with
    | silent same => exact before.followed same

structure Logged (s : Service) (told : List Event) : Prop where
  current : ∀ name, Event.recalled name told = s.current name
  ended : ∀ before e after, told = before ++ e :: after → e.kind = .released → e.changesLeases = true →
    e.lease = Event.recalled e.device before

theorem Logged.told {events told : List Event} (logged : s.Logged told) (step : s.Told events s') :
    s'.Logged (told ++ events) := by
  cases step with
  | silent same =>
    rw [List.append_nil]
    exact ⟨fun name => (logged.current name).trans (same name).symm, logged.ended⟩
  | told e tells elsewhere =>
    refine ⟨fun name => ?_, fun before other after split released changes => ?_⟩
    · rw [Event.recalled_append, logged.current]
      split
      next same => rw [s.current_congr same.symm, s'.current_congr same.symm, tells.update]
      next different => exact (elsewhere name (Ne.symm different)).symm
    · obtain rfl | ⟨front, last, rfl⟩ := after.eq_nil_or_concat
      · obtain ⟨rfl, same⟩ := List.append_inj' split rfl
        cases same
        rw [logged.current]
        exact tells.ended released changes
      · rw [List.concat_eq_append, ← List.cons_append, ← List.append_assoc] at split
        exact logged.ended before other front (List.append_inj' split rfl).1 released changes

theorem run_logged {moves : List Move} (permitted : s.PermitsAll moves) (owned : s.Owned) (housed : s.Housed)
    {told : List Event} (logged : s.Logged told) : (s.run moves).1.Owned ∧ (s.run moves).1.Housed ∧
      (s.run moves).1.Logged (told ++ Host.events (s.run moves).2) := by
  induction moves generalizing s told with
  | nil => exact ⟨owned, housed, by simpa [run, Host.events] using logged⟩
  | cons m rest ih =>
    have after := ih permitted.2 (step_owned permitted.1 owned) (step_housed housed m)
      (logged.told (step_told permitted.1 owned housed))
    simpa only [run, events_append, List.append_assoc] using after

def changesOf (name : Scalar) (es : List Effect) : List Event :=
  (Event.ofDevice name (Host.events es)).filter Event.changesLeases

theorem Told.changes {events : List Event} (told : s.Told events s') (name : Scalar) :
    s'.current name ≠ s.current name ↔ ((Event.ofDevice name events).filter Event.changesLeases).length = 1 := by
  cases told with
  | silent same => simp [same name, Event.ofDevice]
  | told e tells elsewhere =>
    rw [Event.ofDevice_single]
    split
    next same =>
      rw [s.current_congr same.symm, s'.current_congr same.symm, ← tells.changes]
      cases changes : e.changesLeases <;> simp [changes]
    next different => simp [elsewhere name (Ne.symm different)]

/-- Whatever is asked of a service and reported to it: the events of a device fold to the lease of its session, which
is the one that the device holds; a lease that is given up is the one that was current; and a move changes what
a device holds if it tells of just one change of that device, and only then. -/
theorem run_events_faithful (devices : List (Scalar × Int)) (mode : Mode) (moves : List Move)
    (permitted : (initial devices mode).PermitsAll moves) :
    let s := ((initial devices mode).run moves).1
    let told := Host.events ((initial devices mode).run moves).2
    (∀ name, Event.recalled name told = (s.sessionOf name).lease.map s.store.named ∧
      (s.store.leasesOf name).map s.store.named = (Event.recalled name told).toList) ∧
    (∀ before e after, told = before ++ e :: after → e.kind = .released → e.changesLeases = true →
      e.lease = Event.recalled e.device before) ∧
    ∀ m, s.Permits m → ∀ name,
      ((s.step m).1.store.leasesOf name).map (s.step m).1.store.named ≠ (s.store.leasesOf name).map s.store.named ↔
        (changesOf name (s.step m).2).length = 1 := by
  intro s told
  have nothing : (initial devices mode).Housed := by
    intro name active
    simp [initial, sessionOf, session?, Session.fresh] at active
  have begun : (initial devices mode).Logged [] :=
    ⟨fun name => rfl, fun before e after split => by cases before <;> cases split⟩
  obtain ⟨owned, housed, logged⟩ := run_logged permitted (initial_owned devices mode) nothing begun
  rw [List.nil_append] at logged
  refine ⟨fun name => ⟨logged.current name, ?_⟩, logged.ended, fun m permitted name => ?_⟩
  · rw [owned.leasesOf housed, logged.current]
  · have step := step_told permitted owned housed
    rw [owned.leasesOf housed, (step_owned permitted owned).leasesOf (step_housed housed m), changesOf,
      ← step.changes]
    cases (s.step m).1.current name <;> cases s.current name <;> simp

/-- A lease is acquired, acquired over by itself, and given up when the next acquisition ends its release. -/
theorem renewed_events_faithful :
    let options : Value := .map [(.str "family", .scalar (.str "ipv4"))]
    let moves : List Move := [
      .draft 0 (.blank .dhcp),
      .acquire (.str "eth0") options (.lenient (List.replicate 16 1)) .accepted,
      .completeAcquire ⟨.str "eth0", 1, none⟩ 0 default,
      .acquire (.str "eth0") options (.lenient (List.replicate 16 2)) .accepted,
      .completeAcquire ⟨.str "eth0", 2, none⟩ 0 default,
      .release (.str "eth0") none .accepted,
      .acquire (.str "eth0") options (.lenient (List.replicate 16 3)) (.refused "down")]
    let s := initial [(.str "eth0", 1), (.str "eth1", 2)] .dhcp
    let told := Host.events (s.run moves).2
    s.PermitsAll moves ∧ told.map (fun e => e.lease.map fun named => named.lease.seqno) = [some 1, some 2, some 2] ∧
      ((s.run moves).1.store.leasesOf (.str "eth0")).map (s.run moves).1.store.named =
        (Event.recalled (.str "eth0") told).toList :=
  ⟨by decide, by decide, ((run_events_faithful _ _ _ (by decide)).1 (.str "eth0")).2⟩

end Service
end Leasehold
