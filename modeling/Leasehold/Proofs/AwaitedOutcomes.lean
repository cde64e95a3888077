import Leasehold.Proofs.DropByUuid
import Leasehold.Proofs.ToolMoves

/-! Waiting for the outcome of an acquisition. A call that waits listens to its device, and takes the first outcome that
it hears of. That is the outcome of whatever request was in flight for the device meanwhile: its own, or one that took
its place. -/

namespace Leasehold

def Session.pursued (x : Session) : Option Bytes := (x.ticket.bind Ticket.request).map Request.uuid

namespace Service

def pursued (s : Service) (device : Scalar) : Option Bytes := (s.sessionOf device).pursued

variable {s : Service} {device : Scalar} {options : Value} {intake : Intake} {uuid : Option Bytes} {reply : Reply}

theorem pursued_congr (s : Service) {other : Scalar} (same : device.key = other.key) :
    s.pursued device = s.pursued other := by
  rw [pursued, s.sessionOf_congr same]
  rfl

/-- An acquisition tells of no outcome but that of the release that it ends. -/
theorem acquire_events (s : Service) (device : Scalar) (options : Value) (intake : Intake) (reply : Reply) :
    ∀ e ∈ Host.events (s.acquire device options intake reply).effects, e.kind = .released := by
  unfold Service.acquire
  cases Request.ofOptions intake options with
  | error fault => simp [Host.events]
  | ok request =>
    cases s.openSession device with
    | error fault => simp [Host.events]
    | ok pair =>
      obtain ⟨x, opened⟩ := pair
      simp only [settle_effects]
      rw [List.append_assoc, events_append, ← Session.replaced, events_append, events_replaced, events_asked rfl]
      by_cases phase : x.phase = .releasing
      · rw [finishRelease_releasing opened x device phase, events_append, events_abandoned]
        simp [Host.events, released]
      · rw [finishRelease_other opened x device phase]
        simp [Host.events]

/-- A release tells of no outcome but that of a request that it cancels. -/
theorem release_events (s : Service) (device : Scalar) (uuid : Option Bytes) (reply : Reply) :
    ∀ e ∈ Host.events (s.release device uuid reply).effects, e.kind = .released := by
  unfold Service.release
  cases s.openSession device with
  | error fault => simp [Host.events]
  | ok pair =>
    obtain ⟨x, opened⟩ := pair
    simp only
    split
    · simp [Host.events]
    · split
      · simp [cancelRequest, Host.events]
      · simp [Host.events]
      · split
        · simp [Host.events]
        · simp only [startRelease, Outcome.reported, settle_effects]
          rw [← Session.replaced, events_append, events_replaced, events_asked rfl]
          simp

variable {m : Move} {name : Scalar} {x next : Session} {store : Store} {es : List Effect} {s' : Service}

theorem Turn.table_length (turn : s.Turn m name x next store es) : store.table.length = s.store.table.length := by
  cases turn with
  | kept | refused | started | releasing | cancelled | failed => rfl
  | finished | outlived | expired | returned => rw [Store.without_table]
  | obtained => exact storeObtained_length ..

theorem Turned.table_length (turned : s.Turned m name es s') : s'.store.table.length = s.store.table.length := by
  obtain ⟨next, store, turn, b⟩ := turned
  rw [b.store, turn.table_length]

/-- No lease ever loses its name. -/
theorem step_table_length (s : Service) (m : Move) : s.store.table.length ≤ (s.step m).1.store.table.length := by
  have moved := s.step_moved m
  generalize (s.step m).1 = s', (s.step m).2 = es at moved ⊢
  cases moved with
  | still => exact Nat.le_refl _
  | drafted id lease same => exact Store.length_draft ..
  | turn name turned => exact Nat.le_of_eq turned.table_length.symm
  | turns name free phase ended last =>
    exact Nat.le_of_eq (by rw [last.table_length, (Moved.first_turn s m phase ended).table_length])

end Service

namespace Static

/-- An outcome in line: its ticket is waited for or out of date, and a lease that it hands over has its name and was
asked for. -/
structure Stands (s : Service) (c : Callback) : Prop where
  recalls : (s.sessionOf c.ticket.device).Recalls c.ticket
  made : ∀ t id, c = .obtained t id → id < s.store.table.length ∧ t.request.isSome

structure Desk.Tidy (d : Desk) : Prop where
  sessions : d.service.SessionsSound
  line : ∀ c ∈ d.line, Stands d.service c

variable {s : Service} {d : Desk} {t : Ticket} {device : Scalar}

theorem Desk.Tidy.moved (tidy : d.Tidy) (m : Service.Move) : Desk.Tidy ⟨(d.service.step m).1, d.line⟩ where
  sessions := Service.step_sessions_sound tidy.sessions m
  line c queued := {
    recalls := (d.service.step_ticketing m c.ticket.device).recalls (tidy.sessions c.ticket.device)
      (tidy.line c queued).recalls
    made := fun t id same => ((tidy.line c queued).made t id same).imp_left fun inside =>
      Nat.lt_of_lt_of_le inside (d.service.step_table_length m) }

/-- Looking at a session, or opening it, changes nothing for the outcomes in line. -/
theorem Desk.Tidy.look (tidy : d.Tidy) {x : Session} {opened : Service}
    (opens : d.service.openSession device = .ok (x, opened)) : Desk.Tidy ⟨opened, d.line⟩ := by
  obtain ⟨rfl, b⟩ := Service.openSession_ok opens
  have same (other : Scalar) : opened.sessionOf other = d.service.sessionOf other ∨
      opened.sessionOf other = d.service.sessionOf device ∧ other.key = device.key := by
    by_cases here : other.key = device.key
    · exact Or.inr ⟨b.sessionOf_here here, here⟩
    · exact Or.inl (b.sessionOf_elsewhere here)
  refine ⟨fun other => ?_, fun c queued => ⟨?_, b.store ▸ (tidy.line c queued).made⟩⟩
  · obtain same | ⟨same, -⟩ := same other
    · exact same ▸ tidy.sessions other
    · exact same ▸ tidy.sessions device
  · have recalls := (tidy.line c queued).recalls
    obtain same | ⟨same, here⟩ := same c.ticket.device
    · exact same ▸ recalls
    · rw [d.service.sessionOf_congr here] at recalls
      rw [same]
      exact recalls.imp id fun past => ⟨past.reached, past.waiting⟩

theorem Desk.Tidy.add (tidy : d.Tidy) {c : Callback} (stands : Stands d.service c) :
    Desk.Tidy ⟨d.service, d.line ++ [c]⟩ := by
  refine ⟨tidy.sessions, fun other queued => ?_⟩
  obtain queued | rfl := List.mem_append.mp queued |>.imp_right List.mem_singleton.mp
  · exact tidy.line other queued
  · exact stands

/-- What an accepted call asks for comes to the end of the line. -/
theorem Desk.Tidy.asked {ε α : Type} {o : Outcome ε α} {phase : Phase} {ask : Effect}
    (moved : Desk.Tidy ⟨o.service, d.line⟩) (asked : Asked s device phase t ask o.effects o.service)
    (named : t.device = device) (asks : ask = .start t ∨ ∃ id, ask = .release t id) : (d.after o).Tidy := by
  obtain ⟨x, old, b⟩ := asked.session
  have waiting : (o.service.sessionOf t.device).ticket = some t := by
    rw [named, b.sessionOf_here rfl]
    rfl
  rw [d.after_asked o asked]
  rcases asks with rfl | ⟨id, rfl⟩
  · cases request : t.request with
    | none => simpa only [follow, request] using moved
    | some r =>
      -- The lease is written for the request, and takes the next name.
      have written : Desk.Tidy ⟨{ o.service with store := (o.service.store.makeLease (lease r)).2 }, d.line⟩ := by
        refine ⟨moved.sessions, fun c queued => ⟨(moved.line c queued).recalls, fun u id same => ?_⟩⟩
        refine ((moved.line c queued).made u id same).imp_left fun inside => ?_
        simpa [Store.makeLease] using Nat.lt_succ_of_lt inside
      simp only [follow, request]
      refine written.add ⟨Or.inl waiting, ?_⟩
      rintro u id ⟨rfl, rfl⟩
      exact ⟨by simp [Store.makeLease], by simp [request]⟩
  · refine moved.add ⟨Or.inl waiting, ?_⟩
    rintro u id ⟨⟩

theorem Desk.Tidy.acquire (tidy : d.Tidy) (device : Scalar) (options : Value) (intake : Intake) :
    (d.after (d.service.acquire device options intake (reply true))).Tidy := by
  have moved := tidy.moved (.acquire device options intake .accepted)
  obtain ⟨fault, same⟩ | ⟨r, t, -, -, named, -, asked⟩ := acquire_cases d.service device options intake
  · rw [show reply true = .accepted from rfl, same, d.after_quiet _ (by simp)]
    exact tidy
  · exact moved.asked asked named (Or.inl rfl)

theorem Desk.Tidy.release (tidy : d.Tidy) (device : Scalar) (uuid : Option Bytes) :
    (d.after (d.service.release device uuid (reply true))).Tidy := by
  have moved := tidy.moved (.release device uuid .accepted)
  obtain ⟨-, silent, -⟩ | ⟨-, quiet, -⟩ | ⟨t, id, -, named, -, asked⟩ := release_cases d.service device uuid
  · rw [show reply true = .accepted from rfl, d.after_quiet _ (by simp [silent])]
    exact moved
  · rw [show reply true = .accepted from rfl, d.after_quiet _ quiet]
    exact moved
  · exact moved.asked asked named (Or.inr ⟨id, rfl⟩)

/-- A report of an outcome in line tells of the request in flight. -/
theorem Desk.Tidy.report_events (tidy : d.Tidy) {c : Callback} (queued : c ∈ d.line) (now : Moment) :
    ∀ e ∈ Host.events (d.service.step (c.move now)).2, e.kind = .acquired →
      e.requestUuid = d.service.pursued e.device ∧ e.requestUuid ≠ none := by
  cases found : d.service.currentSession? c.ticket with
  | none =>
    rw [Service.report_unheard (move_report now c) found]
    simp [Host.events]
  | some x =>
    obtain ⟨present, current⟩ := Service.currentSession?_some found
    have stands := tidy.line c queued
    have waiting := stands.recalls.waiting (Service.sessionOf_eq present ▸ current)
    cases c with
    | returned t =>
      simp only [Callback.move, Service.step, Service.completeRelease_current t found]
      simp [Host.events, Service.released]
    | obtained t id =>
      obtain ⟨inside, request⟩ := stands.made t id rfl
      obtain ⟨r, request⟩ := Option.isSome_iff_exists.mp request
      have pursued : d.service.pursued t.device = some r.uuid := by
        rw [Service.pursued, Session.pursued, show (d.service.sessionOf t.device).ticket = some t from waiting]
        simp [request]
      have stamped : ((d.service.storeObtained t x.lease id now).lease id).uuid = r.uuid := by
        rw [Service.storeObtained_lease, if_pos ⟨rfl, inside⟩, request]
        rfl
      simp only [Callback.move, Service.step, Service.completeAcquire_current t id now found]
      intro e told _
      obtain rfl := List.mem_singleton.mp told
      simp only [stamped, pursued]
      simp

/-- After a report a request is in flight only if it was before. -/
theorem report_pursued (s : Service) (c : Callback) (now : Moment) (device : Scalar) :
    (s.step (c.move now)).1.pursued device = none ∨ (s.step (c.move now)).1.pursued device = s.pursued device := by
  have quiet : (c.move now).accepted (s.step (c.move now)).2 = [] := by
    cases found : s.currentSession? c.ticket with
    | none =>
      rw [Service.report_unheard (move_report now c) found]
      simp [Service.Move.accepted]
    | some x =>
      obtain ⟨e, told⟩ := (Service.report_heard (move_report now c) found).told
      rw [told]
      simp [Service.Move.accepted]
  have ticketing := s.step_ticketing (c.move now) device
  rw [quiet] at ticketing
  unfold Service.pursued Session.pursued
  generalize (s.step (c.move now)).1.sessionOf device = next at ticketing ⊢
  cases ticketing with
  | kept ticket => exact Or.inr (by rw [ticket])
  | ended ticket => exact Or.inl (by rw [ticket]; rfl)

end Static

namespace Host

open Static (Desk)

/-- A call of a name listens to a device, and of outcomes of acquisitions it has heard of admissible ones only. -/
structure Attends (name : String) (device : Scalar) (q : Event → Prop) (h : Host) : Prop where
  subscriptions : ∀ s ∈ h.bus.subscriptions, s.name = name → s.device = some device
  waiters : ∀ w ∈ h.bus.waiters, w.name ≠ name
  mail : ∀ letter ∈ h.mail, letter.1 = name → letter.2.kind = .acquired → q letter.2

/-- The host of a server: its negotiator assigns leases by itself, and its outcomes wait in line. -/
structure Tended (h : Host) : Prop where
  negotiator : h.negotiator = .static true
  desk : Desk.Tidy ⟨h.service, h.callbacks⟩

variable {h next : Host} {name : String} {device : Scalar} {q : Event → Prop}

namespace Attends

theorem mono {q' : Event → Prop} (attends : h.Attends name device q) (implies : ∀ e, q e → q' e) :
    h.Attends name device q' :=
  ⟨attends.subscriptions, attends.waiters, fun letter member mine kind =>
    implies _ (attends.mail letter member mine kind)⟩

theorem aside (attends : h.Attends name device q) (bus : next.bus = h.bus) (mail : next.mail = h.mail) :
    next.Attends name device q :=
  ⟨bus ▸ attends.subscriptions, bus ▸ attends.waiters, mail ▸ attends.mail⟩

theorem publish (attends : h.Attends name device q) (e : Event)
    (admissible : device.key = e.device.key → e.kind = .acquired → q e) : (h.publish e).Attends name device q := by
  refine ⟨attends.subscriptions, ?_, ?_⟩
  · intro w member
    exact attends.waiters w (List.mem_filter.mp member).1
  · intro letter member mine kind
    obtain old | new := List.mem_append.mp member
    · exact attends.mail letter old mine kind
    · obtain ⟨addressee, addressed, rfl⟩ := List.mem_map.mp new
      -- Only its subscription brings mail to the call, and only about its device.
      rcases List.mem_append.mp (List.mem_filter.mp addressed).1 with observing | waiting
      · obtain ⟨s, observes, rfl⟩ := List.mem_map.mp observing
        obtain ⟨there, concerned⟩ := List.mem_filter.mp observes
        have concerned : concerns s.device e = true := concerned
        rw [attends.subscriptions s there mine] at concerned
        exact admissible (Scalar.isKey_iff.mp concerned) kind
      · obtain ⟨w, waits, rfl⟩ := List.mem_map.mp waiting
        exact absurd mine (attends.waiters w (List.mem_filter.mp waits).1)

theorem told (attends : h.Attends name device q) (service : Service) {es : List Effect}
    (admissible : ∀ e ∈ events es, device.key = e.device.key → e.kind = .acquired → q e) :
    (h.told service es).Attends name device q := by
  unfold Host.told
  have start : ({ h with service := service } : Host).Attends name device q := attends.aside rfl rfl
  exact List.foldlRecOn (motive := Attends name device q) (events es) _ start
    fun h attends e told => attends.publish e (admissible e told)

theorem after {ε α : Type} (attends : h.Attends name device q) {o : Outcome ε α}
    (released : ∀ e ∈ events o.effects, e.kind = .released) : (h.after o).Attends name device q := by
  generalize asked : h.negotiator.advance o h.callbacks = line
  simp only [Host.after, asked]
  refine Attends.told (h := { h with callbacks := line.2 }) (attends.aside rfl rfl) line.1 ?_
  intro e told _ kind
  rw [released e told] at kind
  cases kind

theorem leave (attends : h.Attends name device q) (w : Tools.Waiting) : (w.leave h).Attends name device q := by
  have subscriptions : ∀ s ∈ (h.bus.cancel w.name).subscriptions, s ∈ h.bus.subscriptions := by
    intro s member
    unfold Bus.cancel at member
    split at member
    · exact (List.mem_filter.mp member).1
    · exact member
  have waiters : (h.bus.cancel w.name).waiters = h.bus.waiters := by unfold Bus.cancel; split <;> rfl
  refine ⟨fun s member => attends.subscriptions s (subscriptions s member), ?_, ?_⟩
  · intro waiter member
    exact attends.waiters waiter (waiters ▸ (List.mem_filter.mp member).1)
  · intro letter member
    exact attends.mail letter (List.mem_filter.mp member).1

end Attends

theorem told_rest (h : Host) (service : Service) (es : List Effect) :
    (h.told service es).service = service ∧ (h.told service es).callbacks = h.callbacks ∧
      (h.told service es).negotiator = h.negotiator := by
  unfold told
  exact List.foldlRecOn
    (motive := fun next : Host => next.service = service ∧ next.callbacks = h.callbacks ∧
      next.negotiator = h.negotiator) (events es) _ ⟨rfl, rfl, rfl⟩ fun _ same _ _ => same

namespace Tended

theorem beside (tended : h.Tended) (beside : h.Beside next) : next.Tended :=
  ⟨beside.negotiator.trans tended.negotiator, by rw [beside.service, beside.callbacks]; exact tended.desk⟩

theorem of_told {service : Service} (static : h.negotiator = .static true)
    (tidy : Desk.Tidy ⟨service, h.callbacks⟩) (es : List Effect) : (h.told service es).Tended := by
  obtain ⟨same, callbacks, negotiator⟩ := told_rest h service es
  refine ⟨negotiator.trans static, ?_⟩
  rw [same, callbacks]
  exact tidy

theorem advance {ε α : Type} (tended : h.Tended) (o : Outcome ε α) : h.negotiator.advance o h.callbacks =
    (((⟨h.service, h.callbacks⟩ : Desk).after o).service, ((⟨h.service, h.callbacks⟩ : Desk).after o).line) := by
  rw [tended.negotiator]
  rfl

theorem after {ε α : Type} (tended : h.Tended) {o : Outcome ε α}
    (tidy : ((⟨h.service, h.callbacks⟩ : Desk).after o).Tidy) : (h.after o).Tended := by
  simp only [Host.after, tended.advance o]
  exact of_told (h := { h with callbacks := ((⟨h.service, h.callbacks⟩ : Desk).after o).line }) tended.negotiator tidy _

theorem after_service {ε α : Type} (tended : h.Tended) (o : Outcome ε α) :
    (h.after o).service = ((⟨h.service, h.callbacks⟩ : Desk).after o).service := by
  simp only [Host.after, tended.advance o]
  exact (told_rest _ _ _).1

theorem acquire (tended : h.Tended) (device : Scalar) (options : Value) (intake : Intake) :
    (h.acquire device options intake).2.Tended := by
  unfold Host.acquire
  rw [tended.negotiator]
  exact tended.after (tended.desk.acquire device options intake)

theorem drop (tended : h.Tended) (device : Scalar) (uuid : Value) : (h.drop device uuid).2.Tended := by
  unfold Host.drop Remote.drop
  rw [tended.negotiator]
  cases Remote.leaseUuid uuid with
  | error fault =>
    apply tended.after
    rw [Desk.after_quiet _ _ (by simp)]
    exact tended.desk
  | ok uuid => exact tended.after (tended.desk.release device uuid)

theorem kept (name : String) : Lasts Tended name where
  beside tended same := tended.beside same
  look tended opens := ⟨tended.negotiator, tended.desk.look opens⟩
  acquire tended device options intake := tended.acquire device options intake
  drop tended device uuid := tended.drop device uuid
  subscribe tended _ _ := ⟨tended.negotiator, tended.desk⟩
  await tended _ _ := ⟨tended.negotiator, tended.desk⟩
  leave tended _ := ⟨tended.negotiator, tended.desk⟩

theorem reported (tended : h.Tended) (c : Callback) (now : Moment) {line : List Callback}
    (left : ∀ c ∈ line, c ∈ h.callbacks) :
    (({ h with callbacks := line } : Host).told (h.service.step (c.move now)).1
      (h.service.step (c.move now)).2).Tended := by
  have moved := tended.desk.moved (c.move now)
  exact of_told (h := { h with callbacks := line }) tended.negotiator
    ⟨moved.sessions, fun c there => moved.line c (left c there)⟩ _

theorem between : LastsBetween Tended where
  beside tended same := tended.beside same
  leave tended _ := ⟨tended.negotiator, tended.desk⟩
  reported tended c _ now _ left := tended.reported c now left

theorem ofInventory {inv : Inventory} {now : Moment} {timeout : Binary64}
    (made : Host.ofInventory inv now = .ok (h, timeout)) : h.Tended := by
  obtain ⟨devices, mode, registry, rfl⟩ := ofInventory_ok made
  exact ⟨rfl, Service.initial_sessions_sound devices mode, fun _ queued => absurd queued List.not_mem_nil⟩

end Tended

/-- A call that comes to the bus has heard of nothing yet. -/
theorem Attends.subscribed (fresh : h.Named (· ≠ name)) (other : name ≠ engineName) (observer : Nat) :
    ({ h with bus := h.bus.subscribe name observer (some device) } : Host).Attends name device fun _ => False := by
  refine ⟨fun s member mine => ?_, fresh.waiters, fun letter member mine => absurd mine (fresh.mail letter member)⟩
  obtain old | new := List.mem_append.mp member
  · exact absurd mine (fresh.subscribers s old (mine ▸ other))
  · obtain rfl := List.mem_singleton.mp new
    rfl

/-- An acquisition that is accepted has its request in flight. -/
theorem Tended.acquire_pursued (tended : h.Tended) (device : Scalar) (options : Value) (intake : Intake) :
    (∃ fault, (h.acquire device options intake).1 = .error fault) ∨
      ∃ r, Request.ofOptions intake options = .ok r ∧ (h.acquire device options intake).1 = .ok () ∧
        (h.acquire device options intake).2.service.pursued device = some r.uuid := by
  have started : h.negotiator.start = .accepted := by
    rw [tended.negotiator]
    rfl
  simp only [Host.acquire, Remote.acquire, started]
  obtain ⟨fault, same⟩ | ⟨r, t, read, ok, rfl, request, asked⟩ :=
    Static.acquire_cases h.service device options intake
  · exact Or.inl ⟨_, by rw [same]; rfl⟩
  · refine Or.inr ⟨r, read, by simp only [Outcome.reported, ok]; rfl, ?_⟩
    obtain ⟨x, old, b⟩ := asked.session
    have waiting : (h.service.acquire t.device options intake .accepted).service.pursued t.device = some r.uuid := by
      rw [Service.pursued, b.sessionOf_here rfl]
      simp [Session.pursued, Session.attempt, request]
    rw [tended.after_service]
    change (Desk.after _ (h.service.acquire t.device options intake .accepted)).service.pursued _ = _
    rw [Desk.after_asked _ _ asked]
    simp only [Static.follow, request]
    exact waiting

theorem Attends.kept {other : String} (apart : other ≠ name) : Lasts (Attends name device q) other where
  beside attends same := attends.aside same.bus same.mail
  look attends _ := attends.aside rfl rfl
  acquire attends _ _ _ := attends.after (Service.acquire_events _ _ _ _ _)
  drop attends _ uuid := by
    refine attends.after ?_
    unfold Remote.drop
    cases Remote.leaseUuid uuid with
    | error fault => simp [events]
    | ok uuid => exact Service.release_events _ _ _ _
  subscribe attends _ _ := by
    refine ⟨fun s member mine => ?_, attends.waiters, attends.mail⟩
    obtain old | new := List.mem_append.mp member
    · exact attends.subscriptions s old mine
    · obtain rfl := List.mem_singleton.mp new
      exact absurd mine apart
  await attends w named := by
    refine ⟨attends.subscriptions, fun waiter member => ?_, attends.mail⟩
    obtain old | new := List.mem_append.mp member
    · exact attends.waiters waiter old
    · obtain rfl := List.mem_singleton.mp new
      exact named ▸ apart
  leave attends w := attends.leave w

structure Follows (name : String) (device : Scalar) (q : Event → Prop) (uuid : Option Bytes) (h : Host) : Prop where
  tended : h.Tended
  attends : h.Attends name device q
  pursued : h.service.pursued device = none ∨ h.service.pursued device = uuid

theorem Follows.between {uuid : Option Bytes}
    (admits : ∀ e : Event, e.requestUuid = uuid → e.requestUuid ≠ none → q e) :
    LastsBetween (Follows name device q uuid) where
  beside follows same :=
    ⟨follows.tended.beside same, follows.attends.aside same.bus same.mail, same.service ▸ follows.pursued⟩
  leave follows w := ⟨⟨follows.tended.negotiator, follows.tended.desk⟩, follows.attends.leave w, follows.pursued⟩
  reported {h} follows c queued now line left := by
    refine ⟨follows.tended.reported c now left, ?_, ?_⟩
    · refine Attends.told (h := { h with callbacks := line }) (follows.attends.aside rfl rfl) _ ?_
      intro e member same kind
      obtain ⟨about, some⟩ := follows.tended.desk.report_events queued now e member kind
      rw [← h.service.pursued_congr same] at about
      obtain none | about' := follows.pursued
      · exact absurd (about.trans none) some
      · exact admits e (about.trans about') some
    · rw [(told_rest { h with callbacks := line } _ _).1]
      obtain none | same := Static.report_pursued h.service c now device
      · exact Or.inl none
      · rw [same]
        exact follows.pursued

end Host

namespace Tools

open Host (Attends Tended Follows)

variable {h : Host} {device : Scalar} {q : Event → Prop} {w : Waiting}

/-- What a call that waits for an event may have come to, if it may hear of admissible events only. -/
inductive Stage.Reports (w : Waiting) (q : Event → Prop) : Stage → Prop
  | refused (fault : Fault) : Reports w q (.answered fault.answer)
  | waiting : Reports w q (.waiting w)
  | expired : Reports w q (.answered w.expired)
  | draining (e : Event) (task : Nat) (heard : q e) : Reports w q (.draining w e task)
  | completed (e : Event) (pass : Option PassResult) (heard : q e) : Reports w q (.answered (w.completed e pass))

namespace Stage.Reports

variable {stage : Stage}

theorem mono {q' : Event → Prop} (reports : Stage.Reports w q stage) (implies : ∀ e, q e → q' e) :
    Stage.Reports w q' stage := by
  cases reports with
  | refused fault => exact .refused fault
  | waiting => exact .waiting
  | expired => exact .expired
  | draining e task heard => exact .draining e task (implies e heard)
  | completed e pass heard => exact .completed e pass (implies e heard)

theorem receive (h : Host) {e : Event} (heard : q e) : Stage.Reports w q (w.receive h e).2 := by
  unfold Waiting.receive
  simp only
  split
  · exact .completed e none heard
  · split
    · exact .draining e _ heard
    · exact .completed e none heard

theorem heard_of_arrived (attends : h.Attends w.name device q) (wants : w.kind = some .acquired) {e : Event}
    (arrived : w.arrived? h = some e) : q e := by
  obtain ⟨letter, found, rfl⟩ := Option.map_eq_some_iff.mp arrived
  have there := List.mem_of_find?_eq_some found
  have fits := List.find?_some found
  simp only [wants, Option.all_some, Bool.and_eq_true, beq_iff_eq, decide_eq_true_eq] at fits
  exact attends.mail letter there fits.1 fits.2.symm

theorem advance (attends : h.Attends w.name device q) (wants : w.kind = some .acquired)
    (reports : Stage.Reports w q stage) : Stage.Reports w q (stage.advance h).2 := by
  cases reports with
  | refused fault => exact .refused fault
  | expired => exact .expired
  | completed e pass heard => exact .completed e pass heard
  | waiting =>
    simp only [Stage.advance]
    split
    next e arrived => exact .receive h (heard_of_arrived attends wants arrived)
    next => exact .waiting
  | draining e task heard =>
    simp only [Stage.advance]
    split
    · exact .completed e _ heard
    · exact .draining e task heard

theorem giveUp (attends : h.Attends w.name device q) (wants : w.kind = some .acquired)
    (reports : Stage.Reports w q stage) : Stage.Reports w q (stage.giveUp h).2 := by
  cases reports with
  | refused fault => exact .refused fault
  | waiting =>
    simp only [Stage.giveUp]
    split
    next e arrived => exact .receive h (heard_of_arrived attends wants arrived)
    next => exact .expired
  | expired => exact .expired
  | draining e task heard => exact .draining e task heard
  | completed e pass heard => exact .completed e pass heard

end Stage.Reports

theorem deviceFilter_eq (named : device ≠ .null) : deviceFilter device = some device := by
  unfold deviceFilter
  split
  · exact absurd rfl named
  · rfl

/-- A call that begins to wait has heard of nothing yet. -/
theorem Waiting.wait_reports (attends : h.Attends w.name device fun _ => False) (wants : w.kind = some .acquired) :
    Stage.Reports w (fun _ => False) (.ofResult (w.wait h).2) := by
  unfold wait
  split
  · exact .refused _
  next e _ arrived => exact (Stage.Reports.heard_of_arrived attends wants arrived).elim
  · exact .expired
  · exact .waiting

variable {arguments : Entries} {shown : Value} {name : String}

def awaiting (name : String) (shown : Value) (arguments : Entries) : Waiting :=
  ⟨name, .acquire, some .acquired, shown, timeoutOf arguments⟩

/-- A call of `acquire` that is to wait: it is refused, or its request is in flight; it listens, and has heard of
nothing yet. -/
theorem acquire_awaits (intake : Intake) (tended : h.Tended) (unheard : h.Named (· ≠ name))
    (other : name ≠ Host.engineName) (known : deviceOf h arguments = .ok (shown, device)) (named : device ≠ .null)
    (waits : (given arguments "wait" (.bool false)).isTruthy = true) :
    let r := acquire h name intake arguments
    (r.1.Tended ∧ r.1.Attends name device fun _ => False) ∧
      Stage.Reports (awaiting name shown arguments) (fun _ => False) (.ofResult r.2) ∧
      ((∃ fault, r.2 = .error fault) ∨ ∃ request,
        Request.ofOptions intake (given arguments "options" .null) = .ok request ∧
        r.1.service.pursued device = some request.uuid) := by
  simp only [acquire, known, run, waits, if_true, Waiting.start, deviceFilter_eq named]
  have listening : ({ h with bus := h.bus.subscribe name 1 (some device) } : Host).Tended :=
    ⟨tended.negotiator, tended.desk⟩
  have attends : ({ h with bus := h.bus.subscribe name 1 (some device) } : Host).Attends name device fun _ => False :=
    .subscribed unheard other 1
  generalize ({ h with bus := h.bus.subscribe name 1 (some device) } : Host) = h at listening attends ⊢
  have begun := listening.acquire device (given arguments "options" .null) intake
  have hears : (h.acquire device (given arguments "options" .null) intake).2.Attends name device fun _ => False :=
    attends.after (Service.acquire_events _ _ _ _ _)
  have pursued := listening.acquire_pursued device (given arguments "options" .null) intake
  generalize h.acquire device (given arguments "options" .null) intake = started at begun hears pursued ⊢
  obtain ⟨fault | _, h⟩ := started
  · exact ⟨⟨⟨begun.negotiator, begun.desk⟩, hears.leave _⟩, .refused _, Or.inl ⟨_, rfl⟩⟩
  · obtain ⟨fault, failed⟩ | ⟨request, read, -, pursued⟩ := pursued
    · cases failed
    have kept : ((awaiting name shown arguments).wait h).1.Tended :=
      Waiting.wait_keeps (Tended.kept name).leave _ begun
    obtain ⟨bus, mail, same⟩ := (awaiting name shown arguments).wait_aside h
    refine ⟨⟨kept, Waiting.wait_keeps (fun attends => attends.leave) _ hears⟩,
      Waiting.wait_reports hears rfl, Or.inr ⟨request, read, ?_⟩⟩
    change ((awaiting name shown arguments).wait h).1.service.pursued device = _
    rw [same]
    exact pursued

def Stage.toldUuid? : Stage → Option String
  | .answered (.document (.map answer)) =>
    match Entries.field? answer "event" with
    | some (.map event) =>
      match Entries.field? event "request_uuid" with
      | some (.scalar (.str uuid)) => some uuid
      | _ => none
    | _ => none
  | _ => none

namespace Server

def pursued (s : Server) (device : Scalar) : Option Bytes :=
  s.opened.bind fun opened => opened.1.service.pursued device

/-- A call that waits for the outcome of an acquisition, and what it may hear of. -/
structure Tracks (s : Server) (place number : Nat) (w : Waiting) (device : Scalar) (q : Event → Prop) : Prop where
  made : number < s.made
  host : s.Holds fun h => h.Tended ∧ h.Attends w.name device q
  stage : s.At place (Stage.Reports w q)

variable {s : Server} {m : Move} {place number : Nat}

theorem Tracks.mono {q' : Event → Prop} (tracks : s.Tracks place number w device q) (implies : ∀ e, q e → q' e) :
    s.Tracks place number w device q' :=
  ⟨tracks.made, tracks.host.mono fun _ holds => ⟨holds.1, holds.2.mono implies⟩,
    tracks.stage.mono fun _ reports => reports.mono implies⟩

theorem attends_made {inv : Inventory} {now : Moment} {timeout : Binary64} {name : String}
    (made : Host.ofInventory inv now = .ok (h, timeout)) (other : name ≠ Host.engineName) :
    h.Attends name device q := by
  have named : h.Named fun _ => False := ofInventory_named made
  refine ⟨fun s member mine => ?_, fun w member => (named.waiters w member).elim,
    fun letter member => (named.mail letter member).elim⟩
  exact (named.subscribers s member (mine ▸ other)).elim

theorem callName_ne_engine (n : Nat) : callName n ≠ Host.engineName := by
  intro same
  have first := congrArg (fun name : String => name.toList.head?) same
  simp [callName, Host.engineName] at first

/-- Of a move a call hears at most of the request in flight before it. -/
theorem Tracks.step {q' : Event → Prop} (tracks : s.Tracks place number w device q) (named : w.name = callName number)
    (wants : w.kind = some .acquired) (alone : s.Alone m) (stays : m ≠ .handOut) (implies : ∀ e, q e → q' e)
    (admits : ∀ e : Event, e.requestUuid = s.pursued device → e.requestUuid ≠ none → q' e) :
    (s.step m).Tracks place number w device q' := by
  have tracks := tracks.mono implies
  have follows : s.Holds (Follows w.name device q' (s.pursued device)) := by
    intro h timeout standing
    obtain ⟨tended, attends⟩ := tracks.host h timeout standing
    exact ⟨tended, attends, Or.inr (by simp [pursued, standing])⟩
  refine ⟨Nat.lt_of_lt_of_le tracks.made (s.step_made m), ?_, ?_⟩
  · by_cases calls : ∃ intake inquiry, m = .take intake inquiry
    · obtain ⟨intake, inquiry, rfl⟩ := calls
      have apart : callName s.made ≠ w.name := by
        rw [named]
        exact fun same => Nat.ne_of_gt tracks.made (callName_injective same)
      exact take_holds (fun made => ⟨.ofInventory made, attends_made made (named ▸ callName_ne_engine number)⟩)
        ((Tended.kept _).and (Attends.kept apart)) tracks.host intake inquiry
    · have held : (s.step m).Holds (Follows w.name device q' (s.pursued device)) :=
        step_holds (Follows.between admits) alone
          (fun intake inquiry taken => absurd ⟨intake, inquiry, taken⟩ calls) follows
      exact held.mono fun _ follows => ⟨follows.tended, follows.attends⟩
  · exact step_at (Follows.between admits) stays follows (fun follows _ there => there.advance follows.attends wants)
      (fun follows _ there => there.giveUp follows.attends wants) tracks.stage

theorem Tracks.run (tracks : s.Tracks place number w device q) (named : w.name = callName number)
    (wants : w.kind = some .acquired) {moves : List Move} (alone : s.AloneAll moves) (stays : .handOut ∉ moves) :
    (s.run moves).Tracks place number w device fun e => q e ∨
      ∃ first, first <+: moves ∧ (s.run first).pursued device = e.requestUuid ∧ e.requestUuid ≠ none := by
  induction moves generalizing s q with
  | nil => exact tracks.mono fun _ => Or.inl
  | cons m rest ih =>
    have stepped : (s.step m).Tracks place number w device fun e =>
        q e ∨ s.pursued device = e.requestUuid ∧ e.requestUuid ≠ none :=
      tracks.step named wants alone.1 (Ne.symm (List.ne_of_not_mem_cons stays)) (fun _ => Or.inl)
        fun e same some => Or.inr ⟨same.symm, some⟩
    refine (ih stepped alone.2 (List.not_mem_of_not_mem_cons stays)).mono fun e heard => ?_
    rcases heard with (old | now) | ⟨first, begins, later⟩
    · exact Or.inl old
    · exact Or.inr ⟨[], List.nil_prefix, now⟩
    · exact Or.inr ⟨m :: first, List.prefix_cons_inj m |>.mpr begins, later⟩

theorem call_acquire {timeout : Binary64} (found : s.host = .ok (h, timeout)) (intake : Intake) (arguments : Entries) :
    s.call intake "acquire" arguments =
      { s with
        opened := some ((acquire h (callName s.made) intake arguments).1, timeout)
        made := s.made + 1
        calls := s.calls ++ [⟨given arguments "device" (.str "N/A"),
          .ofResult (acquire h (callName s.made) intake arguments).2⟩] } := by
  unfold Server.call
  rw [found]
  rfl

theorem Holds.of_initial (now : Moment) (document : Except Yaml.Fault Value) (path : String)
    (process : Kind → Role → Except SystemFault Child) (p : Host → Prop) :
    (initial now document path process).Holds p := by
  intro h timeout standing
  cases standing

theorem run_tended (tended : s.Holds Tended) {moves : List Move} (alone : s.AloneAll moves) :
    (s.run moves).Holds Tended := by
  induction moves generalizing s with
  | nil => exact tended
  | cons m rest ih =>
    refine ih (step_holds Tended.between alone.1 ?_ tended) alone.2
    rintro intake inquiry rfl
    exact take_holds Tended.ofInventory (Tended.kept _) tended intake inquiry

/-- A call of `acquire` that waits, in any state that a server can come to: unless it is refused, its own request is in
flight when it begins to wait. What it reports in the end, if anything, is the outcome of a request for its device that
was in flight since; so it is the outcome of its own request as long as no other request took its place. -/
theorem awaited_outcome_pursued (now : Moment) (document : Except Yaml.Fault Value) (path : String)
    (process : Kind → Role → Except SystemFault Child) (moves later : List Move) (intake : Intake) (arguments : Entries)
    {timeout : Binary64} (found : ((initial now document path process).run moves).host = .ok (h, timeout))
    (known : deviceOf h arguments = .ok (shown, device)) (named : device ≠ .null)
    (waits : (given arguments "wait" (.bool false)).isTruthy = true)
    (alone : (initial now document path process).AloneAll (moves ++ .take intake (.call "acquire" arguments) :: later))
    (stays : .handOut ∉ later) :
    let s := (initial now document path process).run moves
    let asked := s.call intake "acquire" arguments
    let w := awaiting (callName s.made) shown arguments
    ((∃ fault : Fault, asked.At s.calls.length (· = .answered fault.answer)) ∨
      ∃ request, Request.ofOptions intake (given arguments "options" .null) = .ok request ∧
        asked.pursued device = some request.uuid) ∧
    (asked.run later).At s.calls.length (Stage.Reports w fun e =>
      ∃ first, first <+: later ∧ (asked.run first).pursued device = e.requestUuid ∧ e.requestUuid ≠ none) ∧
    ((∀ first, first <+: later → ∀ uuid, (asked.run first).pursued device = some uuid →
        asked.pursued device = some uuid) →
      (asked.run later).At s.calls.length (Stage.Reports w fun e => e.requestUuid = asked.pursued device)) := by
  intro s asked w
  obtain ⟨alone, -, later_alone⟩ := aloneAll_append.mp alone
  have tended : s.Holds Tended := run_tended (.of_initial now document path process Tended) alone
  have wired : s.Wired := (initial_wired now document path process).run moves
  obtain ⟨⟨begun, hears⟩, reports, pursued⟩ := acquire_awaits intake
    (tended.host Tended.ofInventory found) (wired.fresh found) (callName_ne_engine s.made) known named waits
  have call : asked = _ := call_acquire found intake arguments
  have place {r : Stage → Prop} (stage : r (.ofResult (acquire h (callName s.made) intake arguments).2)) :
      asked.At s.calls.length r := ⟨s.calls, _, [], by rw [call], rfl, stage⟩
  have tracks : asked.Tracks s.calls.length s.made w device fun _ => False := by
    refine ⟨by rw [call]; exact Nat.lt_succ_self _, ?_, place reports⟩
    rw [call]
    rintro _ _ ⟨rfl, rfl⟩
    exact ⟨begun, hears⟩
  have later := (tracks.run rfl rfl later_alone stays).mono fun e heard => heard.resolve_left id
  refine ⟨?_, later.stage, fun undisturbed => later.stage.mono fun _ reports => reports.mono ?_⟩
  · obtain ⟨fault, refused⟩ | ⟨request, read, pursued⟩ := pursued
    · exact Or.inl ⟨fault, place (congrArg Stage.ofResult refused)⟩
    · refine Or.inr ⟨request, read, ?_⟩
      rw [call]
      exact pursued
  · rintro e ⟨first, begins, told, some⟩
    obtain ⟨uuid, same⟩ := Option.ne_none_iff_exists'.mp some
    rw [same, undisturbed first begins uuid (told.trans same)]

theorem undisturbed_call_reports_own :
    let document : Value := .map [(.str "devices", .map [(.str "eth0", .map [])])]
    let options : Value := .map [(.str "hostname", .str "a"), (.str "uuid", .scalar (.bytes (List.replicate 16 1)))]
    let arguments : Entries := [(.str "device", .str "eth0"), (.str "options", options), (.str "wait", .bool true)]
    let s := initial default (.ok document) "" fun _ _ => .ok .quiet
    let asked := s.call default "acquire" arguments
    asked.pursued (.str "eth0") = some (List.replicate 16 1) ∧
      (asked.run [.rest]).At 0 (Stage.Reports (awaiting (callName 0) (.str "eth0") arguments) fun e =>
        ∃ first, first <+: [.rest] ∧ (asked.run first).pursued (.str "eth0") = e.requestUuid ∧ e.requestUuid ≠ none) ∧
      (asked.run [.rest]).calls.map (fun c => c.stage.toldUuid?) = [some (Hex.encode (List.replicate 16 1))] := by
  intro document options arguments s asked
  have stands : (s.host.toOption.map fun opened => (opened.1.store.device? (.str "eth0")).isSome) = some true := by
    decide +kernel
  obtain ⟨⟨h, timeout⟩, host, listed⟩ := Option.map_eq_some_iff.mp stands
  have found : s.host = .ok (h, timeout) := Reading.ok_of_toOption host
  have known : deviceOf h arguments = .ok (.str "eth0", .str "eth0") := by
    change (deviceName h.store (.scalar (.str "eth0")) >>= _) = _
    simp only [deviceName, listed]
    rfl
  have reports := awaited_outcome_pursued default (.ok document) "" (fun _ _ => .ok .quiet) [] [.rest] default arguments
    found known (by decide) (by decide) ⟨trivial, trivial, trivial⟩ (by simp)
  exact ⟨by decide +kernel, reports.2.1, by decide +kernel⟩

/-- The first call waits for its own request, and is answered with the outcome of the one that took its place. -/
theorem replaced_call_reports_other :
    let document : Value := .map [(.str "devices", .map [(.str "eth0", .map [])])]
    let arguments (n : UInt8) : Entries := [(.str "device", .str "eth0"),
      (.str "options", .map [(.str "hostname", .str "a"), (.str "uuid", .scalar (.bytes (List.replicate 16 n)))]),
      (.str "wait", .bool true)]
    let asked := (initial default (.ok document) "" fun _ _ => .ok .quiet).call default "acquire" (arguments 1)
    asked.pursued (.str "eth0") = some (List.replicate 16 1) ∧
      (asked.run [.take default (.call "acquire" (arguments 2)), .rest]).calls.map (fun c => c.stage.toldUuid?) =
        [some (Hex.encode (List.replicate 16 2)), some (Hex.encode (List.replicate 16 2))] := by
  decide +kernel

end Server

end Tools

end Leasehold
