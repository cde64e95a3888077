import Leasehold.Acquisition.Static
import Leasehold.Proofs.LeaseEvents
import Leasehold.Proofs.Tickets
import Mathlib.Data.List.Perm.Basic

/-! Static assignment, seen by its callers. The outcomes of attempts that were replaced, cancelled or given up
stay in line and are reported later, against a session that has moved on. What a device is left with when
the line is empty depends on the last call for it that was accepted, and on nothing else. -/

namespace Leasehold

namespace Callback

def ticket : Callback → Ticket
  | obtained t _ => t
  | returned t => t

def lease? : Callback → Option LeaseId
  | obtained _ id => some id
  | returned _ => none

def move (now : Moment) : Callback → Service.Move
  | obtained t id => .completeAcquire t id now
  | returned t => .completeRelease t

end Callback

structure Lease.Carries (lease : Lease) (r : Request) : Prop where
  uuid : lease.uuid = r.uuid
  family : lease.family = r.family
  update : lease.update = r.updateMask
  hostname : lease.hostname = r.hostname
  resolver : lease.resolver = some ⟨r.domain, r.servers, r.search⟩ ∨
    lease.resolver = none ∧ r.servers = [] ∧ r.search = [] ∧ isGiven r.domain = false

namespace Static

inductive Accepted
  | acquire (request : Request)
  | release
deriving DecidableEq

/-- A service whose loop is running, with the outcomes that wait in line to be reported. -/
structure Desk where
  service : Service
  line : List Callback

/-- A call, or the report of an outcome in line. The loop takes the first one; nothing here depends on it. -/
inductive Move
  | acquire (device : Scalar) (options : Value) (intake : Intake)
  | release (device : Scalar) (uuid : Option Bytes)
  | report (place : Nat) (now : Moment)

namespace Desk

def initial (devices : List (Scalar × Int)) : Desk := ⟨Service.initial devices .static, []⟩

def after {ε α : Type} (d : Desk) (o : Outcome ε α) : Desk :=
  ⟨(advance true o d.line).1, (advance true o d.line).2⟩

/-- A move: the desk afterwards, and the call if it was accepted. -/
def step (d : Desk) : Move → Desk × Option (Scalar × Accepted)
  | .acquire device options intake =>
    let o := d.service.acquire device options intake (reply true)
    (d.after o,
      match o.result, Request.ofOptions intake options with
      | .ok _, .ok request => some (device, .acquire request)
      | _, _ => none)
  | .release device uuid =>
    let o := d.service.release device uuid (reply true)
    (d.after o,
      match o.result with
      | .ok _ => some (device, .release)
      | .error _ => none)
  | .report place now =>
    match d.line[place]? with
    | some c => (⟨(report d.service now c).1, d.line.eraseIdx place⟩, none)
    | none => (d, none)

def run (d : Desk) : List Move → Desk × List (Scalar × Accepted)
  | [] => (d, [])
  | m :: rest => (((d.step m).1.run rest).1, (d.step m).2.toList ++ ((d.step m).1.run rest).2)

end Desk

def last? (name : Scalar) (calls : List (Scalar × Accepted)) : Option Accepted :=
  (calls.filter fun call => call.1.isKey name).getLast?.map Prod.snd

theorem last?_append (name : Scalar) (calls : List (Scalar × Accepted)) (device : Scalar) (a : Accepted) :
    last? name (calls ++ [(device, a)]) = if device.key = name.key then some a else last? name calls := by
  by_cases same : device.key = name.key <;> simp [last?, Scalar.isKey, same]

def Leaves (s : Service) (name : Scalar) : Option Accepted → Prop
  | some (.acquire request) =>
    (s.sessionOf name).phase = .bound ∧
      ∃ id, s.store.leasesOf name = [id] ∧ (s.store.lease id).Carries request
  | some .release | none => (s.sessionOf name).phase = .idle ∧ s.store.leasesOf name = []

end Static

/-- A ticket that was given out for a session is the one it waits for, or the session is past it. -/
def Session.Recalls (x : Session) (t : Ticket) : Prop := x.ticket = some t ∨ x.Past t

theorem Session.Ticketing.recalls {x next : Session} {t : Ticket} {ts : List Ticket} (ticketing : x.Ticketing next ts)
    (sound : x.Sound) (recalls : x.Recalls t) : next.Recalls t := by
  rcases recalls with waiting | past
  · have generation := (sound.ticket t waiting).2
    cases ticketing with
    | kept ticket _ => exact Or.inl (ticket.trans waiting)
    | ended ticket later => exact Or.inr ⟨generation ▸ later, by simp [ticket]⟩
    | issued u ticket same later => exact Or.inr ⟨generation ▸ Nat.le_of_lt later, fun _ => generation ▸ later⟩
  · exact Or.inr (ticketing.past past)

theorem Session.Recalls.waiting {x : Session} {t : Ticket} (recalls : x.Recalls t) (current : x.isCurrent t = true) :
    x.ticket = some t := by
  rcases recalls with waiting | past
  · exact waiting
  · simp [past.not_current] at current

namespace Static

theorem carries_stamp (r : Request) (mode : Mode) (seqno : Int) (now : Moment) :
    (Service.stamp (lease r) mode seqno now (some r)).Carries r := by
  refine ⟨rfl, rfl, rfl, rfl, ?_⟩
  show resolver? r = _ ∨ resolver? r = none ∧ _
  unfold resolver?
  split
  next bare =>
    simp only [Bool.and_eq_true, List.isEmpty_iff, Bool.not_eq_true'] at bare
    exact Or.inr ⟨rfl, bare.1.1, bare.1.2, bare.2⟩
  next => exact Or.inl rfl

/-- An outcome in line hands over a lease that nobody has yet, made for its request. -/
structure Reserved (s : Store) (line : List Callback) : Prop where
  made : ∀ t id, .obtained t id ∈ line →
    id < s.table.length ∧ ¬ s.Holds id ∧ ∃ r, t.request = some r ∧ s.lease id = lease r
  given : ∀ t, .returned t ∈ line → t.request = none
  apart : (line.filterMap Callback.lease?).Nodup

/-- A session is on the way to what the last call asked for, or there already. -/
def Answers (s : Service) (line : List Callback) (name : Scalar) : Option Accepted → Prop
  | some (.acquire request) =>
    ((s.sessionOf name).phase = .acquiring ∧ ∃ t id, (s.sessionOf name).ticket = some t ∧
      t.request = some request ∧ .obtained t id ∈ line) ∨
    ((s.sessionOf name).phase = .bound ∧ ∃ named, s.current name = some named ∧ named.lease.Carries request)
  | some .release =>
    ((s.sessionOf name).phase = .releasing ∧ ∃ t, (s.sessionOf name).ticket = some t ∧ .returned t ∈ line) ∨
    (s.sessionOf name).phase = .idle
  | none => (s.sessionOf name).phase = .idle

/-- The outcomes in line are the ones that sessions wait for, or they come too late. -/
structure Desk.Sound (d : Desk) : Prop where
  sessions : d.service.SessionsSound
  owned : d.service.Owned
  housed : d.service.Housed
  recalls : ∀ c ∈ d.line, (d.service.sessionOf c.ticket.device).Recalls c.ticket
  reserved : Reserved d.service.store d.line

variable {s s' : Service} {line line' : List Callback} {name device : Scalar} {x : Session} {t : Ticket}
  {d : Desk} {calls : List (Scalar × Accepted)}

theorem Answers.frame {call : Option Accepted} (answers : Answers s line name call) {other : Scalar}
    (phase : (s'.sessionOf other).phase = (s.sessionOf name).phase)
    (ticket : (s'.sessionOf other).ticket = (s.sessionOf name).ticket) (current : s'.current other = s.current name)
    (kept : ∀ c ∈ line, (s.sessionOf name).ticket = some c.ticket → c ∈ line') : Answers s' line' other call := by
  unfold Answers
  rw [phase, ticket, current]
  match call, answers with
  | some (.acquire request), .inl ⟨acquiring, t, id, waiting, asked, queued⟩ =>
    exact Or.inl ⟨acquiring, t, id, waiting, asked, kept _ queued waiting⟩
  | some (.acquire request), .inr bound => exact Or.inr bound
  | some .release, .inl ⟨releasing, t, waiting, queued⟩ =>
    exact Or.inl ⟨releasing, t, waiting, kept _ queued waiting⟩
  | some .release, .inr idle => exact Or.inr idle
  | none, idle => exact idle

/-- What an accepted call asks of the negotiator: to work on a new attempt of its device's session. -/
structure Asked (s : Service) (device : Scalar) (phase : Phase) (t : Ticket) (ask : Effect) (es : List Effect)
    (s' : Service) : Prop where
  effects : ∃ quiet, es = quiet ++ [ask] ∧ ∀ e ∈ quiet, e.asked? = none
  session : ∃ (x : Session) (old : Option LeaseId),
    s.Becomes device (x.attempt phase t) (s.store.without (s.sessionOf device).device old) s'

theorem replaced_quiet (x : Session) : ∀ e ∈ x.replaced, e.asked? = none := by
  simp [Session.replaced]

theorem acquire_cases (s : Service) (device : Scalar) (options : Value) (intake : Intake) :
    let o := s.acquire device options intake .accepted
    (∃ fault, o = ⟨.error fault, s, []⟩) ∨
    ∃ r t, Request.ofOptions intake options = .ok r ∧ o.result = .ok t ∧ t.device = device ∧ t.request = some r ∧
      Asked s device .acquiring t (.start t) o.effects o.service := by
  intro o
  simp only [o, Service.acquire]
  cases Request.ofOptions intake options with
  | error fault => exact Or.inl ⟨_, rfl⟩
  | ok request =>
    cases opens : s.openSession device with
    | error fault => exact Or.inl ⟨_, rfl⟩
    | ok pair =>
      obtain ⟨x, opened⟩ := pair
      obtain ⟨same, b⟩ := Service.openSession_ok opens
      have named : x.device.key = device.key := same ▸ s.sessionOf_device device
      refine Or.inr ⟨request, _, rfl, rfl, rfl, rfl, ?_⟩
      by_cases phase : x.phase = .releasing
      · -- The release under way ends first. All that it tells is said before the attempt starts.
        simp only [Service.finishRelease_releasing opened x device phase, b.store]
        have ended := b.setSession { opened with store := s.store.without x.device x.lease } (Service.emptied x)
          rfl rfl named
        refine ⟨⟨_, rfl, fun e member => ?_⟩, Service.emptied x, x.lease, ?_⟩
        · rcases List.mem_append.mp member with told | told
          · exact Service.abandoned_quiet x _ e told
          · exact replaced_quiet (Service.emptied x) e told
        · rw [← same]
          exact ended.setSession _ ((Service.emptied x).attempt .acquiring _) rfl rfl named
      · simp only [Service.finishRelease_other opened x device phase]
        refine ⟨⟨_, rfl, replaced_quiet x⟩, x, none, ?_⟩
        exact b.store ▸ b.setSession opened (x.attempt .acquiring _) rfl rfl named

theorem release_cases (s : Service) (device : Scalar) (uuid : Option Bytes) :
    let o := s.release device uuid .accepted
    ((∃ fault, o.result = .error fault) ∧ o.effects = [] ∧
      (o.service = s ∨ s.Becomes device (s.sessionOf device) s.store o.service)) ∨
    (o.result = .ok () ∧ (∀ e ∈ o.effects, e.asked? = none) ∧
      ∃ x : Session, x.phase = .idle ∧ x.ticket = none ∧ s.Becomes device x s.store o.service) ∨
    ∃ t id, o.result = .ok () ∧ t.device = device ∧ t.request = none ∧
      Asked s device .releasing t (.release t id) o.effects o.service := by
  intro o
  simp only [o, Service.release]
  cases opens : s.openSession device with
  | error fault => exact Or.inl ⟨⟨_, rfl⟩, rfl, Or.inl rfl⟩
  | ok pair =>
    obtain ⟨x, opened⟩ := pair
    obtain ⟨same, b⟩ := Service.openSession_ok opens
    have named : x.device.key = device.key := same ▸ s.sessionOf_device device
    have still : s.Becomes device (s.sessionOf device) s.store opened := same ▸ b
    simp only
    split
    · exact Or.inl ⟨⟨_, rfl⟩, rfl, Or.inr still⟩
    · split
      next t empty waiting =>
        refine Or.inr (Or.inl ⟨rfl, by simp [Service.cancelRequest],
          { x with phase := .idle, generation := x.generation + 1, ticket := none }, rfl, rfl, ?_⟩)
        exact b.store ▸ b.setSession opened _ rfl rfl named
      next => exact Or.inl ⟨⟨_, rfl⟩, rfl, Or.inr still⟩
      next id held =>
        split
        · exact Or.inl ⟨⟨_, rfl⟩, rfl, Or.inr still⟩
        next phase =>
          refine Or.inr (Or.inr ⟨⟨device, x.generation + 1, none⟩, id, rfl, rfl, rfl, ⟨_, rfl, replaced_quiet x⟩,
            x, none, ?_⟩)
          exact b.store ▸ b.setSession opened (x.attempt .releasing _) rfl rfl named

theorem follow_quiet (quiet : List Effect) (silent : ∀ e ∈ quiet, e.asked? = none) (s : Service)
    (line : List Callback) : quiet.foldl follow (s, line) = (s, line) := by
  induction quiet with
  | nil => rfl
  | cons e rest ih =>
    have passed : follow (s, line) e = (s, line) := by
      cases e with
      | start | release => cases silent _ (.head _)
      | cancel | publish => rfl
    rw [List.foldl_cons, passed]
    exact ih fun e member => silent e (.tail _ member)

theorem Desk.after_quiet {ε α : Type} (d : Desk) (o : Outcome ε α) (quiet : ∀ e ∈ o.effects, e.asked? = none) :
    d.after o = ⟨o.service, d.line⟩ := by
  simp only [Desk.after, advance, if_true, follow_quiet o.effects quiet]

theorem Desk.after_asked {ε α : Type} (d : Desk) (o : Outcome ε α) {phase : Phase} {ask : Effect}
    (asked : Asked s device phase t ask o.effects o.service) :
    d.after o = ⟨(follow (o.service, d.line) ask).1, (follow (o.service, d.line) ask).2⟩ := by
  obtain ⟨quiet, effects, silent⟩ := asked.effects
  simp only [Desk.after, advance, if_true, effects, List.foldl_append, follow_quiet quiet silent, List.foldl_cons,
    List.foldl_nil]

theorem Reserved.subset {rest : List Callback} {c : Callback} {store : Store} (reserved : Reserved store line)
    (taken : (c :: rest).Perm line) : Reserved store rest := by
  have kept {c' : Callback} (member : c' ∈ rest) : c' ∈ line := taken.subset (.tail _ member)
  refine ⟨fun t id queued => reserved.made t id (kept queued), fun t queued => reserved.given t (kept queued), ?_⟩
  have apart := (taken.filterMap Callback.lease?).nodup_iff.mpr reserved.apart
  rw [List.filterMap_cons] at apart
  split at apart
  · exact apart
  · exact apart.of_cons

theorem Reserved.stable {store store' : Store} (reserved : Reserved store line)
    (length : store.table.length ≤ store'.table.length)
    (fresh : ∀ t id, .obtained t id ∈ line → store'.Holds id → store.Holds id)
    (content : ∀ t id, .obtained t id ∈ line → store'.lease id = store.lease id) : Reserved store' line := by
  refine ⟨fun t id queued => ?_, reserved.given, reserved.apart⟩
  obtain ⟨inside, free, r, asked, drafted⟩ := reserved.made t id queued
  exact ⟨Nat.lt_of_lt_of_le inside length, fun held => free (fresh t id queued held), r, asked,
    (content t id queued).trans drafted⟩

theorem Reserved.without {store : Store} (reserved : Reserved store line) (device : Scalar) (old : Option LeaseId) :
    Reserved (store.without device old) line := by
  refine reserved.stable (Nat.le_of_eq (by rw [Store.without_table])) ?_ fun _ _ _ => Store.without_lease ..
  rintro t id - ⟨d, member, held⟩
  rcases (store.succeeds_without device device old).held d member id held with
    ⟨new, -⟩ | ⟨⟨before, present, -, held⟩, -⟩
  · cases new
  · exact ⟨before, present, held⟩

theorem current_elsewhere {store : Store} (b : s.Becomes device x store s') (different : name.key ≠ device.key)
    (content : store.lease = s.store.lease) : s'.current name = s.current name := by
  have same : store.named = s.store.named := funext fun id => by simp only [Store.named, content]
  rw [Service.current, Service.current, b.sessionOf_elsewhere different, b.store, same]

theorem without_content (s : Store) (holder : Scalar) (old : Option LeaseId) : (s.without holder old).lease = s.lease :=
  funext fun _ => Store.without_lease ..

/-- A move of the service leaves all but the leases in line as it has to be. -/
theorem Desk.Sound.moved (sound : d.Sound) (m : Service.Move) (permitted : d.service.Permits m)
    (reserved : Reserved (d.service.step m).1.store d.line) : Desk.Sound ⟨(d.service.step m).1, d.line⟩ where
  sessions := Service.step_sessions_sound sound.sessions m
  owned := Service.step_owned permitted sound.owned
  housed := Service.step_housed sound.housed m
  recalls c queued :=
    (d.service.step_ticketing m c.ticket.device).recalls (sound.sessions c.ticket.device) (sound.recalls c queued)
  reserved := reserved

theorem Desk.Sound.subset (sound : d.Sound) {c : Callback} {rest : List Callback} (taken : (c :: rest).Perm d.line) :
    Desk.Sound ⟨d.service, rest⟩ where
  sessions := sound.sessions
  owned := sound.owned
  housed := sound.housed
  recalls _ queued := sound.recalls _ (taken.subset (.tail _ queued))
  reserved := sound.reserved.subset taken

theorem Desk.Sound.returns (sound : d.Sound) (waiting : (d.service.sessionOf t.device).ticket = some t)
    (asked : t.request = none) : Desk.Sound ⟨d.service, d.line ++ [.returned t]⟩ where
  sessions := sound.sessions
  owned := sound.owned
  housed := sound.housed
  recalls c queued := by
    obtain queued | rfl := List.mem_append.mp queued |>.imp_right List.mem_singleton.mp
    · exact sound.recalls c queued
    · exact Or.inl waiting
  reserved := by
    refine ⟨fun t id queued => sound.reserved.made t id (by simpa using queued), fun u queued => ?_, ?_⟩
    · obtain queued | same := List.mem_append.mp queued |>.imp_right List.mem_singleton.mp
      · exact sound.reserved.given u queued
      · cases same; exact asked
    · rw [List.filterMap_append, show [Callback.returned t].filterMap Callback.lease? = [] from rfl, List.append_nil]
      exact sound.reserved.apart

theorem draft_new (s : Store) (lease : Lease) : s.draft s.table.length lease = (s.makeLease lease).2 := by
  simp [Store.draft]

theorem lease_new (s : Store) (lease : Lease) : (s.makeLease lease).2.lease s.table.length = lease := by
  simp [Store.makeLease, Store.lease, LeaseTable.get]

theorem Desk.Sound.obtains (sound : d.Sound) (waiting : (d.service.sessionOf t.device).ticket = some t) {r : Request}
    (asked : t.request = some r) :
    let next : Service := { d.service with store := (d.service.store.makeLease (lease r)).2 }
    Desk.Sound ⟨next, d.line ++ [.obtained t d.service.store.table.length]⟩ ∧
      ∀ name, next.current name = d.service.current name := by
  intro next
  have unheld : ¬ d.service.store.Holds d.service.store.table.length :=
    fun held => Nat.lt_irrefl _ (sound.owned.named _ held)
  have drafted : (d.service.step (.draft d.service.store.table.length (lease r))).1 = next := by
    simp only [Service.step, draft_new, next]
  have older {u : Ticket} {id : LeaseId} (queued : .obtained u id ∈ d.line) : id < d.service.store.table.length :=
    (sound.reserved.made u id queued).1
  have kept : Reserved next.store d.line := by
    refine sound.reserved.stable (by simp [next, Store.makeLease]) (fun _ _ _ held => held) fun u id queued => ?_
    have content := d.service.store.lease_draft (lease r) (Nat.ne_of_lt (older queued)) (older queued)
    rwa [draft_new] at content
  have after := sound.moved (.draft d.service.store.table.length (lease r)) unheld (drafted ▸ kept)
  rw [drafted] at after
  refine ⟨⟨after.sessions, after.owned, after.housed, fun c queued => ?_, ?_, ?_, ?_⟩, fun name => ?_⟩
  · obtain queued | rfl := List.mem_append.mp queued |>.imp_right List.mem_singleton.mp
    · exact after.recalls c queued
    · exact Or.inl waiting
  · intro u id queued
    obtain queued | same := List.mem_append.mp queued |>.imp_right List.mem_singleton.mp
    · exact kept.made u id queued
    · cases same
      exact ⟨by simp [next, Store.makeLease], unheld, r, asked, lease_new ..⟩
  · exact fun u queued => kept.given u (by simpa using queued)
  · rw [List.filterMap_append, List.nodup_append]
    refine ⟨kept.apart, by simp [Callback.lease?], fun id queued last new => ?_⟩
    obtain ⟨c, member, same⟩ := List.mem_filterMap.mp queued
    cases c with
    | obtained u first =>
      cases same
      have below := older member
      simp only [Callback.lease?, List.filterMap_cons, List.filterMap_nil, List.mem_singleton] at new
      exact Nat.ne_of_lt (new ▸ below)
    | returned u => cases same
  · have same := Service.draft_current sound.owned sound.housed (lease r) unheld name
    rwa [draft_new] at same

/-- The desk has led every session to what the last accepted call asked for, as far as the line allows. -/
structure Desk.Serves (d : Desk) (calls : List (Scalar × Accepted)) : Prop where
  sound : d.Sound
  answers : ∀ name, Answers d.service d.line name (last? name calls)

/-- A session that waits for a ticket was last asked for what the ticket is about. -/
theorem Desk.Sound.awaited (sound : d.Sound) {call : Option Accepted} (answers : Answers d.service d.line name call)
    (waiting : (d.service.sessionOf name).ticket = some t) :
    (∀ r, t.request = some r → call = some (.acquire r)) ∧ (t.request = none → call = some .release) := by
  have busy (idle : (d.service.sessionOf name).phase = .idle) : False := by
    simp [((sound.sessions name).idle idle).1] at waiting
  match call, answers with
  | some (.acquire request), .inl ⟨_, u, id, same, asked, _⟩ =>
    obtain rfl : u = t := Option.some.inj (same.symm.trans waiting)
    simp [asked]
  | some (.acquire request), .inr ⟨bound, _⟩ =>
    simp [((sound.sessions name).bound bound).2] at waiting
  | some .release, .inl ⟨_, u, same, queued⟩ =>
    obtain rfl : u = t := Option.some.inj (same.symm.trans waiting)
    simp [sound.reserved.given u queued]
  | some .release, .inr idle => exact (busy idle).elim
  | none, idle => exact (busy idle).elim

/-- The sessions of other devices are served as before. -/
theorem Answers.elsewhere {call : Option Accepted} {store : Store} (answers : Answers s line name call)
    (b : s.Becomes device x store s') (different : name.key ≠ device.key) (current : s'.current name = s.current name)
    (kept : ∀ c ∈ line, (s.sessionOf name).ticket = some c.ticket → c ∈ line') : Answers s' line' name call :=
  answers.frame (by rw [b.sessionOf_elsewhere different]) (by rw [b.sessionOf_elsewhere different]) current kept

/-- A session that was only looked up is served as before. -/
theorem Answers.still {call : Option Accepted} (answers : Answers s line name call)
    (b : s.Becomes device (s.sessionOf device) s.store s') : Answers s' line name call := by
  by_cases same : name.key = device.key
  · have kept : s.sessionOf name = { s.sessionOf device with device := (s.sessionOf name).device } :=
      s.sessionOf_congr same
    refine answers.frame ?_ ?_ ?_ fun _ queued _ => queued
    · rw [b.sessionOf_here same, kept]
    · rw [b.sessionOf_here same, kept]
    · rw [Service.current, Service.current, b.sessionOf_here same, b.store, kept]
  · exact answers.elsewhere b same (current_elsewhere b same rfl) fun _ queued _ => queued

theorem Desk.Serves.acquire (serves : d.Serves calls) (device : Scalar) (options : Value) (intake : Intake) :
    (d.step (.acquire device options intake)).1.Serves
      (calls ++ (d.step (.acquire device options intake)).2.toList) := by
  have cases := acquire_cases d.service device options intake
  simp only [Desk.step, show reply true = .accepted from rfl] at cases ⊢
  have moved : (d.service.step (.acquire device options intake .accepted)).1 =
    (d.service.acquire device options intake .accepted).service := rfl
  generalize d.service.acquire device options intake .accepted = o at cases moved ⊢
  rcases cases with ⟨fault, rfl⟩ | ⟨r, t, read, ok, rfl, request, asked⟩
  · rw [Desk.after_quiet d _ (by simp)]
    simpa using serves
  · obtain ⟨x, old, b⟩ := asked.session
    have mid : Desk.Sound ⟨o.service, d.line⟩ := moved ▸ serves.sound.moved _ trivial (by
      rw [moved, b.store]
      exact serves.sound.reserved.without _ old)
    have waiting : (o.service.sessionOf t.device).ticket = some t := by rw [b.sessionOf_here rfl]; rfl
    obtain ⟨sound, current⟩ := mid.obtains waiting request
    simp only [Desk.after_asked d o asked, follow, request, ok, read, Option.toList_some]
    refine ⟨sound, fun name => ?_⟩
    rw [last?_append]
    split
    next here =>
      refine Or.inl ⟨?_, t, _, ?_, request, List.mem_append_right _ (.head _)⟩ <;>
        exact (congrArg _ (b.sessionOf_here here.symm)).trans rfl
    next different =>
      have apart : name.key ≠ t.device.key := Ne.symm different
      have before : Answers o.service d.line name (last? name calls) := (serves.answers name).elsewhere b apart
        (current_elsewhere b apart (without_content ..)) fun _ queued _ => queued
      exact before.frame rfl rfl (current name) fun c queued _ => List.mem_append_left _ queued

theorem Desk.Serves.release (serves : d.Serves calls) (device : Scalar) (uuid : Option Bytes) :
    (d.step (.release device uuid)).1.Serves (calls ++ (d.step (.release device uuid)).2.toList) := by
  have cases := release_cases d.service device uuid
  simp only [Desk.step, show reply true = .accepted from rfl] at cases ⊢
  have moved : (d.service.step (.release device uuid .accepted)).1 =
    (d.service.release device uuid .accepted).service := rfl
  generalize d.service.release device uuid .accepted = o at cases moved ⊢
  have mid (reserved : Reserved o.service.store d.line) : Desk.Sound ⟨o.service, d.line⟩ :=
    moved ▸ serves.sound.moved _ trivial (moved ▸ reserved)
  rcases cases with ⟨⟨fault, failed⟩, silent, still⟩ | ⟨ok, quiet, x, idle, ticket, b⟩ |
    ⟨t, id, ok, rfl, request, asked⟩
  · rw [Desk.after_quiet d o (by simp [silent])]
    simp only [failed, Option.toList_none, List.append_nil]
    rcases still with same | b
    · exact same ▸ serves
    · exact ⟨mid (b.store ▸ serves.sound.reserved), fun name => (serves.answers name).still b⟩
  · rw [Desk.after_quiet d o quiet]
    simp only [ok, Option.toList_some]
    refine ⟨mid (b.store ▸ serves.sound.reserved), fun name => ?_⟩
    rw [last?_append]
    split
    next here => exact Or.inr ((congrArg _ (b.sessionOf_here here.symm)).trans idle)
    next different =>
      have apart : name.key ≠ device.key := Ne.symm different
      exact (serves.answers name).elsewhere b apart
        (current_elsewhere b apart rfl) fun _ queued _ => queued
  · obtain ⟨x, old, b⟩ := asked.session
    have waiting : (o.service.sessionOf t.device).ticket = some t := by rw [b.sessionOf_here rfl]; rfl
    have sound := (mid (b.store ▸ serves.sound.reserved.without _ old)).returns waiting request
    simp only [Desk.after_asked d o asked, follow, ok, Option.toList_some]
    refine ⟨sound, fun name => ?_⟩
    rw [last?_append]
    split
    next here =>
      refine Or.inl ⟨?_, t, ?_, List.mem_append_right _ (.head _)⟩ <;>
        exact (congrArg _ (b.sessionOf_here here.symm)).trans rfl
    next different =>
      have apart : name.key ≠ t.device.key := Ne.symm different
      exact (serves.answers name).elsewhere b apart (current_elsewhere b apart (without_content ..))
        fun c queued _ => List.mem_append_left _ queued

theorem report_eq (s : Service) (now : Moment) (c : Callback) : report s now c = s.step (c.move now) := by
  cases c <;> rfl

theorem move_report (now : Moment) (c : Callback) : (c.move now).report? = some c.ticket := by
  cases c <;> rfl

/-- An outcome that comes too late changes nothing. -/
theorem Desk.Serves.late (serves : d.Serves calls) {c : Callback} {rest : List Callback}
    (taken : (c :: rest).Perm d.line) (late : (d.service.sessionOf c.ticket.device).isCurrent c.ticket = false) :
    Desk.Serves ⟨d.service, rest⟩ calls := by
  refine ⟨serves.sound.subset taken, fun name => ?_⟩
  refine (serves.answers name).frame rfl rfl rfl fun c' queued waiting => ?_
  rcases List.mem_cons.mp (taken.symm.subset queued) with rfl | kept
  · obtain ⟨device, generation⟩ := (serves.sound.sessions name).ticket _ waiting
    rw [Service.sessionOf_congr _ (device.trans (d.service.sessionOf_device name))] at late
    simp [Session.isCurrent, waiting, generation] at late
  · exact kept

/-- Whoever waits for another outcome finds it in line still. -/
theorem other_queued {c : Callback} {rest : List Callback} (sessions : s.SessionsSound) (taken : (c :: rest).Perm line)
    (different : name.key ≠ c.ticket.device.key) :
    ∀ c' ∈ line, (s.sessionOf name).ticket = some c'.ticket → c' ∈ rest := by
  intro c' queued waiting
  rcases List.mem_cons.mp (taken.symm.subset queued) with rfl | kept
  · have device := ((sessions name).ticket _ waiting).1.trans (s.sessionOf_device name)
    exact absurd device.symm different
  · exact kept

/-- A lease that is handed over in its turn is none of those that are handed over later. -/
theorem Reserved.obtained {id : LeaseId} {rest : List Callback} {old : Option LeaseId} {now : Moment}
    (reserved : Reserved s.store line) (taken : (Callback.obtained t id :: rest).Perm line)
    (only : ∀ d ∈ s.store.devices, d.name.key = t.device.key → d.leases = old.toList)
    (permitted : s.Permits (.completeAcquire t id now)) : Reserved (s.storeObtained t old id now) rest := by
  have apart (u : Ticket) (other : LeaseId) (member : .obtained u other ∈ rest) : id ≠ other := by
    have once := (taken.filterMap Callback.lease?).nodup_iff.mpr reserved.apart
    exact fun same => (List.nodup_cons.mp once).1 (List.mem_filterMap.mpr ⟨_, member, congrArg some same.symm⟩)
  refine (reserved.subset taken).stable (Nat.le_of_eq (Service.storeObtained_length ..).symm) ?_
    fun u other member => ?_
  · rintro u other member ⟨d, present, held⟩
    rcases (Service.succeeds_obtained only permitted).held d present other held with
      ⟨new, -⟩ | ⟨⟨before, there, -, held⟩, -⟩
    · exact absurd (Option.some.inj new) (apart u other member)
    · exact ⟨before, there, held⟩
  · rw [Service.storeObtained_lease, if_neg fun same => apart u other member same.1]

theorem Desk.Serves.obtained (serves : d.Serves calls) {id : LeaseId} {rest : List Callback} (now : Moment)
    (taken : (Callback.obtained t id :: rest).Perm d.line) (found : d.service.currentSession? t = some x) :
    Desk.Serves ⟨(d.service.step (.completeAcquire t id now)).1, rest⟩ calls := by
  obtain ⟨present, current⟩ := Service.currentSession?_some found
  obtain rfl : d.service.sessionOf t.device = x := Service.sessionOf_eq present
  have queued : Callback.obtained t id ∈ d.line := taken.subset (.head _)
  have waiting : (d.service.sessionOf t.device).ticket = some t := (serves.sound.recalls _ queued).waiting current
  obtain ⟨inside, free, r, asked, drafted⟩ := serves.sound.reserved.made t id queued
  have permitted : d.service.Permits (.completeAcquire t id now) :=
    ⟨inside, fun d member held => absurd ⟨d, member, held⟩ free⟩
  have b : d.service.Becomes t.device
      { d.service.sessionOf t.device with phase := .bound, ticket := none, lease := some id }
      (d.service.storeObtained t (d.service.sessionOf t.device).lease id now)
      (d.service.step (.completeAcquire t id now)).1 := by
    rw [Service.step, Service.completeAcquire_current t id now found]
    exact (Service.Becomes.of_session? present).setSession { d.service with store := _ } _ rfl rfl
      (d.service.sessionOf_device t.device)
  have reserved : Reserved (d.service.step (.completeAcquire t id now)).1.store rest :=
    b.store ▸ serves.sound.reserved.obtained taken
      (fun d' member same => serves.sound.owned.of_key member same) permitted
  have sound := (serves.sound.subset taken).moved _ permitted reserved
  refine ⟨sound, fun name => ?_⟩
  by_cases here : name.key = t.device.key
  · -- What was waited for is what the last call asked for, and the lease carries it now.
    have waits : (d.service.sessionOf name).ticket = some t := by
      rw [Service.sessionOf_congr _ here]
      exact waiting
    rw [(serves.sound.awaited (serves.answers name) waits).1 r asked]
    have handed : (d.service.step (.completeAcquire t id now)).1.current name = some
        ((d.service.storeObtained t (d.service.sessionOf t.device).lease id now).named id) := by
      rw [Service.current, b.sessionOf_here here, b.store]
      rfl
    refine Or.inr ⟨congrArg _ (b.sessionOf_here here), _, handed, ?_⟩
    rw [Store.named, Service.storeObtained_lease, if_pos ⟨rfl, inside⟩, drafted, asked]
    exact carries_stamp ..
  · have turned : d.service.Turned _ t.device _ _ := ⟨_, _, .obtained id t now rfl rfl current, b⟩
    exact (serves.answers name).elsewhere b here
      (turned.current_elsewhere permitted serves.sound.owned sound.housed here)
      (other_queued serves.sound.sessions taken here)

theorem Desk.Serves.returned (serves : d.Serves calls) {rest : List Callback}
    (taken : (Callback.returned t :: rest).Perm d.line) (found : d.service.currentSession? t = some x) :
    Desk.Serves ⟨(d.service.step (.completeRelease t)).1, rest⟩ calls := by
  obtain ⟨present, current⟩ := Service.currentSession?_some found
  obtain rfl : d.service.sessionOf t.device = x := Service.sessionOf_eq present
  have queued : Callback.returned t ∈ d.line := taken.subset (.head _)
  have waiting : (d.service.sessionOf t.device).ticket = some t := (serves.sound.recalls _ queued).waiting current
  have b : d.service.Becomes t.device (Service.emptied (d.service.sessionOf t.device))
      (d.service.store.without (d.service.sessionOf t.device).device (d.service.sessionOf t.device).lease)
      (d.service.step (.completeRelease t)).1 := by
    simp only [Service.step, Service.completeRelease, found, Service.dropLease, Service.withdraw_eq]
    exact (Service.Becomes.of_session? present).setSession { d.service with store := _ } _ rfl rfl
      (d.service.sessionOf_device t.device)
  have later := serves.sound.subset taken
  refine ⟨later.moved _ trivial (b.store ▸ later.reserved.without _ _), fun name => ?_⟩
  by_cases here : name.key = t.device.key
  · have waits : (d.service.sessionOf name).ticket = some t := by
      rw [Service.sessionOf_congr _ here]
      exact waiting
    rw [(serves.sound.awaited (serves.answers name) waits).2 (serves.sound.reserved.given t queued)]
    exact Or.inr (congrArg _ (b.sessionOf_here here))
  · exact (serves.answers name).elsewhere b here (current_elsewhere b here (without_content ..))
      (other_queued serves.sound.sessions taken here)

theorem Desk.Serves.step (serves : d.Serves calls) (m : Move) : (d.step m).1.Serves (calls ++ (d.step m).2.toList) := by
  cases m with
  | acquire device options intake => exact serves.acquire device options intake
  | release device uuid => exact serves.release device uuid
  | report place now =>
    simp only [Desk.step]
    split
    next c found =>
      simp only [Option.toList_none, List.append_nil, report_eq]
      obtain ⟨inside, here⟩ := List.getElem?_eq_some_iff.mp found
      have taken : (c :: d.line.eraseIdx place).Perm d.line := here ▸ List.getElem_cons_eraseIdx_perm inside
      cases heard : d.service.currentSession? c.ticket with
      | none =>
        rw [Service.report_unheard (move_report now c) heard]
        exact serves.late taken (Service.currentSession?_none.mp heard)
      | some x =>
        cases c with
        | obtained t id => exact serves.obtained now taken heard
        | returned t => exact serves.returned taken heard
    next => simpa using serves

theorem Desk.Serves.run (serves : d.Serves calls) (moves : List Move) :
    (d.run moves).1.Serves (calls ++ (d.run moves).2) := by
  induction moves generalizing d calls with
  | nil => simpa [Desk.run] using serves
  | cons m rest ih =>
    rw [Desk.run, ← List.append_assoc]
    exact ih (serves.step m)

theorem Desk.initial_serves (devices : List (Scalar × Int)) : (Desk.initial devices).Serves [] where
  sound := {
    sessions := Service.initial_sessions_sound devices .static
    owned := Service.initial_owned devices .static
    housed := fun name active => by
      simp [Desk.initial, Service.initial, Service.sessionOf, Service.session?, Session.fresh] at active
    recalls := fun _ queued => absurd queued List.not_mem_nil
    reserved := ⟨fun _ _ queued => absurd queued List.not_mem_nil,
      fun _ queued => absurd queued List.not_mem_nil, .nil⟩ }
  answers _ := rfl

/-- Nothing is left to wait for. -/
theorem Desk.Serves.leaves (serves : d.Serves calls) (done : d.line = []) (name : Scalar) :
    Leaves d.service name (last? name calls) := by
  have holds := serves.sound.owned.leasesOf serves.sound.housed name
  have empty (idle : (d.service.sessionOf name).phase = .idle) :
      Leaves d.service name none := by
    refine ⟨idle, ?_⟩
    rw [Service.current, ((serves.sound.sessions name).idle idle).2] at holds
    simpa using holds
  have answers := serves.answers name
  rw [done] at answers
  cases call : last? name calls with
  | none =>
    rw [call] at answers
    exact empty answers
  | some accepted =>
    rw [call] at answers
    cases accepted with
    | acquire request =>
      obtain ⟨_, t, id, _, _, queued⟩ | ⟨bound, named, current, carries⟩ := answers
      · cases queued
      · rw [current, Option.toList_some, List.map_eq_singleton_iff] at holds
        obtain ⟨id, leases, rfl⟩ := holds
        exact ⟨bound, id, leases, carries⟩
    | release =>
      obtain ⟨_, t, _, queued⟩ | idle := answers
      · cases queued
      · exact empty idle

/-- Reports of the first outcome, as many as there are in line, leave none, and no call is accepted meanwhile. -/
theorem Desk.run_reports (d : Desk) (now : Moment) :
    (d.run (List.replicate d.line.length (.report 0 now))).1.line = [] ∧
      (d.run (List.replicate d.line.length (.report 0 now))).2 = [] := by
  obtain ⟨service, line⟩ := d
  induction line generalizing service with
  | nil => exact ⟨rfl, rfl⟩
  | cons c rest ih => exact ih (report service now c).1

/-- Once every outcome in line was reported, in whatever order and whatever was called in between, each device
is left with what the last accepted call for it asked for; and the line can always be emptied. -/
theorem Desk.run_last_call_wins (devices : List (Scalar × Int)) (moves : List Move) :
    let d := ((Desk.initial devices).run moves).1
    (d.line = [] → ∀ name, Leaves d.service name (last? name ((Desk.initial devices).run moves).2)) ∧
      ∀ now, (d.run (List.replicate d.line.length (.report 0 now))).1.line = [] :=
  ⟨((Desk.initial_serves devices).run moves).leaves, fun now => (Desk.run_reports _ now).1⟩

/-- The first request is replaced, and reported before the second; a lease is released and reported late. -/
theorem Desk.outdated_outcomes_ignored :
    let options (hostname : String) : Value := .map [(.str "hostname", .scalar (.str hostname))]
    let d := (Desk.initial [(.str "eth0", 1), (.str "eth1", 2)]).run [
      .acquire (.str "eth1") (options "a") (.lenient (List.replicate 16 1)), .report 0 default,
      .acquire (.str "eth0") (options "b") (.lenient (List.replicate 16 2)),
      .acquire (.str "eth0") (options "c") (.lenient (List.replicate 16 3)),
      .release (.str "eth1") none, .release (.str "eth1") none,
      .report 2 default, .report 0 default, .report 0 default]
    d.2.length = 4 ∧ last? (.str "eth1") d.2 = some .release ∧ d.1.line = [] ∧
      ∀ name, Leaves d.1.service name (last? name d.2) :=
  ⟨by decide +kernel, by decide +kernel, by decide +kernel, (Desk.run_last_call_wins _ _).1 (by decide +kernel)⟩

end Static
end Leasehold
