import Leasehold.Proofs.SessionLookup

/-! What can happen to the acquisition service, and what it does then. Every move is at most two turns,
each of which changes one device's session and tells so; all that is proved of runs is proved of turns. -/

namespace Leasehold

def Store.without (s : Store) (device : Scalar) : Option LeaseId → Store
  | some id => s.modifyDevice device fun d => d.removeLease id
  | none => s

/-- Writes a lease: gives a named one another content, or the next name to a new one. -/
def Store.draft (s : Store) (id : LeaseId) (lease : Lease) : Store :=
  if id < s.table.length then s.setLease id lease else (s.makeLease lease).2

def Store.Holds (s : Store) (id : LeaseId) : Prop :=
  ∃ d ∈ s.devices, id ∈ d.leases

namespace Session

/-- What the negotiator is told when another call takes the place of the request in flight. -/
def replaced (x : Session) : List Effect := x.inFlight?.toList.map Effect.cancel

/-- What the negotiator is told when an attempt is over before its outcome is reported. -/
def abandoned (x : Session) : List Effect := x.ticket.toList.map Effect.cancel

def attempt (x : Session) (phase : Phase) (t : Ticket) : Session :=
  { x with phase := phase, generation := x.generation + 1, ticket := some t }

end Session

def Effect.asked? : Effect → Option Ticket
  | .start t => some t
  | .release t _ => some t
  | _ => none

def Announces (es : List Effect) : Prop :=
  ∃ e, Effect.publish e ∈ es ∧ e.changesLeases = true

namespace Service

/-- What can happen: a caller's request, a report of the negotiator, or the negotiator writing a lease. -/
inductive Move
  | acquire (device : Scalar) (options : Value) (intake : Intake) (reply : Reply)
  | release (device : Scalar) (uuid : Option Bytes) (reply : Reply)
  | expire (device : Scalar) (uuid : Option Bytes)
  | completeAcquire (t : Ticket) (id : LeaseId) (now : Moment)
  | failAcquire (t : Ticket) (reason : String)
  | completeRelease (t : Ticket)
  | draft (id : LeaseId) (lease : Lease)

namespace Move

def reply : Move → Reply
  | acquire _ _ _ reply => reply
  | release _ _ reply => reply
  | _ => .accepted

def report? : Move → Option Ticket
  | completeAcquire t _ _ => some t
  | failAcquire t _ => some t
  | completeRelease t => some t
  | _ => none

end Move

/-- A move: the service afterwards, and the effects in order. -/
def step (s : Service) : Move → Service × List Effect
  | .acquire device options intake reply =>
    let o := s.acquire device options intake reply
    (o.service, o.effects)
  | .release device uuid reply =>
    let o := s.release device uuid reply
    (o.service, o.effects)
  | .expire device uuid =>
    let o := s.expire device uuid
    (o.service, o.effects)
  | .completeAcquire t id now => s.completeAcquire t id now
  | .failAcquire t reason => s.failAcquire t reason
  | .completeRelease t => s.completeRelease t
  | .draft id lease => ({ s with store := s.store.draft id lease }, [])

def run (s : Service) : List Move → Service × List Effect
  | [] => (s, [])
  | m :: rest => ((run (s.step m).1 rest).1, (s.step m).2 ++ (run (s.step m).1 rest).2)

/-- A lease that is handed over is there and is held by no other device, and no device holds a lease
that is written. -/
def Permits (s : Service) : Move → Prop
  | .completeAcquire t id _ =>
    id < s.store.table.length ∧ ∀ d ∈ s.store.devices, id ∈ d.leases → d.name.key = t.device.key
  | .draft id _ => ¬ s.store.Holds id
  | _ => True

def PermitsAll (s : Service) : List Move → Prop
  | [] => True
  | m :: rest => s.Permits m ∧ (s.step m).1.PermitsAll rest

instance (s : Store) (id : LeaseId) : Decidable (s.Holds id) :=
  inferInstanceAs (Decidable (∃ d ∈ s.devices, id ∈ d.leases))

instance (s : Service) : (m : Move) → Decidable (s.Permits m)
  | .completeAcquire t id _ => inferInstanceAs (Decidable
      (id < s.store.table.length ∧ ∀ d ∈ s.store.devices, id ∈ d.leases → d.name.key = t.device.key))
  | .draft id _ => inferInstanceAs (Decidable (¬ s.store.Holds id))
  | .acquire .. | .release .. | .expire .. | .failAcquire .. | .completeRelease .. => isTrue trivial

instance decidablePermitsAll (s : Service) : (moves : List Move) → Decidable (s.PermitsAll moves)
  | [] => isTrue trivial
  | m :: rest =>
    have := decidablePermitsAll (s.step m).1 rest
    inferInstanceAs (Decidable (s.Permits m ∧ (s.step m).1.PermitsAll rest))

def initial (devices : List (Scalar × Int)) (mode : Mode) : Service :=
  ⟨.ofDevices devices, mode, []⟩

def storeObtained (s : Service) (t : Ticket) (old : Option LeaseId) (id : LeaseId) (now : Moment) : Store :=
  let (seqno, store) := s.store.nextSeqno
  let store := store.setLease id (stamp (store.lease id) s.mode seqno now t.request)
  let store := store.without t.device (old.filter fun old => old ≠ id)
  store.modifyDevice t.device fun d => d.addLease store.table id

/-- A turn of a device's session `x`: the session and the store afterwards, and the effects. -/
inductive Turn (s : Service) (m : Move) (name : Scalar) (x : Session) : Session → Store → List Effect → Prop
  | kept : Turn s m name x x s.store []
  | finished (phase : x.phase = .releasing) :
      Turn s m name x (emptied x) (s.store.without x.device x.lease)
        (x.abandoned ++ [.publish (s.released name x.lease none)])
  | refused (t : Ticket) (ask : Effect) (asked : ask.asked? = some t) (reply : m.reply ≠ .accepted) :
      Turn s m name x x s.store (x.replaced ++ [ask])
  | started (request : Request) (reply : m.reply = .accepted) (phase : x.phase ≠ .releasing) :
      Turn s m name x (x.attempt .acquiring ⟨name, x.generation + 1, some request⟩) s.store
        (x.replaced ++ [.start ⟨name, x.generation + 1, some request⟩])
  | releasing (id : LeaseId) (held : x.lease = some id) (reply : m.reply = .accepted)
      (phase : x.phase ≠ .releasing) :
      Turn s m name x (x.attempt .releasing ⟨name, x.generation + 1, none⟩) s.store
        (x.replaced ++ [.release ⟨name, x.generation + 1, none⟩ id])
  | cancelled (t : Ticket) (empty : x.lease = none) (waiting : x.inFlight? = some t) :
      Turn s m name x { x with phase := .idle, generation := x.generation + 1, ticket := none } s.store
        [.cancel t, .publish {
          device := x.device, kind := .released, success := false, lease := none
          reason := some "cancelled", requestUuid := t.request.map Request.uuid }]
  | outlived (id : LeaseId) (held : x.lease = some id) (t : Ticket) (waiting : x.inFlight? = some t) :
      Turn s m name x { x with lease := none } (s.store.without x.device x.lease)
        [.publish (s.released name x.lease (some "expired"))]
  | expired (id : LeaseId) (held : x.lease = some id) (waiting : x.inFlight? = none) :
      Turn s m name x (emptied { x with generation := x.generation + 1 }) (s.store.without x.device x.lease)
        (x.abandoned ++ [.publish (s.released name x.lease (some "expired"))])
  | obtained (id : LeaseId) (t : Ticket) (now : Moment) (handed : m = .completeAcquire t id now)
      (device : t.device = name) (current : x.isCurrent t) :
      Turn s m name x { x with phase := .bound, ticket := none, lease := some id }
        (s.storeObtained t x.lease id now)
        [.publish {
          device := name, kind := .acquired, success := true
          lease := some ((s.storeObtained t x.lease id now).named id), reason := none
          requestUuid := some ((s.storeObtained t x.lease id now).lease id).uuid }]
  | failed (t : Ticket) (reason : String) (current : x.isCurrent t) :
      Turn s m name x { x with phase := if x.lease.isSome then .bound else .idle, ticket := none } s.store
        [.publish {
          device := name, kind := .acquired, success := false, lease := none
          reason := some reason, requestUuid := t.request.map Request.uuid }]
  | returned (t : Ticket) (current : x.isCurrent t) :
      Turn s m name x (emptied x) (s.store.without x.device x.lease)
        [.publish (s.released name x.lease none)]

def Turned (s : Service) (m : Move) (name : Scalar) (es : List Effect) (s' : Service) : Prop :=
  ∃ x store, s.Turn m name (s.sessionOf name) x store es ∧ s.Becomes name x store s'

/-- What a move comes to: nothing, a written lease, a turn, or the end of a release and another turn. -/
inductive Moved (s : Service) (m : Move) : List Effect → Service → Prop
  | still : Moved s m [] s
  | drafted (id : LeaseId) (lease : Lease) (same : m = .draft id lease) :
      Moved s m [] { s with store := s.store.draft id lease }
  | turn {es s'} (name : Scalar) (turned : s.Turned m name es s') : Moved s m es s'
  | turns {mid es s'} (name : Scalar) (free : ∀ s : Service, s.Permits m)
      (phase : (s.sessionOf name).phase = .releasing)
      (ended : s.Becomes name (emptied (s.sessionOf name))
        (s.store.without (s.sessionOf name).device (s.sessionOf name).lease) mid)
      (last : mid.Turned m name es s') :
      Moved s m ((s.sessionOf name).abandoned ++
        [.publish (s.released name (s.sessionOf name).lease none)] ++ es) s'

theorem Moved.first_turn {mid : Service} (s : Service) (m : Move) {name : Scalar}
    (phase : (s.sessionOf name).phase = .releasing)
    (ended : s.Becomes name (emptied (s.sessionOf name))
      (s.store.without (s.sessionOf name).device (s.sessionOf name).lease) mid) :
    s.Turned m name ((s.sessionOf name).abandoned ++
      [.publish (s.released name (s.sessionOf name).lease none)]) mid :=
  ⟨_, _, .finished phase, ended⟩

theorem withdraw_eq (s : Service) (device : Scalar) (lease : Option LeaseId) :
    s.withdraw device lease = { s with store := s.store.without device lease } := by
  cases lease <;> rfl

theorem released_congr {s s' : Service} (same : s'.store = s.store) :
    s'.released = s.released := by
  funext device lease reason
  simp only [released, same]

theorem currentSession?_some {s : Service} {t : Ticket} {x : Session}
    (found : s.currentSession? t = some x) : s.session? t.device = some x ∧ x.isCurrent t = true :=
  Option.filter_eq_some_iff.mp found

variable {s opened : Service} {name : Scalar} {x : Session}

private theorem turned {s s' : Service} {m : Move} {name : Scalar} {x next : Session} {store : Store}
    {es : List Effect} (same : x = s.sessionOf name) (turn : s.Turn m name x next store es)
    (b : s.Becomes name next store s') : s.Turned m name es s' :=
  ⟨next, store, same ▸ turn, b⟩

theorem finishRelease_releasing (s : Service) (x : Session) (device : Scalar)
    (phase : x.phase = .releasing) :
    s.finishRelease x device =
      (emptied x, ({ s with store := s.store.without x.device x.lease } : Service).setSession (emptied x),
        x.abandoned ++ [.publish (s.released device x.lease none)]) := by
  cases waiting : x.ticket <;>
    simp [finishRelease, dropLease, phase, waiting, Session.abandoned, withdraw_eq]

theorem finishRelease_other (s : Service) (x : Session) (device : Scalar)
    (phase : x.phase ≠ .releasing) : s.finishRelease x device = (x, s, []) := by
  cases stands : x.phase <;> simp_all [finishRelease]

/-- Asking the negotiator: the new attempt is put into force if it accepts, and only then. -/
private theorem settle_turned {m : Move} {es : List Effect} {t : Ticket}
    (b : s.Becomes name x s.store opened) (same : x = s.sessionOf name) (after : Session) (ask : Effect)
    (told : es = x.replaced ++ [ask]) (asked : ask.asked? = some t) (device : after.device.key = name.key)
    (accepted : m.reply = .accepted → s.Turn m name x after s.store (x.replaced ++ [ask])) :
    s.Turned m name (opened.settle x after m.reply es t).effects (opened.settle x after m.reply es t).service := by
  subst told
  have kept : s.Becomes name x s.store (opened.setSession x) :=
    b.store ▸ b.setSession opened x rfl rfl (same ▸ s.sessionOf_device name)
  -- A reply of either other kind puts back what was in place.
  have refusing (differs : m.reply ≠ .accepted) : s.Turned m name (x.replaced ++ [ask]) (opened.setSession x) :=
    turned same (.refused t ask asked differs) kept
  cases answer : m.reply with
  | accepted => exact turned same (accepted answer) (b.store ▸ b.setSession opened after rfl rfl device)
  | refused message => exact refusing (by simp [answer])
  | crashed message => exact refusing (by simp [answer])

private theorem settle_append (s : Service) (before after : Session) (reply : Reply) (first last : List Effect)
    (t : Ticket) : (s.settle before after reply (first ++ last) t).effects =
      first ++ (s.settle before after reply last t).effects ∧
    (s.settle before after reply (first ++ last) t).service = (s.settle before after reply last t).service := by
  cases reply <;> exact ⟨rfl, rfl⟩

theorem acquire_moved (s : Service) (device : Scalar) (options : Value) (intake : Intake) (reply : Reply) :
    s.Moved (.acquire device options intake reply) (s.step (.acquire device options intake reply)).2
      (s.step (.acquire device options intake reply)).1 := by
  simp only [step, Service.acquire]
  cases Request.ofOptions intake options with
  | error fault => exact .still
  | ok request =>
    cases opens : s.openSession device with
    | error fault => exact .still
    | ok pair =>
      obtain ⟨x, opened⟩ := pair
      obtain ⟨same, b⟩ := openSession_ok opens
      have named : x.device.key = device.key := same ▸ s.sessionOf_device device
      by_cases phase : x.phase = .releasing
      · -- The release ends first, and then the attempt is the turn of a session that is idle.
        have ended : s.Becomes device (emptied x) (s.store.without x.device x.lease)
            (({ opened with store := s.store.without x.device x.lease } : Service).setSession (emptied x)) :=
          b.setSession { opened with store := s.store.without x.device x.lease } (emptied x) rfl rfl named
        simp only [finishRelease_releasing opened x device phase, released_congr b.store, b.store]
        subst same
        generalize ({ opened with store := _ } : Service).setSession _ = mid at ended ⊢
        have last := settle_turned (m := .acquire device options intake reply)
          (Becomes.of_session? (ended.here device rfl)) (ended.sessionOf_here rfl).symm
          ((emptied (s.sessionOf device)).attempt .acquiring
            ⟨device, (s.sessionOf device).generation + 1, some request⟩)
          (.start ⟨device, (s.sessionOf device).generation + 1, some request⟩) rfl rfl named
          (fun accepted => .started request accepted (by simp [emptied]))
        have moved := Moved.turns device (m := .acquire device options intake reply) (fun _ => trivial) phase ended last
        generalize (s.sessionOf device).abandoned ++ [_] = told at moved ⊢
        rw [List.append_assoc, (settle_append _ _ _ _ told _ _).1, (settle_append _ _ _ _ told _ _).2]
        exact moved
      · simp only [finishRelease_other opened x device phase, List.nil_append]
        exact .turn device (settle_turned (m := .acquire device options intake reply) b same
          (x.attempt .acquiring ⟨device, x.generation + 1, some request⟩)
          (.start ⟨device, x.generation + 1, some request⟩) rfl rfl named
          (fun accepted => .started request accepted phase))

theorem release_moved (s : Service) (device : Scalar) (uuid : Option Bytes) (reply : Reply) :
    s.Moved (.release device uuid reply) (s.step (.release device uuid reply)).2
      (s.step (.release device uuid reply)).1 := by
  simp only [step, Service.release]
  cases opens : s.openSession device with
  | error fault => exact .still
  | ok pair =>
    obtain ⟨x, opened⟩ := pair
    obtain ⟨same, b⟩ := openSession_ok opens
    have named : x.device.key = device.key := same ▸ s.sessionOf_device device
    have refuse : s.Moved (.release device uuid reply) [] opened := .turn device (turned same .kept b)
    simp only
    split
    · exact refuse
    · split
      next t empty waiting =>
        exact .turn device (turned same (.cancelled t empty waiting)
          (b.store ▸ b.setSession opened _ rfl rfl named))
      next => exact refuse
      next id held =>
        split
        · exact refuse
        next phase =>
          exact .turn device (settle_turned (m := .release device uuid reply) b same
            (x.attempt .releasing ⟨device, x.generation + 1, none⟩)
            (.release ⟨device, x.generation + 1, none⟩ id) rfl rfl named
            (fun accepted => .releasing id held accepted phase))

private theorem dropped {m : Move} {es : List Effect} (b : s.Becomes name x s.store opened)
    (same : x = s.sessionOf name) (next : Session) (device : next.device.key = name.key)
    (turn : s.Turn m name x next (s.store.without x.device x.lease) es) :
    s.Turned m name es ((opened.withdraw x.device x.lease).setSession next) := by
  refine turned same turn ?_
  rw [withdraw_eq, b.store]
  exact b.setSession { opened with store := s.store.without x.device x.lease } next rfl rfl device

theorem expire_moved (s : Service) (device : Scalar) (uuid : Option Bytes) :
    s.Moved (.expire device uuid) (s.step (.expire device uuid)).2 (s.step (.expire device uuid)).1 := by
  simp only [step, Service.expire]
  cases opens : s.openSession device with
  | error fault => exact .still
  | ok pair =>
    obtain ⟨x, opened⟩ := pair
    obtain ⟨same, b⟩ := openSession_ok opens
    have named : x.device.key = device.key := same ▸ s.sessionOf_device device
    have refuse : s.Moved (.expire device uuid) [] opened := .turn device (turned same .kept b)
    simp only
    split
    next => exact refuse
    next id held =>
      split
      · simp only [expireLease, dropLease, ← held, released_congr b.store]
        split
        next t waiting =>
          exact .turn device (dropped b same { x with lease := none } named (.outlived id held t waiting))
        next waiting =>
          exact .turn device (dropped b same (emptied { x with generation := x.generation + 1 }) named
            (.expired id held waiting))
      · exact refuse

theorem completeAcquire_current (t : Ticket) (id : LeaseId) (now : Moment) (found : s.currentSession? t = some x) :
    s.completeAcquire t id now =
      (({ s with store := s.storeObtained t x.lease id now } : Service).setSession
          { x with phase := .bound, ticket := none, lease := some id },
        [.publish {
          device := t.device, kind := .acquired, success := true
          lease := some ((s.storeObtained t x.lease id now).named id), reason := none
          requestUuid := some ((s.storeObtained t x.lease id now).lease id).uuid }]) := by
  simp only [completeAcquire, found, withdraw_eq]
  rfl

theorem completeAcquire_moved (s : Service) (t : Ticket) (id : LeaseId) (now : Moment) :
    s.Moved (.completeAcquire t id now) (s.step (.completeAcquire t id now)).2
      (s.step (.completeAcquire t id now)).1 := by
  simp only [step]
  cases found : s.currentSession? t with
  | none => simpa only [completeAcquire, found] using Moved.still
  | some x =>
    obtain ⟨present, current⟩ := currentSession?_some found
    have named : x.device.key = t.device.key := session?_device present
    rw [completeAcquire_current t id now found]
    exact .turn t.device (turned (sessionOf_eq present).symm (.obtained id t now rfl rfl current)
      ((Becomes.of_session? present).setSession { s with store := s.storeObtained t x.lease id now } _ rfl rfl
        named))

theorem failAcquire_moved (s : Service) (t : Ticket) (reason : String) :
    s.Moved (.failAcquire t reason) (s.step (.failAcquire t reason)).2 (s.step (.failAcquire t reason)).1 := by
  simp only [step, failAcquire]
  cases found : s.currentSession? t with
  | none => exact .still
  | some x =>
    obtain ⟨present, current⟩ := currentSession?_some found
    have named : x.device.key = t.device.key := session?_device present
    exact .turn t.device (turned (sessionOf_eq present).symm (.failed t reason current)
      ((Becomes.of_session? present).setSession s _ rfl rfl named))

theorem completeRelease_current (t : Ticket) (found : s.currentSession? t = some x) :
    s.completeRelease t =
      (({ s with store := s.store.without x.device x.lease } : Service).setSession (emptied x),
        [.publish (s.released t.device x.lease none)]) := by
  simp only [completeRelease, found, dropLease, withdraw_eq]

theorem completeRelease_moved (s : Service) (t : Ticket) :
    s.Moved (.completeRelease t) (s.step (.completeRelease t)).2 (s.step (.completeRelease t)).1 := by
  simp only [step, completeRelease]
  cases found : s.currentSession? t with
  | none => exact .still
  | some x =>
    obtain ⟨present, current⟩ := currentSession?_some found
    have named : x.device.key = t.device.key := session?_device present
    exact .turn t.device (dropped (Becomes.of_session? present) (sessionOf_eq present).symm (emptied x)
      named (.returned t current))

theorem step_moved (s : Service) (m : Move) : s.Moved m (s.step m).2 (s.step m).1 := by
  cases m with
  | acquire device options intake reply => exact acquire_moved s device options intake reply
  | release device uuid reply => exact release_moved s device uuid reply
  | expire device uuid => exact expire_moved s device uuid
  | completeAcquire t id now => exact completeAcquire_moved s t id now
  | failAcquire t reason => exact failAcquire_moved s t reason
  | completeRelease t => exact completeRelease_moved s t
  | draft id lease => exact .drafted id lease rfl

/-- What every turn and every written lease keeps, a permitted move keeps. -/
theorem step_keeps {P : Service → Prop} {m : Move}
    (turn : ∀ {s name es s'}, s.Permits m → P s → s.Turned m name es s' → P s')
    (draft : ∀ {s id lease}, ¬ s.store.Holds id → P s → P { s with store := s.store.draft id lease })
    (permitted : s.Permits m) (holds : P s) : P (s.step m).1 := by
  have moved := s.step_moved m
  generalize (s.step m).1 = s', (s.step m).2 = es at moved ⊢
  cases moved with
  | still => exact holds
  | drafted id lease same => subst same; exact draft permitted holds
  | turn name turned => exact turn permitted holds turned
  | turns name free phase ended last =>
    exact turn (free _) (turn (free _) holds (Moved.first_turn s m phase ended)) last

/-- What every permitted move keeps, a permitted run keeps. -/
theorem run_keeps {P : Service → Prop} (move : ∀ {s m}, s.Permits m → P s → P (s.step m).1)
    {moves : List Move} (permitted : s.PermitsAll moves) (holds : P s) : P (s.run moves).1 := by
  induction moves generalizing s with
  | nil => exact holds
  | cons m rest ih => exact ih permitted.2 (move permitted.1 holds)

end Service

end Leasehold
