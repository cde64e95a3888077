import Leasehold.Host
import Leasehold.Proofs.ServiceMoves

/-! What can happen to a host. Calls of the service and reports to it come at any time, also while a pass
waits for a script; the engine's task and its passes go on in steps of their own. -/

namespace Leasehold

/-- Everything that is published reaches a subscriber of a name. -/
def Bus.Serves (b : Bus) (name : String) : Prop :=
  ∃ s ∈ b.subscriptions, s.name = name ∧ s.device = none

namespace Host

/-- What can happen to a host: a move of its service, a change of who listens to the bus besides, the
configuration of the kinds, the task going on, someone who asks for a pass, a pass that begins, a script
that ends, and a pass that ends. -/
inductive Move
  | serve (m : Service.Move)
  | rewire (bus : Bus)
  | configure
  | wake
  | request (name : Nat)
  | begin
  | resume (result : RunResult)
  | complete

/-- A move: the host afterwards, and the result of a pass that it ended. -/
def step (h : Host) : Move → Host × List PassResult
  | .serve m => (h.told (h.service.step m).1 (h.service.step m).2, [])
  | .rewire bus => ({ h with bus := bus }, [])
  | .configure => (h.configure, [])
  | .wake => ({ h with engine := h.engine.wake }, [])
  | .request name => ({ h with engine := h.engine.request name }, [])
  | .begin => (h.beginPass, [])
  | .resume result => (h.resumePass result, [])
  | .complete =>
    match h.engine.complete? with
    | some (_, result, engine) => ({ h with engine := engine }, [result])
    | none => (h, [])

def run (h : Host) : List Move → Host × List PassResult
  | [] => (h, [])
  | m :: rest => ((run (h.step m).1 rest).1, (h.step m).2 ++ (run (h.step m).1 rest).2)

/-- The service does what it may, and the engine keeps its subscription. -/
def Permits (h : Host) : Move → Prop
  | .serve m => h.service.Permits m
  | .rewire bus => bus.Serves engineName
  | _ => True

def PermitsAll (h : Host) : List Move → Prop
  | [] => True
  | m :: rest => h.Permits m ∧ (h.step m).1.PermitsAll rest

instance (b : Bus) (name : String) : Decidable (b.Serves name) :=
  inferInstanceAs (Decidable (∃ s ∈ b.subscriptions, s.name = name ∧ s.device = none))

instance (h : Host) : (m : Move) → Decidable (h.Permits m)
  | .serve m => inferInstanceAs (Decidable (h.service.Permits m))
  | .rewire bus => inferInstanceAs (Decidable (bus.Serves engineName))
  | .configure | .wake | .request _ | .begin | .resume _ | .complete => isTrue trivial

instance decidablePermitsAll (h : Host) : (moves : List Move) → Decidable (h.PermitsAll moves)
  | [] => isTrue trivial
  | m :: rest =>
    have := decidablePermitsAll (h.step m).1 rest
    inferInstanceAs (Decidable (h.Permits m ∧ (h.step m).1.PermitsAll rest))

end Host

namespace Engine

theorem schedule_schedule (e : Engine) : e.schedule.schedule = e.schedule := by
  simp [schedule]

/-- Any number of events come to one pass, if there is one among them that tells of changed leases. -/
theorem notices_eq (e : Engine) (events : List Event) :
    events.foldl notice e = if events.any Event.changesLeases then e.schedule else e := by
  induction events generalizing e with
  | nil => rfl
  | cons first rest ih =>
    rw [List.foldl_cons, ih, notice, List.any_cons]
    cases first.changesLeases <;> cases rest.any Event.changesLeases <;> simp [schedule_schedule]

def runners (e : Engine) : Nat :=
  e.line.count .runner + match e.current with
    | some (.runner, _) => 1
    | _ => 0

/-- The task is there while a pass is wanted, and has one pass at most in line or under way. -/
structure Coherent (e : Engine) : Prop where
  wanted : e.dirty = true → e.task.isSome
  single : e.runners ≤ 1
  working : e.runners ≠ 0 → e.task = some .working

variable {e : Engine}

theorem Coherent.schedule (coherent : e.Coherent) : e.schedule.Coherent := by
  refine ⟨fun _ => rfl, coherent.single, fun some => ?_⟩
  simp [Engine.schedule, coherent.working some]

theorem Coherent.proceed (last : Option PassResult) (left : e.runners = 0) : (e.proceed last).Coherent := by
  unfold Engine.proceed
  split
  next wanted =>
    refine ⟨by simp, ?_, fun _ => rfl⟩
    simp only [runners, List.count_append, List.count_singleton_self] at left ⊢
    omega
  next unwanted =>
    have left : Engine.runners { e with task := none, finished := e.finished ++ [last] } = 0 := left
    exact ⟨fun dirty => absurd dirty unwanted, by omega, fun some => absurd left some⟩

theorem Coherent.wake (coherent : e.Coherent) : e.wake.Coherent := by
  unfold Engine.wake
  split
  next created =>
    refine .proceed none (Decidable.byContradiction fun some => ?_)
    simp [coherent.working some] at created
  next => exact coherent

theorem Coherent.of_runners {next : Engine} (coherent : e.Coherent) (dirty : next.dirty = e.dirty)
    (task : next.task = e.task) (runners : next.runners = e.runners) : next.Coherent :=
  ⟨dirty ▸ task ▸ coherent.wanted, runners ▸ coherent.single, runners ▸ task ▸ coherent.working⟩

theorem Coherent.request (coherent : e.Coherent) (name : Nat) : (e.request name).Coherent :=
  coherent.of_runners rfl rfl (by simp [Engine.request, runners, List.count_append])

theorem Coherent.begin (coherent : e.Coherent) (store : Store) : (e.begin store).engine.Coherent := by
  unfold Engine.begin
  split
  next who rest free line =>
    refine coherent.of_runners rfl rfl ?_
    cases who <;> simp [goOn, runners, line, free]
  next => exact coherent

theorem Coherent.resume (coherent : e.Coherent) (table : LeaseTable) (result : RunResult) :
    (e.resume table result).engine.Coherent := by
  unfold Engine.resume
  split
  next who pass current =>
    refine coherent.of_runners rfl rfl ?_
    cases who <;> simp [goOn, runners, current]
  next => exact coherent

theorem complete?_some {who : Requester} {result : PassResult} {next : Engine}
    (completed : e.complete? = some (who, result, next)) : ∃ pass, e.current = some (who, pass) ∧
      pass.waiting = none ∧ result = ⟨pass.outcomes⟩ ∧
      (who = .runner ∧ next = { e with current := none }.proceed (some result) ∨
        who ≠ .runner ∧ next = { e with current := none }) := by
  unfold complete? at completed
  match current : e.current with
  | none => simp [current] at completed
  | some (requester, pass) =>
    match waiting : pass.waiting with
    | some script => simp [current, Pass.result?, waiting] at completed
    | none =>
      simp only [current, Pass.result?, waiting, Option.bind_eq_bind, Option.bind_some, Option.pure_def] at completed
      cases requester with
      | runner =>
        cases completed
        exact ⟨pass, rfl, waiting, rfl, Or.inl ⟨rfl, rfl⟩⟩
      | caller name =>
        cases completed
        exact ⟨pass, rfl, waiting, rfl, Or.inr ⟨by simp, rfl⟩⟩

theorem Coherent.complete {who : Requester} {result : PassResult} {next : Engine} (coherent : e.Coherent)
    (completed : e.complete? = some (who, result, next)) : next.Coherent := by
  obtain ⟨pass, current, -, -, ⟨rfl, rfl⟩ | ⟨other, rfl⟩⟩ := complete?_some completed
  · have single := coherent.single
    simp only [runners, current] at single
    refine .proceed _ ?_
    simp only [runners]
    omega
  · refine coherent.of_runners rfl rfl ?_
    cases who with
    | runner => exact absurd rfl other
    | caller name => simp [runners, current]

end Engine

namespace Host

variable {h : Host}

theorem publish_engine (e : Event) (served : h.bus.Serves engineName) :
    (h.publish e).engine = h.engine.notice e := by
  obtain ⟨s, member, name, device⟩ := served
  have observes : s ∈ h.bus.observersOf e :=
    List.mem_filter.mpr ⟨member, by simp [Subscription.matches, concerns, device]⟩
  have named : engineName ∈ addressees h.bus e :=
    List.mem_append_left _ (name ▸ List.mem_map_of_mem observes)
  simp [publish, named]

theorem told_eq (h : Host) (service : Service) (es : List Effect) (served : h.bus.Serves engineName) :
    (h.told service es).service = service ∧
    (h.told service es).bus.subscriptions = h.bus.subscriptions ∧
    (h.told service es).engine = (events es).foldl Engine.notice h.engine := by
  unfold told
  generalize events es = published
  suffices keeps : ∀ h : Host, h.bus.Serves engineName →
      (published.foldl publish h).service = h.service ∧
      (published.foldl publish h).bus.subscriptions = h.bus.subscriptions ∧
      (published.foldl publish h).engine = published.foldl Engine.notice h.engine from
    keeps { h with service := service } served
  induction published with
  | nil => exact fun h _ => ⟨rfl, rfl, rfl⟩
  | cons e rest ih =>
    intro h served
    obtain ⟨service, bus, engine⟩ := ih (h.publish e) served
    exact ⟨service, bus, by rw [List.foldl_cons, engine, publish_engine e served, List.foldl_cons]⟩

theorem events_announce {es : List Effect} : (events es).any Event.changesLeases = true ↔ Announces es := by
  simp only [events, List.any_eq_true, List.mem_filterMap, Announces]
  constructor
  · rintro ⟨e, ⟨effect, member, published⟩, changes⟩
    split at published
    · cases published
      exact ⟨e, member, changes⟩
    · cases published
  · rintro ⟨e, member, changes⟩
    exact ⟨e, ⟨.publish e, member, rfl⟩, changes⟩

end Host

end Leasehold
