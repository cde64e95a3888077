import Leasehold.Proofs.AwaitedOutcomes
import Leasehold.Proofs.ServerTurns

/-! Who is on the bus. Besides the engine's subscription there is one for each call that waits for what it has started,
and a waiter at most for each one that only listens; a call takes away what is its own, and nothing else. -/

namespace Leasehold

namespace Bus

/-- Each subscription is the newest of its name. Beside the engine's there are those of the subscribers that are listed,
and whoever waits is listed among the listeners. -/
structure Shows (b : Bus) (subscribers listeners : List String) : Prop where
  issued : ∀ name id, b.idOf? name = some id → id < b.issued
  newest : ∀ s ∈ b.subscriptions, ∀ name, b.idOf? name = some s.id ↔ name = s.name
  engine : ⟨0, Host.engineName, 0, none⟩ ∈ b.subscriptions
  subscriptions : b.subscriptions.map Subscription.name = Host.engineName :: subscribers
  waiters : (b.waiters.map Waiter.name).Sublist listeners

theorem idOf?_subscribe (b : Bus) (name : String) (observer : Nat) (device : Option Scalar) (other : String) :
    (b.subscribe name observer device).idOf? other = if other = name then some b.issued else b.idOf? other := by
  by_cases same : other = name
  · simp [subscribe, idOf?, same]
  · simp [subscribe, idOf?, List.lookup_cons, beq_eq_false_iff_ne.mpr same, same]

namespace Shows

variable {b : Bus} {subscribers listeners : List String} {name : String}

theorem resolve (shows : b.Shows subscribers listeners) (e : Event) : (b.resolve e).Shows subscribers listeners where
  issued := shows.issued
  newest := shows.newest
  engine := shows.engine
  subscriptions := shows.subscriptions
  waiters := (List.filter_sublist.map Waiter.name).trans shows.waiters

theorem subscribe (shows : b.Shows subscribers listeners) (fresh : name ∉ Host.engineName :: subscribers)
    (observer : Nat) (device : Option Scalar) :
    (b.subscribe name observer device).Shows (subscribers ++ [name]) listeners := by
  have known := b.idOf?_subscribe name observer device
  refine ⟨?_, ?_, List.mem_append_left _ shows.engine, ?_, shows.waiters⟩
  · intro other id found
    rw [known] at found
    split at found
    · obtain rfl := Option.some.inj found
      exact Nat.lt_succ_self _
    · exact Nat.lt_succ_of_lt (shows.issued other id found)
  · intro s member other
    rw [known]
    obtain old | new := List.mem_append.mp member
    · have there : s.name ≠ name := by
        rintro rfl
        exact fresh (shows.subscriptions ▸ List.mem_map_of_mem old)
      have earlier : s.id < b.issued := shows.issued s.name s.id ((shows.newest s old s.name).mpr rfl)
      by_cases same : other = name
      · subst same
        simp [Nat.ne_of_gt earlier, Ne.symm there]
      · rw [if_neg same]
        exact shows.newest s old other
    · obtain rfl := List.mem_singleton.mp new
      by_cases same : other = name
      · simp [same]
      · have unknown : b.idOf? other ≠ some b.issued :=
          fun found => Nat.lt_irrefl _ (shows.issued other b.issued found)
        simp [same, unknown]
  · simp [Bus.subscribe, shows.subscriptions]

theorem await (shows : b.Shows subscribers listeners) (w : Waiter) :
    (b.await w).Shows subscribers (listeners ++ [w.name]) where
  issued := shows.issued
  newest := shows.newest
  engine := shows.engine
  subscriptions := shows.subscriptions
  waiters := by
    rw [Bus.await, List.map_append]
    exact shows.waiters.append_right [w.name]

theorem cancel_eq (shows : b.Shows subscribers listeners) (name : String) :
    b.cancel name = { b with subscriptions := b.subscriptions.filter fun s => s.name ≠ name } := by
  unfold Bus.cancel
  split
  next id found =>
    unfold Bus.unsubscribe
    congr 1
    apply List.filter_congr
    intro s member
    -- The number that the name stands for is that of the one subscription with this name.
    have newest := shows.newest s member name
    rw [found, Option.some.injEq] at newest
    simp [Eq.comm.trans newest, eq_comm]
  next unknown =>
    have others : b.subscriptions.filter (fun s => decide (s.name ≠ name)) = b.subscriptions := by
      apply List.filter_eq_self.mpr
      intro s member
      have newest := shows.newest s member name
      rw [unknown] at newest
      simp only [ne_eq, decide_not, Bool.not_eq_true', decide_eq_false_iff_not]
      intro same
      simpa using newest.mpr same.symm
    rw [others]

theorem leave (shows : b.Shows subscribers listeners) (other : name ≠ Host.engineName) :
    ((b.cancel name).forget name).Shows (subscribers.filter (· ≠ name)) (listeners.filter (· ≠ name)) := by
  rw [shows.cancel_eq]
  refine ⟨shows.issued, fun s member => shows.newest s (List.mem_filter.mp member).1, ?_, ?_, ?_⟩
  · exact List.mem_filter.mpr ⟨shows.engine, by simp [other.symm]⟩
  · calc
      (b.subscriptions.filter fun s => s.name ≠ name).map Subscription.name
        = (b.subscriptions.map Subscription.name).filter (· ≠ name) := by rw [List.filter_map]; rfl
      _ = Host.engineName :: subscribers.filter (· ≠ name) := by simp [shows.subscriptions, other.symm]
  · have names : (b.waiters.filter fun w => w.name ≠ name).map Waiter.name =
        (b.waiters.map Waiter.name).filter (· ≠ name) := by rw [List.filter_map]; rfl
    change ((b.waiters.filter fun w => w.name ≠ name).map Waiter.name).Sublist _
    rw [names]
    exact shows.waiters.filter _

end Shows

end Bus

theorem Host.Onward.shows {h next : Host} {subscribers listeners : List String} (onward : h.Onward next)
    (shows : h.bus.Shows subscribers listeners) : next.bus.Shows subscribers listeners := by
  apply onward.keeps (p := fun h => h.bus.Shows subscribers listeners)
  · intro h next shows same
    rw [same.bus]
    exact shows
  · intro h shows e
    exact shows.resolve e
  · intro h shows m
    exact shows
  · exact shows

theorem Host.ofInventory_shows {inv : Inventory} {now : Moment} {h : Host} {timeout : Binary64}
    (built : Host.ofInventory inv now = .ok (h, timeout)) : h.bus.Shows [] [] := by
  obtain ⟨devices, mode, registry, rfl⟩ := ofInventory_ok built
  have known (name : String) : (Bus.empty.subscribe engineName 0 none).idOf? name =
      if name = engineName then some 0 else none := by
    rw [Bus.idOf?_subscribe]
    rfl
  refine ⟨?_, ?_, List.mem_cons_self, rfl, List.Sublist.refl _⟩
  · intro name id found
    have found := (known name).symm.trans found
    split at found
    · obtain rfl := Option.some.inj found
      exact Nat.zero_lt_one
    · cases found
  · intro s member name
    obtain rfl := List.mem_singleton.mp member
    refine (Eq.congr_left (known name)).trans ?_
    by_cases same : name = engineName <;> simp [same, bare, Bus.empty]

namespace Tools

namespace Stage

def onBus? : Stage → Option String
  | .waiting w => some w.name
  | _ => none

def subscriber? : Stage → Option String
  | .waiting w => if w.errand = .listen then none else some w.name
  | _ => none

def listener? : Stage → Option String
  | .waiting w => if w.errand = .listen then some w.name else none
  | _ => none

variable {stage : Stage} {name : String}

theorem onBus?_of_subscriber? (found : stage.subscriber? = some name) : stage.onBus? = some name := by
  cases stage with
  | waiting w =>
    simp only [subscriber?] at found
    split at found
    · cases found
    · exact found
  | answered | draining => cases found

theorem onBus?_of_listener? (found : stage.listener? = some name) : stage.onBus? = some name := by
  cases stage with
  | waiting w =>
    simp only [listener?] at found
    split at found
    · exact found
    · cases found
  | answered | draining => cases found

end Stage

theorem Waiting.Leaves.onBus? {w : Waiting} {h : Host} {stage : Stage} (leaves : w.Leaves h stage) :
    stage.onBus? = none := by
  cases leaves <;> rfl

namespace Server

def onBus (s : Server) : List String := s.calls.filterMap fun c => c.stage.onBus?

def subscribers (s : Server) : List String := s.calls.filterMap fun c => c.stage.subscriber?

def listeners (s : Server) : List String := s.calls.filterMap fun c => c.stage.listener?

/-- Calls that wait have names of their own, and they are who is on the bus. -/
structure Tidy (s : Server) : Prop where
  unopened : s.opened = none → s.onBus = []
  distinct : s.onBus.Nodup
  made : ∀ name ∈ s.onBus, Made s.made name
  bus : s.Holds fun h => h.bus.Shows s.subscribers s.listeners

variable {s next : Server} {late : String → Bool} {before after : List CallState} {c : CallState} {name : String}
  {stage : Stage} {f : Stage → Option String}

theorem subscribers_of_onBus : s.subscribers ⊆ s.onBus := by
  intro name member
  obtain ⟨c, there, found⟩ := List.mem_filterMap.mp member
  exact List.mem_filterMap.mpr ⟨c, there, Stage.onBus?_of_subscriber? found⟩

theorem listeners_of_onBus : s.listeners ⊆ s.onBus := by
  intro name member
  obtain ⟨c, there, found⟩ := List.mem_filterMap.mp member
  exact List.mem_filterMap.mpr ⟨c, there, Stage.onBus?_of_listener? found⟩

theorem filterMap_sublist {α β : Type} {f g : α → Option β} (within : ∀ a b, f a = some b → g a = some b)
    (l : List α) : (l.filterMap f).Sublist (l.filterMap g) := by
  induction l with
  | nil => exact .slnil
  | cons a rest ih =>
    cases found : f a with
    | none =>
      rw [List.filterMap_cons_none found]
      cases other : g a with
      | none => rwa [List.filterMap_cons_none other]
      | some b =>
        rw [List.filterMap_cons_some other]
        exact ih.cons b
    | some b =>
      rw [List.filterMap_cons_some found, List.filterMap_cons_some (within a b found)]
      exact ih.cons_cons b

/-- Names that a call has while it waits go with it, and those of other calls stay. -/
theorem filterMap_leave (within : ∀ stage name, f stage = some name → stage.onBus? = some name)
    (distinct : ((before ++ c :: after).filterMap fun c => c.stage.onBus?).Nodup) (here : c.stage.onBus? = some name)
    (gone : stage.onBus? = none) :
    ((before ++ c :: after).filterMap fun c => f c.stage).filter (· ≠ name) =
      (before ++ { c with stage := stage } :: after).filterMap fun c => f c.stage := by
  have silent : f stage = none := by
    cases found : f stage with
    | none => rfl
    | some other => simp [within stage other found] at gone
  simp only [List.filterMap_append, List.filterMap_cons, here, List.nodup_append, List.nodup_cons] at distinct
  obtain ⟨-, ⟨unlike, -⟩, apart⟩ := distinct
  have others (calls : List CallState) (absent : name ∉ calls.filterMap fun c => c.stage.onBus?) :
      (calls.filterMap fun c => f c.stage).filter (· ≠ name) = calls.filterMap fun c => f c.stage := by
    apply List.filter_eq_self.mpr
    intro other member
    obtain ⟨c, there, found⟩ := List.mem_filterMap.mp member
    have listed : other ∈ calls.filterMap fun c => c.stage.onBus? :=
      List.mem_filterMap.mpr ⟨c, there, within _ _ found⟩
    exact decide_eq_true fun same => absent (same ▸ listed)
  have first := others before fun member => apart name member name List.mem_cons_self rfl
  have last := others after unlike
  simp only [List.filterMap_append, List.filterMap_cons, List.filter_append, first, silent]
  cases found : f c.stage with
  | none => rw [last]
  | some other =>
    obtain rfl := Option.some.inj (here.symm.trans (within _ _ found))
    simp only [ne_eq, not_true_eq_false, decide_false, Bool.false_eq_true, not_false_eq_true, List.filter_cons_of_neg]
    exact congrArg _ last

theorem Made.ne_engine {count : Nat} (made : Made count name) : name ≠ Host.engineName := by
  obtain ⟨n, -, rfl⟩ := made
  exact callName_ne_engine n

theorem Made.mono {count more : Nat} (made : Made count name) (le : count ≤ more) : Made more name := by
  obtain ⟨n, earlier, rfl⟩ := made
  exact ⟨n, Nat.lt_of_lt_of_le earlier le, rfl⟩

/-- The same calls wait. -/
structure Alike (s next : Server) : Prop where
  onBus : next.onBus = s.onBus
  subscribers : next.subscribers = s.subscribers
  listeners : next.listeners = s.listeners

namespace Tidy

theorem fresh (tidy : s.Tidy) : callName s.made ∉ s.onBus := by
  intro member
  obtain ⟨n, earlier, same⟩ := tidy.made _ member
  exact Nat.ne_of_gt earlier (callName_injective same)

theorem alike (tidy : s.Tidy) (alike : s.Alike next) (opened : next.opened = none → s.opened = none)
    (made : s.made ≤ next.made) (bus : next.Holds fun h => h.bus.Shows s.subscribers s.listeners) : next.Tidy where
  unopened := fun unopened => alike.onBus.trans (tidy.unopened (opened unopened))
  distinct := alike.onBus ▸ tidy.distinct
  made := fun name member => (tidy.made name (alike.onBus ▸ member)).mono made
  bus := by
    rw [alike.subscribers, alike.listeners]
    exact bus

theorem onward (tidy : s.Tidy) {h host : Host} {timeout : Binary64} (standing : s.opened = some (h, timeout))
    (onward : h.Onward host) : ({ s with opened := some (host, timeout) } : Server).Tidy := by
  refine tidy.alike ⟨rfl, rfl, rfl⟩ (by simp) (Nat.le_refl _) ?_
  rintro _ _ ⟨rfl, rfl⟩
  exact onward.shows (tidy.bus h timeout standing)

theorem answered (tidy : s.Tidy) (device : Value) (a : Answer) :
    ({ s with made := s.made + 1, calls := s.calls ++ [⟨device, .answered a⟩] } : Server).Tidy := by
  refine tidy.alike ⟨?_, ?_, ?_⟩ id (Nat.le_succ _) tidy.bus
  · simp [onBus, Stage.onBus?]
  · simp [subscribers, Stage.subscriber?]
  · simp [listeners, Stage.listener?]

/-- A call that comes to the bus is one more that waits. -/
theorem comes (tidy : s.Tidy) {h begun host : Host} {timeout : Binary64} {w : Waiting}
    (standing : s.opened = some (h, timeout)) (named : w.name = callName s.made) (comes : w.Comes h begun)
    (onward : begun.Onward host) (device : Value) :
    ({ s with
      opened := some (host, timeout)
      made := s.made + 1
      calls := s.calls ++ [⟨device, .waiting w⟩] } : Server).Tidy := by
  have fresh := tidy.fresh
  have shows := tidy.bus h timeout standing
  rw [← named] at fresh
  refine ⟨by simp, ?_, ?_, ?_⟩
  · simp only [onBus, List.filterMap_append, List.filterMap_cons, List.filterMap_nil, Stage.onBus?]
    apply List.nodup_append.mpr
    refine ⟨tidy.distinct, by simp, ?_⟩
    intro name old other new same
    obtain rfl := List.mem_singleton.mp new
    exact fresh (same ▸ old)
  · intro name member
    simp only [onBus, List.filterMap_append, List.filterMap_cons, List.filterMap_nil, Stage.onBus?] at member
    obtain old | new := List.mem_append.mp member
    · exact (tidy.made name old).later
    · obtain rfl := List.mem_singleton.mp new
      exact ⟨s.made, Nat.lt_succ_self _, named⟩
  · rintro _ _ ⟨rfl, rfl⟩
    apply onward.shows
    cases comes with
    | subscribes starts device =>
      have engine : w.name ≠ Host.engineName := named ▸ callName_ne_engine s.made
      have unlisted : w.name ∉ Host.engineName :: s.subscribers := by
        intro member
        obtain same | listed := List.mem_cons.mp member
        · exact engine same
        · exact fresh (subscribers_of_onBus listed)
      simpa [subscribers, listeners, Stage.subscriber?, Stage.listener?, starts] using shows.subscribe unlisted 1 device
    | awaits listens waiter same =>
      simpa [subscribers, listeners, Stage.subscriber?, Stage.listener?, listens, same] using shows.await waiter

/-- A call that leaves the bus is one less that waits. -/
theorem leaves (tidy : s.Tidy) {h : Host} {timeout : Binary64} {w : Waiting} (standing : s.opened = some (h, timeout))
    (calls : s.calls = before ++ c :: after) (waits : c.stage = .waiting w) (gone : stage.onBus? = none) :
    ({ s with
      opened := some (w.leave h, timeout)
      calls := before ++ { c with stage := stage } :: after } : Server).Tidy := by
  have distinct := tidy.distinct
  have shows := tidy.bus h timeout standing
  have made := tidy.made
  have here : c.stage.onBus? = some w.name := by rw [waits]; rfl
  simp only [onBus, subscribers, listeners, calls] at distinct shows made
  have named : w.name ∈ (before ++ c :: after).filterMap fun c => c.stage.onBus? :=
    List.mem_filterMap.mpr ⟨c, by simp, here⟩
  -- Leaving by name takes from each list what the call had there, since no other call has its name.
  have left := filterMap_leave (f := Stage.onBus?) (fun _ _ found => found) distinct here gone
  refine ⟨by simp, ?_, ?_, ?_⟩
  · unfold onBus
    rw [← left]
    exact distinct.filter _
  · intro name member
    unfold onBus at member
    rw [← left] at member
    exact made name (List.mem_filter.mp member).1
  · rintro _ _ ⟨rfl, rfl⟩
    have shows := shows.leave (made _ named).ne_engine
    rw [filterMap_leave (fun _ _ => Stage.onBus?_of_subscriber?) distinct here gone,
      filterMap_leave (fun _ _ => Stage.onBus?_of_listener?) distinct here gone] at shows
    exact shows

theorem turned (tidy : s.Tidy) (turned : s.Turned late next) : next.Tidy := by
  obtain @⟨h, host, timeout, before, after, c, stage, standing, calls, turn⟩ := turned
  have kept := tidy.bus h timeout standing
  generalize waits : c.stage = from' at turn
  cases turn with
  | stays =>
    subst waits
    refine tidy.alike ⟨?_, ?_, ?_⟩ (by simp) (Nat.le_refl _) ?_
    · rw [onBus, onBus, calls]
    · rw [subscribers, subscribers, calls]
    · rw [listeners, listeners, calls]
    · rintro _ _ ⟨rfl, rfl⟩
      exact kept
  | receives w e arrived =>
    obtain ⟨left, gone⟩ := w.receive_leaves h e
    rw [left]
    exact tidy.leaves standing calls waits gone.onBus?
  | expires w unheard struck => exact tidy.leaves standing calls waits rfl
  | finishes w e task pass ended =>
    refine tidy.alike ⟨?_, ?_, ?_⟩ (by simp) (Nat.le_refl _) ?_
    · simp [onBus, calls, waits, Stage.onBus?]
    · simp [subscribers, calls, waits, Stage.subscriber?]
    · simp [listeners, calls, waits, Stage.listener?]
    · rintro _ _ ⟨rfl, rfl⟩
      exact kept

theorem goes (tidy : s.Tidy) (goes : s.Goes late next) : next.Tidy := by
  cases goes with
  | aside now document path process spawned =>
    exact tidy.alike ⟨rfl, rfl, rfl⟩ id (Nat.le_refl _) tidy.bus
  | opens unopened built =>
    refine tidy.alike ⟨rfl, rfl, rfl⟩ (by simp) (Nat.le_refl _) ?_
    rintro _ _ ⟨rfl, rfl⟩
    have alone {names : List String} (within : names ⊆ s.onBus) : names = [] :=
      List.subset_nil.mp (tidy.unopened unopened ▸ within)
    rw [alone subscribers_of_onBus, alone listeners_of_onBus]
    exact Host.ofInventory_shows built
  | onward standing onward => exact tidy.onward standing onward
  | refused device a => exact tidy.answered device a
  | @called h host timeout stage standing called device =>
    cases called with
    | answered onward a => exact (tidy.onward standing onward).answered device a
    | waits named comes onward => exact tidy.comes standing named comes onward device
    | left named comes onward leaves =>
      have waits := tidy.comes standing named comes onward device
      simpa using waits.leaves rfl (Eq.refl (s.calls ++ _ :: [])) rfl leaves.onBus?
  | turned turned => exact tidy.turned turned

theorem handOut (tidy : s.Tidy) : (s.step .handOut).Tidy := by
  have same {f : Stage → Option String} (within : ∀ stage name, f stage = some name → stage.onBus? = some name) :
      (s.calls.filter fun c => c.answer?.isNone).filterMap (fun c => f c.stage) =
        s.calls.filterMap fun c => f c.stage := by
    rw [List.filterMap_filter]
    apply List.filterMap_congr
    intro c _
    match stage : c.stage with
    | .waiting w | .draining w e task => simp [CallState.answer?, stage]
    | .answered a =>
      have silent : f (.answered a) = none := by
        cases found : f (.answered a) with
        | none => rfl
        | some name => cases within _ _ found
      simp [silent]
  exact tidy.alike
    ⟨same fun _ _ => id, same fun _ _ => Stage.onBus?_of_subscriber?, same fun _ _ => Stage.onBus?_of_listener?⟩
    id (Nat.le_refl _) tidy.bus

theorem goes_on (tidy : s.Tidy) (goes : Relation.ReflTransGen (Goes late) s next) : next.Tidy := by
  induction goes with
  | refl => exact tidy
  | tail _ goes ih => exact ih.goes goes

theorem step (tidy : s.Tidy) (m : Move) : (s.step m).Tidy := by
  by_cases out : m = .handOut
  · subst out
    exact tidy.handOut
  · exact tidy.goes_on (s.step_goes out)

theorem run (tidy : s.Tidy) (moves : List Move) : (s.run moves).Tidy := by
  induction moves generalizing s with
  | nil => exact tidy
  | cons m rest ih => exact ih (tidy.step m)

theorem initial (now : Moment) (document : Except Yaml.Fault Value) (path : String)
    (process : Kind → Role → Except SystemFault Child) : (initial now document path process).Tidy :=
  ⟨fun _ => rfl, List.nodup_nil, fun _ member => absurd member List.not_mem_nil,
    .of_initial now document path process _⟩

/-- What is on the bus: the engine, and every call that waits there for itself. -/
theorem on_bus (tidy : s.Tidy) {timeout : Binary64} (standing : s.opened = some (h, timeout)) :
    h.bus.subscriptions.map Subscription.name = Host.engineName :: s.subscribers ∧
      (h.bus.waiters.map Waiter.name).Sublist s.listeners ∧
      (Host.engineName :: s.subscribers).Nodup ∧ s.listeners.Nodup ∧
      ((∀ c ∈ s.calls, ∃ a, c.stage = .answered a) →
        h.bus.subscriptions = [⟨0, Host.engineName, 0, none⟩] ∧ h.bus.waiters = []) := by
  have shows := tidy.bus h timeout standing
  refine ⟨shows.subscriptions, shows.waiters, ?_, ?_, ?_⟩
  · have distinct : s.subscribers.Nodup :=
      tidy.distinct.sublist (filterMap_sublist (fun _ _ => Stage.onBus?_of_subscriber?) s.calls)
    refine List.nodup_cons.mpr ⟨fun member => ?_, distinct⟩
    exact (tidy.made _ (subscribers_of_onBus member)).ne_engine rfl
  · exact tidy.distinct.sublist (filterMap_sublist (fun _ _ => Stage.onBus?_of_listener?) s.calls)
  · intro done
    have none {f : Stage → Option String} (silent : ∀ a, f (.answered a) = none) :
        (s.calls.filterMap fun c => f c.stage) = [] := by
      apply List.filterMap_eq_nil_iff.mpr
      intro c member
      obtain ⟨a, answered⟩ := done c member
      rw [answered, silent]
    have subscriptions := shows.subscriptions
    have waiters := shows.waiters
    rw [subscribers, none fun _ => rfl] at subscriptions
    rw [listeners, none fun _ => rfl] at waiters
    constructor
    · obtain ⟨only, same, -⟩ := List.map_eq_singleton_iff.mp subscriptions
      have engine := shows.engine
      rw [same, List.mem_singleton] at engine
      rw [same, engine]
    · exact List.map_eq_nil_iff.mp (List.sublist_nil.mp waiters)

end Tidy

end Server

end Tools

end Leasehold
