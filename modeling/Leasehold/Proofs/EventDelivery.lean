import Leasehold.Bus.Task
import Leasehold.Proofs.SessionLookup

/-! Who gets which event. Subscriptions and waiters live by two rules: a subscription gets every event of its
device from the moment it is made until it is cancelled, a waiter gets one event, the first that passes its
filters before its time is up, and is gone. Observers here leave the bus alone; what one of them does wrong is
logged and nobody else notices. -/

namespace Leasehold

def About (wanted : Option Scalar) (e : Event) : Prop :=
  ∀ device, wanted = some device → device.key = e.device.key

structure Waiter.Wants (w : Waiter) (e : Event) : Prop where
  device : About w.device e
  kind : ∀ kind, w.kind = some kind → kind = e.kind
  uuid : ∀ uuid, w.uuid = some uuid → some uuid = e.requestUuid

theorem concerns_iff {wanted : Option Scalar} {e : Event} : concerns wanted e = true ↔ About wanted e := by
  cases wanted <;> simp [concerns, About, Scalar.isKey_iff]

theorem Subscription.matches_iff {s : Subscription} {e : Event} : s.matches e = true ↔ About s.device e :=
  concerns_iff

theorem Waiter.matches_iff {w : Waiter} {e : Event} : w.matches e = true ↔ w.Wants e := by
  have kind : (w.kind.all fun wanted => decide (wanted = e.kind)) = true ↔
      ∀ kind, w.kind = some kind → kind = e.kind := by
    cases w.kind <;> simp
  have uuid : (w.uuid.all fun wanted => decide (some wanted = e.requestUuid)) = true ↔
      ∀ uuid, w.uuid = some uuid → some uuid = e.requestUuid := by
    cases w.uuid <;> simp
  simp only [Waiter.matches, Bool.and_eq_true, concerns_iff, kind, uuid]
  exact ⟨fun ⟨⟨device, kind⟩, uuid⟩ => ⟨device, kind, uuid⟩, fun wants => ⟨⟨wants.device, wants.kind⟩, wants.uuid⟩⟩

instance (wanted : Option Scalar) (e : Event) : Decidable (About wanted e) :=
  decidable_of_iff _ concerns_iff

instance (w : Waiter) (e : Event) : Decidable (w.Wants e) :=
  decidable_of_iff _ Waiter.matches_iff

namespace Delivery

def onlookers (fails : Subscription → Bool) : Reaction :=
  fun s _ => if fails s then [.fail] else []

variable {bus : Bus} {e : Event} {fails : Subscription → Bool} {delivered : List (Subscription × Event)}
  {resolved : List (Waiter × Event)} {log : List Log.Record}

theorem run_over {react : Reaction} {d : Delivery} (done : d.stack = []) (fuel : Nat) : d.run react fuel = d := by
  cases fuel with
  | zero => rfl
  | succ fuel => simp [run, done]

/-- All that is left of a delivery: each observer is called in its turn, whoever failed before it, and then the
waiters get the event. A call takes two steps at most. -/
theorem run_onlookers (pending : List Subscription) {fuel : Nat} (enough : 2 * pending.length < fuel) :
    run (onlookers fails) fuel ⟨bus, [⟨e, pending, []⟩], delivered, resolved, log⟩ =
      ⟨bus.resolve e, [], delivered ++ (pending.filter (·.matches e)).map (·, e),
        resolved ++ (bus.waitersFor e).map (·, e),
        log ++ ((pending.filter (·.matches e)).filter fails).map fun _ => failure e⟩ := by
  induction pending generalizing fuel delivered log with
  | nil =>
    obtain ⟨fuel, rfl⟩ := Nat.exists_eq_succ_of_ne_zero (Nat.ne_of_gt enough)
    rw [run, if_neg (by simp)]
    simpa [step] using run_over rfl fuel
  | cons s rest ih =>
    obtain ⟨fuel, rfl⟩ := Nat.exists_eq_succ_of_ne_zero (Nat.ne_of_gt (Nat.zero_lt_of_lt enough))
    rw [List.length_cons] at enough
    rw [run, if_neg (by simp)]
    by_cases wanted : s.matches e = true
    · by_cases failing : fails s = true
      · -- The second step of this call is the failure.
        obtain ⟨fuel, rfl⟩ : ∃ less, fuel = less + 1 := ⟨fuel - 1, by omega⟩
        simp only [step, wanted, ↓reduceIte, onlookers, failing]
        rw [run, if_neg (by simp)]
        simp only [step, act, fail]
        rw [ih (by omega)]
        simp [wanted, failing]
      · simp only [step, wanted, ↓reduceIte, onlookers, failing, Bool.false_eq_true]
        rw [ih (by omega)]
        simp [wanted, failing]
    · simp only [step, wanted, Bool.false_eq_true, ↓reduceIte]
      rw [ih (by omega)]
      simp [wanted]

end Delivery

namespace WaitTasks

inductive Move
  | subscribe (name : String) (observer : Nat) (device : Option Scalar)
  | cancel (id : Nat)
  | publish (e : Event) (fails : Subscription → Bool)
  | await (w : Waiter) (limit : TimeLimit)
  | expire (name : String)

namespace Move

def published? : Move → Option Event
  | .publish e _ => some e
  | _ => none

def isSubscription : Move → Bool
  | .subscribe .. => true
  | _ => false

def cancels (id : Nat) : Move → Bool
  | .cancel other => other == id
  | _ => false

def awaits (name : String) : Move → Bool
  | .await w _ => w.name == name
  | _ => false

def ends? (w : Waiter) (limit : TimeLimit) : Move → Option WaitResult
  | .publish e _ => if w.Wants e then some (.event e) else none
  | .expire name => if name = w.name ∧ limit = .distant then some .expired else none
  | _ => none

end Move

/-- The time of a wait is up only if it has a limit and still waits. -/
def isDue (t : WaitTasks) (name : String) : Bool :=
  t.limited.contains name && t.bus.waiters.any fun w => w.name == name

def step (t : WaitTasks) : Move → WaitTasks
  | .subscribe name observer device => { t with bus := t.bus.subscribe name observer device }
  | .cancel id => { t with bus := t.bus.unsubscribe id }
  | .publish e fails => t.publish (Delivery.onlookers fails) (2 * t.bus.subscriptions.length + 1) e
  | .await w limit => t.begin (w, limit)
  | .expire name => if t.isDue name then t.drop name .expired else t

def run (t : WaitTasks) (moves : List Move) : WaitTasks :=
  moves.foldl step t

def callsOf (t : WaitTasks) (id : Nat) : List (Subscription × Event) :=
  t.delivered.filter fun call => call.1.id = id

def listeners (t : WaitTasks) (id : Nat) : List Subscription :=
  t.bus.subscriptions.filter fun s => s.id = id

def resultsOf (t : WaitTasks) (name : String) : List (String × WaitResult) :=
  t.results.filter fun result => result.1 = name

def waiting (t : WaitTasks) (name : String) : List Waiter :=
  t.bus.waiters.filter fun w => w.name = name

def subscribed (moves : List Move) : Nat :=
  moves.countP Move.isSubscription

def heard (id : Nat) (wanted : Option Scalar) (after : List Move) : List Event :=
  ((after.takeWhile fun m => !m.cancels id).filterMap Move.published?).filter fun e => About wanted e

/-- How a wait ends, by what comes after it. -/
def fate (w : Waiter) (limit : TimeLimit) (after : List Move) : Option WaitResult :=
  match limit with
  | .none => some .expired
  | _ => after.findSome? (Move.ends? w limit)

variable {t : WaitTasks} {m : Move} {s : Subscription} {e : Event} {fails : Subscription → Bool} {id : Nat}
  {name : String} {w : Waiter} {limit : TimeLimit}

@[simp] theorem run_nil (t : WaitTasks) : t.run [] = t := rfl

@[simp] theorem run_cons (t : WaitTasks) (m : Move) (moves : List Move) : t.run (m :: moves) = (t.step m).run moves :=
  rfl

theorem run_append (t : WaitTasks) (before after : List Move) :
    t.run (before ++ after) = (t.run before).run after :=
  List.foldl_append

theorem publish_onlookers (t : WaitTasks) (e : Event) (fails : Subscription → Bool) {fuel : Nat}
    (enough : 2 * t.bus.subscriptions.length < fuel) : t.publish (Delivery.onlookers fails) fuel e =
      { t with
        bus := t.bus.resolve e
        results := t.results ++ (t.bus.waitersFor e).map fun w => (w.name, .event e)
        delivered := t.delivered ++ (t.bus.observersOf e).map (·, e)
        log := t.log ++ ((t.bus.observersOf e).filter fails).map fun _ => Delivery.failure e } := by
  simp only [publish, Delivery.ofBus, Delivery.send, Delivery.run_onlookers _ enough]
  simp [Bus.observersOf]

theorem step_publish (t : WaitTasks) (e : Event) (fails : Subscription → Bool) : t.step (.publish e fails) =
    { t with
      bus := t.bus.resolve e
      results := t.results ++ (t.bus.waitersFor e).map fun w => (w.name, .event e)
      delivered := t.delivered ++ (t.bus.observersOf e).map (·, e)
      log := t.log ++ ((t.bus.observersOf e).filter fails).map fun _ => Delivery.failure e } :=
  t.publish_onlookers e fails (Nat.lt_succ_self _)

/-- Apart from publishing, no move calls an observer. -/
theorem step_delivered (t : WaitTasks) (m : Move) : (t.step m).delivered =
    t.delivered ++ (m.published?.map fun e => (t.bus.observersOf e).map (·, e)).getD [] := by
  cases m with
  | publish e fails => simp [step_publish, Move.published?]
  | await w limit => cases limit <;> simp [step, begin, Move.published?]
  | expire name =>
    simp only [step, Move.published?]
    split <;> simp [drop]
  | subscribe | cancel => simp [step, Move.published?]

theorem step_subscriptions (t : WaitTasks) (m : Move) : (t.step m).bus.subscriptions =
    match m with
    | .subscribe name observer device => t.bus.subscriptions ++ [⟨t.bus.issued, name, observer, device⟩]
    | .cancel id => t.bus.subscriptions.filter fun s => s.id ≠ id
    | _ => t.bus.subscriptions := by
  cases m with
  | publish e fails => simp [step_publish, Bus.resolve]
  | await w limit => cases limit <;> rfl
  | expire name =>
    simp only [step]
    split <;> rfl
  | subscribe | cancel => rfl

theorem step_issued (t : WaitTasks) (m : Move) :
    (t.step m).bus.issued = t.bus.issued + if m.isSubscription then 1 else 0 := by
  cases m with
  | publish e fails => simp [step_publish, Bus.resolve, Move.isSubscription]
  | await w limit => cases limit <;> rfl
  | expire name =>
    simp only [step, Move.isSubscription]
    split <;> rfl
  | subscribe | cancel => rfl

theorem run_issued (t : WaitTasks) (moves : List Move) :
    (t.run moves).bus.issued = t.bus.issued + subscribed moves := by
  induction moves generalizing t with
  | nil => rfl
  | cons m rest ih =>
    rw [run_cons, ih, step_issued, subscribed, subscribed, List.countP_cons]
    omega

structure Numbered (t : WaitTasks) : Prop where
  subscriptions : ∀ s ∈ t.bus.subscriptions, s.id < t.bus.issued
  delivered : ∀ call ∈ t.delivered, call.1.id < t.bus.issued

theorem Numbered.step (numbered : t.Numbered) (m : Move) : (t.step m).Numbered := by
  have grows : t.bus.issued ≤ (t.step m).bus.issued := by
    rw [step_issued]
    exact Nat.le_add_right ..
  constructor
  · intro s registered
    rw [step_subscriptions] at registered
    cases m with
    | subscribe name observer device =>
      rcases List.mem_append.mp registered with old | new
      · exact Nat.lt_of_lt_of_le (numbered.subscriptions s old) grows
      · rw [List.mem_singleton.mp new]
        exact Nat.lt_succ_self _
    | cancel id => exact Nat.lt_of_lt_of_le (numbered.subscriptions s (List.mem_filter.mp registered).1) grows
    | publish | await | expire => exact Nat.lt_of_lt_of_le (numbered.subscriptions s registered) grows
  · intro call made
    apply Nat.lt_of_lt_of_le _ grows
    rw [step_delivered] at made
    rcases List.mem_append.mp made with old | new
    · exact numbered.delivered call old
    · cases published : m.published? with
      | none => simp [published] at new
      | some e =>
        obtain ⟨s, observes, rfl⟩ : ∃ s ∈ t.bus.observersOf e, (s, e) = call := by simpa [published] using new
        exact numbered.subscriptions s (List.mem_filter.mp observes).1

theorem Numbered.run (numbered : t.Numbered) (moves : List Move) : (t.run moves).Numbered := by
  induction moves generalizing t with
  | nil => exact numbered
  | cons m rest ih => exact ih (numbered.step m)

theorem empty_numbered : (ofBus .empty).Numbered :=
  ⟨by simp [ofBus, Bus.empty], by simp [ofBus]⟩

theorem Numbered.callsOf_next (numbered : t.Numbered) : t.callsOf t.bus.issued = [] := by
  apply List.filter_eq_nil_iff.mpr
  intro call made same
  exact Nat.ne_of_lt (numbered.delivered call made) (of_decide_eq_true same)

theorem Numbered.listeners_next (numbered : t.Numbered) : t.listeners t.bus.issued = [] := by
  apply List.filter_eq_nil_iff.mpr
  intro s registered same
  exact Nat.ne_of_lt (numbered.subscriptions s registered) (of_decide_eq_true same)

theorem step_callsOf (t : WaitTasks) (m : Move) (id : Nat) : (t.step m).callsOf id = t.callsOf id ++
    (m.published?.map fun e => ((t.listeners id).filter (·.matches e)).map (·, e)).getD [] := by
  rw [callsOf, step_delivered, List.filter_append, ← callsOf]
  cases m.published? with
  | none => rfl
  | some e =>
    simp only [Option.map_some, Option.getD_some, Bus.observersOf, listeners, List.filter_map, List.filter_filter]
    congr 2
    apply List.filter_congr
    intro s _
    simp [Bool.and_comm]

theorem step_listeners (m : Move) (old : id < t.bus.issued) :
    (t.step m).listeners id = if m.cancels id then [] else t.listeners id := by
  rw [listeners, step_subscriptions]
  cases m with
  | subscribe name observer device =>
    have other : t.bus.issued ≠ id := Nat.ne_of_gt old
    simp [listeners, Move.cancels, other]
  | cancel other =>
    simp only [Move.cancels, listeners, List.filter_filter, beq_iff_eq]
    split
    next same => simp [same]
    next differ =>
      apply List.filter_congr
      intro s _
      by_cases same : s.id = id
      · simp [same, Ne.symm differ]
      · simp [same]
  | publish | await | expire => simp [listeners, Move.cancels]

theorem heard_cons (id : Nat) (wanted : Option Scalar) (m : Move) (rest : List Move) : heard id wanted (m :: rest) =
    if m.cancels id then [] else (m.published?.toList.filter fun e => About wanted e) ++ heard id wanted rest := by
  by_cases cancels : m.cancels id = true
  · simp [heard, cancels]
  · cases published : m.published? <;> simp [heard, cancels, published, List.filter_cons]
    split <;> rfl

/-- Once a number is given away, its calls are what its listeners hear, and there are no others. -/
theorem run_callsOf (moves : List Move) {wanted : Option Scalar} (old : id < t.bus.issued)
    (about : ∀ s ∈ t.listeners id, s.device = wanted) : (t.run moves).callsOf id =
      t.callsOf id ++ (heard id wanted moves).flatMap fun e => (t.listeners id).map (·, e) := by
  induction moves generalizing t with
  | nil => simp [heard]
  | cons m rest ih =>
    have later : id < (t.step m).bus.issued := by
      rw [step_issued]
      exact Nat.lt_add_right _ old
    have kept : ∀ s ∈ (t.step m).listeners id, s.device = wanted := by
      intro s listens
      rw [step_listeners m old] at listens
      split at listens
      · cases listens
      · exact about s listens
    rw [run_cons, ih later kept, step_callsOf, step_listeners m old, heard_cons]
    by_cases cancels : m.cancels id = true
    · have silent : m.published? = none := by cases m <;> first | rfl | cases cancels
      simp [cancels, silent]
    · cases published : m.published? with
      | none => simp [cancels]
      | some e =>
        have heeded : (t.listeners id).filter (·.matches e) = if About wanted e then t.listeners id else [] := by
          split
          next concerned =>
            exact List.filter_eq_self.mpr fun s listens => Subscription.matches_iff.mpr (about s listens ▸ concerned)
          next unconcerned =>
            apply List.filter_eq_nil_iff.mpr
            intro s listens observes
            exact unconcerned (about s listens ▸ Subscription.matches_iff.mp observes)
        by_cases concerned : About wanted e <;> simp [cancels, heeded, concerned]

/-- A subscription is called for what it hears, once for each event and in order. -/
theorem run_subscribed (numbered : t.Numbered) (observer : Nat) (device : Option Scalar) (after : List Move) :
    (t.run (.subscribe name observer device :: after)).callsOf t.bus.issued =
      (heard t.bus.issued device after).map (⟨t.bus.issued, name, observer, device⟩, ·) := by
  have registered : (t.step (.subscribe name observer device)).listeners t.bus.issued =
      [⟨t.bus.issued, name, observer, device⟩] := by
    rw [listeners, step_subscriptions, List.filter_append, ← listeners, numbered.listeners_next]
    simp
  have uncalled : (t.step (.subscribe name observer device)).callsOf t.bus.issued = [] := by
    rw [step_callsOf, numbered.callsOf_next]
    rfl
  have old : t.bus.issued < (t.step (.subscribe name observer device)).bus.issued := Nat.lt_succ_self _
  have about : ∀ s ∈ (t.step (.subscribe name observer device)).listeners t.bus.issued, s.device = device := by
    simp [registered]
  rw [run_cons, run_callsOf after old about, registered, uncalled, List.map_eq_flatMap]
  rfl

theorem isDue_iff : t.isDue name = true ↔ name ∈ t.limited ∧ t.waiting name ≠ [] := by
  simp [isDue, waiting]

theorem step_waiting (t : WaitTasks) (m : Move) (other : m.awaits name = false) : (t.step m).waiting name =
    match m with
    | .publish e _ => (t.waiting name).filter fun w => !w.matches e
    | .expire due => if due = name ∧ t.isDue name then [] else t.waiting name
    | _ => t.waiting name := by
  cases m with
  | subscribe | cancel => rfl
  | publish e fails =>
    simp only [step_publish, waiting, Bus.resolve, List.filter_filter]
    exact List.filter_congr fun w _ => Bool.and_comm ..
  | await w limit =>
    have differ : w.name ≠ name := by simpa [Move.awaits] using other
    cases limit <;> simp [step, begin, waiting, Bus.await, differ]
  | expire due =>
    simp only [step]
    by_cases same : due = name
    · subst same
      by_cases up : t.isDue due = true <;> simp [up, drop, waiting, Bus.forget]
    · split
      · simp only [same, false_and, ↓reduceIte, drop, waiting, Bus.forget, List.filter_filter]
        apply List.filter_congr
        intro w _
        by_cases named : w.name = name
        · simp [named, Ne.symm same]
        · simp [named]
      · simp [same]

theorem step_resultsOf (t : WaitTasks) (m : Move) (other : m.awaits name = false) : (t.step m).resultsOf name =
    match m with
    | .publish e _ => t.resultsOf name ++ ((t.waiting name).filter (·.matches e)).map fun w => (w.name, .event e)
    | .expire due => if due = name ∧ t.isDue name then [(name, .expired)] else t.resultsOf name
    | _ => t.resultsOf name := by
  cases m with
  | subscribe | cancel => rfl
  | publish e fails =>
    simp only [step_publish, resultsOf, List.filter_append, List.filter_map, waiting, Bus.waitersFor,
      List.filter_filter]
    congr 2
    exact List.filter_congr fun w _ => Bool.and_comm ..
  | await w limit =>
    have differ : w.name ≠ name := by simpa [Move.awaits] using other
    cases limit <;> simp [step, begin, resultsOf, differ]
  | expire due =>
    simp only [step]
    by_cases same : due = name
    · subst same
      by_cases up : t.isDue due = true <;> simp [up, drop, resultsOf]
    · split
      · simp only [same, false_and, ↓reduceIte, drop, resultsOf, List.filter_append, List.filter_filter]
        have unlike : [(due, WaitResult.expired)].filter (fun result => result.1 = name) = [] := by simp [same]
        rw [unlike, List.append_nil]
        apply List.filter_congr
        intro result _
        by_cases named : result.1 = name
        · simp [named, Ne.symm same]
        · simp [named]
      · simp [same]

theorem step_limited (t : WaitTasks) (m : Move) (other : m.awaits name = false) :
    name ∈ (t.step m).limited ↔ name ∈ t.limited ∧ ¬ ((∃ due, m = .expire due ∧ due = name) ∧ t.isDue name) := by
  cases m with
  | subscribe | cancel => simp [step]
  | publish e fails => simp [step_publish]
  | await w limit =>
    have differ : w.name ≠ name := by simpa [Move.awaits] using other
    cases limit <;> simp [step, begin, Ne.symm differ]
  | expire due =>
    simp only [step]
    by_cases same : due = name
    · subst same
      by_cases up : t.isDue due = true <;> simp [up, drop]
    · split
      · simp [same, drop, Ne.symm same]
      · simp [same]

/-- Nobody waits under a name: nobody did yet, or there is a result. -/
structure Settled (t : WaitTasks) (name : String) (result : Option WaitResult) : Prop where
  waiting : t.waiting name = []
  results : t.resultsOf name = (result.map (name, ·)).toList

structure Pending (t : WaitTasks) (w : Waiter) (limit : TimeLimit) : Prop where
  waiting : t.waiting w.name = [w]
  results : t.resultsOf w.name = []
  limited : w.name ∈ t.limited ↔ limit = .distant

def Stands (t : WaitTasks) (w : Waiter) (limit : TimeLimit) : Option WaitResult → Prop
  | none => t.Pending w limit
  | some result => t.Settled w.name (some result)

/-- No move gives a result to those who do not wait. -/
theorem Settled.step {result : Option WaitResult} (settled : t.Settled name result) (other : m.awaits name = false) :
    (t.step m).Settled name result := by
  have early : t.isDue name = false := by
    apply Bool.eq_false_iff.mpr
    intro up
    exact (isDue_iff.mp up).2 settled.waiting
  constructor
  · rw [step_waiting t m other]
    cases m <;> simp [settled.waiting]
  · rw [step_resultsOf t m other]
    cases m <;> simp [settled.waiting, settled.results, early]

theorem Settled.run {result : Option WaitResult} (settled : t.Settled name result) {moves : List Move}
    (other : ∀ m ∈ moves, m.awaits name = false) : (t.run moves).Settled name result := by
  induction moves generalizing t with
  | nil => exact settled
  | cons m rest ih =>
    rw [List.forall_mem_cons] at other
    exact ih (settled.step other.1) other.2

/-- What one move makes of a wait that is on the bus. -/
theorem Pending.step (pending : t.Pending w limit) (other : m.awaits w.name = false) :
    (t.step m).Stands w limit (m.ends? w limit) := by
  have up : t.isDue w.name = true ↔ limit = .distant := by
    rw [isDue_iff, pending.limited, pending.waiting]
    simp
  have waiting := step_waiting t m other
  have results := step_resultsOf t m other
  have limited := step_limited t m other
  rw [pending.waiting] at waiting
  rw [pending.results] at results
  rw [pending.limited] at limited
  -- Only an event that is wanted, or the end of its own time, makes a difference to a wait.
  cases m with
  | subscribe | cancel | await => exact ⟨waiting, results, by simpa using limited⟩
  | publish e fails =>
    by_cases wanted : w.Wants e
    · have gets := Waiter.matches_iff.mpr wanted
      simp only [Move.ends?, wanted, ↓reduceIte]
      exact ⟨by simpa [gets] using waiting, by simpa [gets, pending.waiting] using results⟩
    · have passes : w.matches e = false := Bool.eq_false_iff.mpr fun gets => wanted (Waiter.matches_iff.mp gets)
      simp only [Move.ends?, wanted, ↓reduceIte]
      exact ⟨by simpa [passes] using waiting, by simpa [passes, pending.waiting] using results,
        by simpa using limited⟩
  | expire due =>
    by_cases now : due = w.name ∧ limit = .distant
    · have late : due = w.name ∧ t.isDue w.name = true := ⟨now.1, up.mpr now.2⟩
      simp only [Move.ends?, now, and_self, ↓reduceIte]
      exact ⟨by simpa [late] using waiting, by simpa [late] using results⟩
    · have early : ¬ (due = w.name ∧ t.isDue w.name = true) := fun late => now ⟨late.1, up.mp late.2⟩
      simp only [Move.ends?, now, ↓reduceIte]
      refine ⟨by simpa only [early, ↓reduceIte] using waiting, by simpa only [early, ↓reduceIte] using results,
        limited.trans ⟨And.left, fun distant => ⟨distant, ?_⟩⟩⟩
      rintro ⟨⟨_, same, named⟩, _⟩
      cases same
      exact now ⟨named, distant⟩

/-- The first move that ends a wait is its fate. -/
theorem Pending.run (pending : t.Pending w limit) {moves : List Move}
    (other : ∀ m ∈ moves, m.awaits w.name = false) :
    (t.run moves).Stands w limit (moves.findSome? (Move.ends? w limit)) := by
  induction moves generalizing t with
  | nil => exact pending
  | cons m rest ih =>
    rw [List.forall_mem_cons] at other
    have next := pending.step other.1
    rw [run_cons, List.findSome?_cons]
    cases ended : m.ends? w limit with
    | none =>
      rw [ended] at next
      exact ih next other.2
    | some result =>
      rw [ended] at next
      exact Settled.run next other.2

structure Unknown (t : WaitTasks) (name : String) : Prop extends t.Settled name none where
  unlimited : name ∉ t.limited

theorem Unknown.run (unknown : t.Unknown name) {moves : List Move} (other : ∀ m ∈ moves, m.awaits name = false) :
    (t.run moves).Unknown name := by
  induction moves generalizing t with
  | nil => exact unknown
  | cons m rest ih =>
    rw [List.forall_mem_cons] at other
    have unlimited : name ∉ (t.step m).limited := by
      rw [step_limited t m other.1]
      exact fun limited => unknown.unlimited limited.1
    exact ih ⟨unknown.toSettled.step other.1, unlimited⟩ other.2

theorem empty_unknown (name : String) : (ofBus .empty).Unknown name :=
  ⟨⟨rfl, rfl⟩, by simp [ofBus]⟩

theorem Unknown.run_awaited (unknown : t.Unknown w.name) {after : List Move}
    (other : ∀ m ∈ after, m.awaits w.name = false) :
    (t.run (.await w limit :: after)).Stands w limit (fate w limit after) := by
  have listed : (t.bus.await w).waiters.filter (fun v => v.name = w.name) = [w] := by
    have waiting : t.bus.waiters.filter (fun v => v.name = w.name) = [] := unknown.waiting
    simp [Bus.await, List.filter_append, waiting]
  have shown : t.results.filter (fun result => result.1 = w.name) = [] := unknown.results
  rw [run_cons]
  cases limit with
  | none =>
    have settled : (t.step (.await w .none)).Settled w.name (some .expired) :=
      ⟨unknown.waiting, by simp [step, begin, resultsOf, List.filter_append, shown]⟩
    exact settled.run other
  | distant =>
    have pending : (t.step (.await w .distant)).Pending w .distant :=
      ⟨listed, shown, by simp [step, begin]⟩
    exact pending.run other
  | never =>
    have pending : (t.step (.await w .never)).Pending w .never :=
      ⟨listed, shown, by simpa [step, begin] using unknown.unlimited⟩
    exact pending.run other

structure Delivers (moves : List Move) (t : WaitTasks) : Prop where
  calls : ∀ before name observer device after, moves = before ++ .subscribe name observer device :: after →
    t.callsOf (subscribed before) =
      (heard (subscribed before) device after).map (⟨subscribed before, name, observer, device⟩, ·)
  strays : ∀ call ∈ t.delivered, call.1.id < subscribed moves
  waits : ∀ before w limit after, moves = before ++ .await w limit :: after →
    (∀ m ∈ before ++ after, m.awaits w.name = false) →
    t.resultsOf w.name = ((fate w limit after).map (w.name, ·)).toList ∧
    t.waiting w.name = if (fate w limit after).isSome then [] else [w]
  publishes : ∀ e fails fuel, 2 * t.bus.subscriptions.length < fuel →
    ((Delivery.ofBus t.bus).send e).run (Delivery.onlookers fails) fuel =
      ⟨t.bus.resolve e, [], (t.bus.observersOf e).map (·, e), (t.bus.waitersFor e).map (·, e),
        ((t.bus.observersOf e).filter fails).map fun _ => Delivery.failure e⟩

theorem Stands.shown {result : Option WaitResult} (stands : t.Stands w limit result) :
    t.resultsOf w.name = (result.map (w.name, ·)).toList ∧
      t.waiting w.name = if result.isSome then [] else [w] := by
  cases result with
  | none => exact ⟨Pending.results stands, Pending.waiting stands⟩
  | some result => exact ⟨Settled.results stands, Settled.waiting stands⟩

/-- Every subscription is called for each event of its device that is published while it is there, in order, and
never else; every waiter gets the first event that it wants, if it comes in time; and whatever observers fail, an
event reaches all whom it concerns. -/
theorem run_delivers (moves : List Move) : Delivers moves ((ofBus .empty).run moves) := by
  constructor
  · rintro before name observer device after rfl
    have numbered := empty_numbered.run before
    have number : ((ofBus .empty).run before).bus.issued = subscribed before := by
      rw [run_issued]
      exact Nat.zero_add _
    rw [run_append, ← number]
    exact run_subscribed numbered observer device after
  · intro call made
    have numbered := (empty_numbered.run moves).delivered call made
    rw [run_issued] at numbered
    simpa [ofBus, Bus.empty] using numbered
  · rintro before w limit after rfl other
    rw [List.forall_mem_append] at other
    rw [run_append]
    exact (((empty_unknown w.name).run other.1).run_awaited other.2).shown
  · intro e fails fuel enough
    exact Delivery.run_onlookers _ enough

/-- An observer that always fails, and one that looks on; one wait that ends in time and one that does not. -/
theorem failing_observer_disturbs_nobody :
    let told (device : String) : Event := ⟨.str device, .acquired, true, none, none, none⟩
    let wanting (name : String) : Waiter := ⟨name, some (.str "eth0"), some .acquired, none⟩
    let broken : Subscription := ⟨0, "broken", 0, none⟩
    let watching : Subscription := ⟨1, "watching", 1, some (.str "eth0")⟩
    let t := (ofBus .empty).run [
      .subscribe "broken" 0 none, .await (wanting "early") .distant, .publish (told "eth1") (fun s => s.id = 0),
      .subscribe "watching" 1 (some (.str "eth0")), .publish (told "eth0") (fun s => s.id = 0), .cancel 0,
      .await (wanting "late") .distant, .expire "late", .publish (told "eth0") (fun s => s.id = 0)]
    t.callsOf 0 = [(broken, told "eth1"), (broken, told "eth0")] ∧
      t.callsOf 1 = [(watching, told "eth0"), (watching, told "eth0")] ∧
      t.resultsOf "early" = [("early", .event (told "eth0"))] ∧
      t.resultsOf "late" = [("late", .expired)] ∧ t.waiting "late" = [] := by
  intro told wanting broken watching t
  have delivers := run_delivers [
    .subscribe "broken" 0 none, .await (wanting "early") .distant, .publish (told "eth1") (fun s => s.id = 0),
    .subscribe "watching" 1 (some (.str "eth0")), .publish (told "eth0") (fun s => s.id = 0), .cancel 0,
    .await (wanting "late") .distant, .expire "late", .publish (told "eth0") (fun s => s.id = 0)]
  have early := delivers.waits [_] (wanting "early") .distant _ rfl (by decide)
  have late := delivers.waits [_, _, _, _, _, _] (wanting "late") .distant _ rfl (by decide)
  exact ⟨(delivers.calls [] "broken" 0 none _ rfl).trans (by decide),
    (delivers.calls [_, _, _] "watching" 1 _ _ rfl).trans (by decide),
    early.1.trans (by decide), late.1.trans (by decide), late.2.trans (by decide)⟩

end WaitTasks
end Leasehold
