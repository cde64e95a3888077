import Leasehold.Proofs.BusDiscipline
import Leasehold.Proofs.SettledPasses

/-! What a call hears while it is on the bus. It has every event about its device that is published meanwhile, whoever
else comes and leaves; in its turn it takes the first one that it wants, and its time cannot be up any more. -/

namespace Leasehold

namespace Host

variable {h next : Host} {name : String} {device : Option Scalar} {count : Nat} {seen : List Event}

/-- A call is on the bus, and has all the events about its device that were published since there were so many. Those
that were seen are among them. -/
structure Hears (name : String) (device : Option Scalar) (count : Nat) (seen : List Event) (h : Host) : Prop where
  listed : ∃ s ∈ h.bus.subscriptions, s.name = name ∧ s.device = device
  mail : ∀ e ∈ h.published.drop count, concerns device e = true → (name, e) ∈ h.mail
  since : seen ⊆ h.published.drop count

namespace Hears

theorem aside (hears : h.Hears name device count seen) (bus : next.bus = h.bus) (mail : next.mail = h.mail)
    (published : next.published = h.published) : next.Hears name device count seen :=
  ⟨bus ▸ hears.listed, published ▸ mail ▸ hears.mail, published ▸ hears.since⟩

/-- What is published reaches the call if it is about its device. -/
theorem publish (hears : h.Hears name device count seen) (other : name ≠ engineName) (e : Event) :
    (h.publish e).Hears name device count seen := by
  have published : (h.publish e).published.drop count =
      h.published.drop count ++ [e].drop (count - h.published.length) := List.drop_append
  refine ⟨hears.listed, ?_, ?_⟩
  · intro told member about
    rw [published] at member
    obtain old | new := List.mem_append.mp member
    · exact List.mem_append_left _ (hears.mail told old about)
    · obtain rfl := List.mem_singleton.mp (List.mem_of_mem_drop new)
      obtain ⟨s, there, named, about'⟩ := hears.listed
      have observes : s ∈ h.bus.observersOf told :=
        List.mem_filter.mpr ⟨there, by simp [Subscription.matches, about', about]⟩
      have addressed : name ∈ addressees h.bus told :=
        List.mem_append_left _ (named ▸ List.mem_map_of_mem observes)
      refine List.mem_append_right _ (List.mem_map_of_mem (List.mem_filter.mpr ⟨addressed, ?_⟩))
      exact decide_eq_true other
  · intro told member
    rw [published]
    exact List.mem_append_left _ (hears.since member)

theorem onward (hears : h.Hears name device count seen) (other : name ≠ engineName) (onward : h.Onward next) :
    next.Hears name device count seen := by
  apply onward.keeps (p := Hears name device count seen)
  · intro h next hears same
    exact hears.aside same.bus same.mail same.published
  · intro h hears e
    exact hears.publish other e
  · intro h hears m
    exact hears.aside rfl rfl rfl
  · exact hears

/-- Whoever else comes to the bus takes nothing away. -/
theorem comes (hears : h.Hears name device count seen) {w : Tools.Waiting} (comes : w.Comes h next) :
    next.Hears name device count seen := by
  obtain ⟨s, there, named, about⟩ := hears.listed
  cases comes with
  | subscribes => exact ⟨⟨s, List.mem_append_left _ there, named, about⟩, hears.mail, hears.since⟩
  | awaits => exact ⟨⟨s, there, named, about⟩, hears.mail, hears.since⟩

/-- Whoever else leaves the bus takes away what is its own. -/
theorem leave (hears : h.Hears name device count seen) {subscribers listeners : List String}
    (shows : h.bus.Shows subscribers listeners) {w : Tools.Waiting} (other : w.name ≠ name) :
    (w.leave h).Hears name device count seen := by
  obtain ⟨s, there, named, about⟩ := hears.listed
  refine ⟨⟨s, ?_, named, about⟩, ?_, hears.since⟩
  · change s ∈ ((h.bus.cancel w.name).forget w.name).subscriptions
    rw [shows.cancel_eq]
    exact List.mem_filter.mpr ⟨there, by simp [named, Ne.symm other]⟩
  · intro e member about
    exact List.mem_filter.mpr ⟨hears.mail e member about, by simp [Ne.symm other]⟩

theorem see (hears : h.Hears name device count seen) : h.Hears name device count (h.published.drop count) :=
  ⟨hears.listed, hears.mail, List.Subset.refl _⟩

end Hears

/-- A call that comes to the bus as a subscriber hears from then on. -/
theorem hears_subscribed (h : Host) (name : String) (device : Option Scalar) :
    ({ h with bus := h.bus.subscribe name 1 device } : Host).Hears name device h.published.length [] where
  listed := ⟨_, List.mem_append_right _ (List.mem_singleton_self _), rfl, rfl⟩
  mail := by simp
  since := by simp

end Host

namespace Tools

open Host (Hears)

variable {h next : Host} {w : Waiting} {device : Option Scalar} {count : Nat} {seen : List Event} {stage stage' : Stage}
  {late : String → Bool} {e : Event}

def Waiting.Wants (w : Waiting) (e : Event) : Prop := w.kind = some e.kind

instance (w : Waiting) (e : Event) : Decidable (w.Wants e) := inferInstanceAs (Decidable (w.kind = some e.kind))

/-- Among the events seen there is one about the device that the call wants. -/
def Waiting.Came (w : Waiting) (device : Option Scalar) (seen : List Event) : Prop :=
  ∃ e ∈ seen, concerns device e = true ∧ w.Wants e

theorem Waiting.Came.arrived (came : w.Came device seen) (hears : h.Hears w.name device count seen) :
    ∃ first, w.arrived? h = some first := by
  obtain ⟨e, came, about, wanted⟩ := came
  have letter := hears.mail e (hears.since came) about
  have fits : (w.name == w.name && w.kind.all fun kind => decide (kind = e.kind)) = true := by
    rw [show w.kind = some e.kind from wanted]
    simp
  have found : (h.mail.find? fun letter =>
      letter.1 == w.name && w.kind.all fun kind => decide (kind = letter.2.kind)).isSome :=
    List.find?_isSome.mpr ⟨(w.name, e), letter, fits⟩
  obtain ⟨first, found⟩ := Option.isSome_iff_exists.mp found
  exact ⟨first.2, by rw [Waiting.arrived?, found]; rfl⟩

theorem Waiting.wants_arrived (starts : w.kind.isSome) (arrived : w.arrived? h = some e) : w.Wants e := by
  obtain ⟨kind, wanted⟩ := Option.isSome_iff_exists.mp starts
  obtain ⟨letter, found, rfl⟩ := Option.map_eq_some_iff.mp arrived
  have fits := List.find?_some found
  simp only [wanted, Option.all_some, Bool.and_eq_true, decide_eq_true_eq] at fits
  rw [Waiting.Wants, wanted, fits.2]

namespace Stage

/-- Where a call may stand that has heard of what it waits for, or still may. It fails only for a time limit that is
none. -/
inductive Told (w : Waiting) : Stage → Prop
  | waiting : Told w (.waiting w)
  | draining (e : Event) (task : Nat) (wanted : w.Wants e) : Told w (.draining w e task)
  | completed (e : Event) (pass : Option PassResult) (wanted : w.Wants e) : Told w (.answered (w.completed e pass))
  | refused (fault : Fault) (limit : patience w.timeout = .error fault) : Told w (.answered fault.answer)

/-- The same with its host: as long as it waits it hears, and the task that it waits for afterwards comes to an end. -/
structure Awaits (w : Waiting) (device : Option Scalar) (count : Nat) (seen : List Event) (h : Host) (stage : Stage) :
    Prop where
  told : Told w stage
  hears : stage.onBus?.isSome → h.Hears w.name device count seen
  reaches : ∀ v e task, stage = .draining v e task → h.engine.Reaches task

theorem Told.receive (h : Host) (wanted : w.Wants e) : Told w (w.receive h e).2 := by
  unfold Waiting.receive
  simp only
  split
  · exact .completed e none wanted
  · split
    · exact .draining e _ wanted
    · exact .completed e none wanted

namespace Awaits

theorem receive (wanted : w.Wants e) : Awaits w device count seen (w.receive h e).1 (w.receive h e).2 := by
  obtain ⟨host, leaves⟩ := w.receive_leaves h e
  refine ⟨.receive h wanted, ?_, ?_⟩
  · intro waits
    rw [leaves.onBus?] at waits
    cases waits
  · intro v told task same
    rw [host]
    rw [same] at leaves
    cases leaves with
    | draining _ _ newest => exact Engine.reaches_newest newest

/-- A turn of the call itself. It does not run out of time once it has seen what it waits for. -/
theorem turn (awaits : Awaits w device count seen h stage) (starts : w.kind.isSome)
    (in_time : late w.name = false ∨ w.Came device seen)
    (turn : stage.Turn late h next stage') : Awaits w device count seen next stage' := by
  obtain ⟨told, hears, reaches⟩ := awaits
  cases told with
  | waiting =>
    cases turn with
    | stays => exact ⟨.waiting, hears, reaches⟩
    | receives _ e arrived => exact .receive (Waiting.wants_arrived starts arrived)
    | expires _ unheard struck =>
      obtain early | came := in_time
      · simp [early] at struck
      · obtain ⟨first, arrived⟩ := came.arrived (hears rfl)
        simp [unheard] at arrived
  | draining e task wanted =>
    cases turn with
    | stays => exact ⟨.draining e task wanted, hears, reaches⟩
    | finishes _ _ _ pass ended => exact ⟨.completed e pass wanted, by simp [onBus?], by simp⟩
  | completed e pass wanted =>
    cases turn with
    | stays => exact ⟨.completed e pass wanted, hears, reaches⟩
  | refused fault limit =>
    cases turn with
    | stays => exact ⟨.refused fault limit, hears, reaches⟩

theorem onward (awaits : Awaits w device count seen h stage) (other : w.name ≠ Host.engineName)
    (limited : h.engine.Limited) (onward : h.Onward next) : Awaits w device count seen next stage :=
  ⟨awaits.told, fun waits => (awaits.hears waits).onward other onward,
    fun v e task same => onward.reaches limited (awaits.reaches v e task same)⟩

theorem comes (awaits : Awaits w device count seen h stage) {v : Waiting} (comes : v.Comes h next) :
    Awaits w device count seen next stage :=
  ⟨awaits.told, fun waits => (awaits.hears waits).comes comes,
    fun v e task same => comes.engine.symm ▸ awaits.reaches v e task same⟩

theorem leave (awaits : Awaits w device count seen h stage) {subscribers listeners : List String}
    (shows : h.bus.Shows subscribers listeners) {v : Waiting} (other : stage.onBus?.isSome → v.name ≠ w.name) :
    Awaits w device count seen (v.leave h) stage :=
  ⟨awaits.told, fun waits => (awaits.hears waits).leave shows (other waits), awaits.reaches⟩

theorem see (awaits : Awaits w device count seen h stage) :
    Awaits w device count (h.published.drop count) h stage :=
  ⟨awaits.told, fun waits => (awaits.hears waits).see, awaits.reaches⟩

theorem onBus? (awaits : Awaits w device count seen h stage) (waits : stage.onBus?.isSome) :
    stage.onBus? = some w.name := by
  obtain ⟨told, -, -⟩ := awaits
  cases told with
  | waiting => rfl
  | draining | completed | refused => cases waits

end Awaits

/-- A call that has its event takes it when it has its turn. -/
theorem Awaits.advance_gone (awaits : Awaits w device count seen h stage)
    (came : w.Came device seen) : (stage.advance h).2.onBus? = none := by
  obtain ⟨told, hears, -⟩ := awaits
  cases told with
  | waiting =>
    obtain ⟨first, arrived⟩ := came.arrived (hears rfl)
    simp only [Stage.advance, arrived]
    exact (w.receive_leaves h first).2.onBus?
  | draining e task wanted =>
    simp only [Stage.advance]
    split <;> rfl
  | completed | refused => rfl

/-- A call that has taken its event is answered in its turn, when the task is over. -/
theorem Awaits.advance_answered (awaits : Awaits w device count seen h stage) (taken : stage.onBus? = none)
    (ended : h.engine.task = none) : ∃ a, (stage.advance h).2 = .answered a := by
  obtain ⟨told, -, reaches⟩ := awaits
  cases told with
  | waiting => cases taken
  | draining e task wanted =>
    obtain ⟨pass, result⟩ := (reaches w e task rfl).result ended
    exact ⟨w.completed e pass, by simp only [Stage.advance, result]⟩
  | completed e pass wanted => exact ⟨_, rfl⟩
  | refused fault limit => exact ⟨_, rfl⟩

theorem Turn.gone (turn : stage.Turn late h next stage') (gone : stage.onBus? = none) : stage'.onBus? = none := by
  cases turn with
  | stays => exact gone
  | receives | expires => cases gone
  | finishes => rfl

theorem Turn.answered (turn : stage.Turn late h next stage') (answered : ∃ a, stage = .answered a) :
    ∃ a, stage' = .answered a := by
  obtain ⟨a, rfl⟩ := answered
  cases turn with
  | stays => exact ⟨a, rfl⟩

/-- A turn of a call leaves the engine and the outcomes in line alone. -/
theorem Turn.engine (turn : stage.Turn late h next stage') : next.engine = h.engine ∧ next.callbacks = h.callbacks := by
  cases turn with
  | stays | expires | finishes => exact ⟨rfl, rfl⟩
  | receives v e arrived =>
    rw [(v.receive_leaves h e).1]
    exact ⟨rfl, rfl⟩

end Stage

end Tools

end Leasehold
