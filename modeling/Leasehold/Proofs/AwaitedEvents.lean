import Leasehold.Proofs.CallHearing
import Leasehold.Proofs.RemoteAnswers

/-! Waiting for what was started. A call that acquires or drops with a wait is on the bus before it starts anything, so
that no event is missed that is published until its time is up; and with an event of its kind it is answered, when what
follows from the event is done. Here as on the bus an event that has come prevails over the timer, which only gives the
call up at its next turn. -/

namespace Leasehold

namespace Tools

open Relation

variable {h : Host} {w : Waiting} {device : Option Scalar} {count : Nat} {seen : List Event} {late : String → Bool}
  {e : Event}

namespace Server

variable {s s' : Server} {place : Nat}

structure Follows (s : Server) (place : Nat) (w : Waiting) (device : Option Scalar) (count : Nat) (seen : List Event) :
    Prop where
  tidy : s.Tidy
  limited : s.Holds fun h => h.engine.Limited
  named : w.name ≠ Host.engineName
  call : ∃ h timeout c, s.opened = some (h, timeout) ∧ s.calls[place]? = some c ∧
    c.stage.Awaits w device count seen h

def published (s : Server) : List Event := (s.opened.map fun opened => opened.1.published).getD []

theorem Follows.see (follows : s.Follows place w device count seen) :
    s.Follows place w device count (s.published.drop count) := by
  obtain ⟨h, timeout, c, standing, here, awaits⟩ := follows.call
  have published : s.published = h.published := by simp [published, standing]
  exact ⟨follows.tidy, follows.limited, follows.named, h, timeout, c, standing, here, published ▸ awaits.see⟩

/-- Another call than the one at a place has another name. -/
theorem Tidy.apart (tidy : s.Tidy) {before after : List CallState} {c c' : CallState} {name : String}
    (calls : s.calls = before ++ c' :: after) (here : s.calls[place]? = some c) (other : place ≠ before.length)
    (mine : c.stage.onBus? = some name) : c'.stage.onBus? ≠ some name := by
  intro theirs
  have distinct := tidy.distinct
  simp only [onBus, calls, List.filterMap_append, List.filterMap_cons, theirs, List.nodup_append,
    List.nodup_cons] at distinct
  obtain ⟨-, ⟨unlike, -⟩, apart⟩ := distinct
  rw [calls] at here
  obtain earlier | later := Nat.lt_or_gt_of_ne other
  · rw [List.getElem?_append_left earlier] at here
    have member : name ∈ before.filterMap fun c => c.stage.onBus? :=
      List.mem_filterMap.mpr ⟨c, List.mem_of_getElem? here, mine⟩
    exact apart name member name List.mem_cons_self rfl
  · obtain ⟨gap, same⟩ := Nat.exists_eq_add_of_lt later
    rw [same, Nat.add_assoc, List.getElem?_append_right (Nat.le_add_right _ _), Nat.add_sub_cancel_left,
      List.getElem?_cons_succ] at here
    exact unlike (List.mem_filterMap.mpr ⟨c, List.mem_of_getElem? here, mine⟩)

theorem getElem?_turned {before after : List CallState} {c c' : CallState} (other : place ≠ before.length) :
    (before ++ c' :: after)[place]? = (before ++ c :: after)[place]? := by
  have set : before ++ c' :: after = (before ++ c :: after).set before.length c' := by simp
  rw [set, List.getElem?_set_ne (Ne.symm other)]

theorem Goes.limited (goes : s.Goes late s') (limited : s.Holds fun h => h.engine.Limited) :
    s'.Holds fun h => h.engine.Limited := by
  cases goes with
  | aside => exact limited
  | opens unopened built =>
    rintro _ _ ⟨rfl, rfl⟩
    obtain ⟨devices, mode, registry, rfl⟩ := Host.ofInventory_ok built
    exact .ofRegistry registry
  | onward standing onward =>
    rintro _ _ ⟨rfl, rfl⟩
    exact onward.limited (limited _ _ standing)
  | refused => exact limited
  | called standing called device =>
    rintro _ _ ⟨rfl, rfl⟩
    have before := limited _ _ standing
    cases called with
    | answered onward => exact onward.limited before
    | waits _ comes onward | left _ comes onward leaves => exact onward.limited (comes.engine.symm ▸ before)
  | turned turned =>
    obtain ⟨standing, calls, turn⟩ := turned
    rintro _ _ ⟨rfl, rfl⟩
    rw [turn.engine.1]
    exact limited _ _ standing

theorem goes_limited (goes : ReflTransGen (Goes late) s s') (limited : s.Holds fun h => h.engine.Limited) :
    s'.Holds fun h => h.engine.Limited := by
  induction goes with
  | refl => exact limited
  | tail _ goes ih => exact goes.limited ih

theorem run_limited (limited : s.Holds fun h => h.engine.Limited) (moves : List Move) :
    (s.run moves).Holds fun h => h.engine.Limited := by
  induction moves generalizing s with
  | nil => exact limited
  | cons m rest ih =>
    apply ih
    by_cases out : m = .handOut
    · subst out
      exact limited
    · exact goes_limited (s.step_goes out) limited

namespace Follows

/-- A small step leaves the call in its place, where it waits or has heard of what it waits for. -/
theorem goes (follows : s.Follows place w device count seen) (starts : w.kind.isSome)
    (in_time : late w.name = false ∨ w.Came device seen) (goes : s.Goes late s') :
    s'.Follows place w device count seen := by
  refine ⟨follows.tidy.goes goes, goes.limited follows.limited, follows.named, ?_⟩
  obtain ⟨h, timeout, c, standing, here, awaits⟩ := follows.call
  have limited := follows.limited h timeout standing
  have appended (more : List CallState) : (s.calls ++ more)[place]? = some c := by
    rw [List.getElem?_append_left (List.getElem?_eq_some_iff.mp here).1]
    exact here
  cases goes with
  | aside => exact ⟨h, timeout, c, standing, here, awaits⟩
  | opens unopened => simp [unopened] at standing
  | onward standing' onward =>
    obtain ⟨rfl, rfl⟩ := Prod.mk.inj (Option.some.inj (standing.symm.trans standing'))
    exact ⟨_, _, c, rfl, here, awaits.onward follows.named limited onward⟩
  | refused => exact ⟨h, timeout, c, standing, appended _, awaits⟩
  | called standing' called device =>
    obtain ⟨rfl, rfl⟩ := Prod.mk.inj (Option.some.inj (standing.symm.trans standing'))
    refine ⟨_, _, c, rfl, appended _, ?_⟩
    have come {v : Waiting} {begun : Host} (comes : v.Comes h begun) : begun.engine.Limited :=
      comes.engine.symm ▸ limited
    cases called with
    | answered onward => exact awaits.onward follows.named limited onward
    | waits _ comes onward => exact (awaits.comes comes).onward follows.named (come comes) onward
    | left named comes onward leaves =>
      have shows := (follows.tidy.comes standing named comes onward device).bus _ _ rfl
      refine ((awaits.comes comes).onward follows.named (come comes) onward).leave shows fun waits same => ?_
      refine follows.tidy.fresh (named ▸ same ▸ List.mem_filterMap.mpr ⟨c, List.mem_of_getElem? here, ?_⟩)
      exact awaits.onBus? waits
  | turned turned =>
    obtain @⟨h', next, timeout', before, after, c', stage, standing', calls, turn⟩ := turned
    obtain ⟨rfl, rfl⟩ := Prod.mk.inj (Option.some.inj (standing.symm.trans standing'))
    by_cases mine : place = before.length
    · subst mine
      obtain rfl : c' = c := by simpa [calls] using here
      exact ⟨next, timeout, { c' with stage := stage }, rfl, by simp, awaits.turn starts in_time turn⟩
    · have there : (before ++ { c' with stage := stage } :: after)[place]? = some c := by
        rw [getElem?_turned (c := c') mine, ← calls]
        exact here
      refine ⟨next, timeout, c, rfl, there, ?_⟩
      have shows := follows.tidy.bus h timeout standing
      have other {v : Waiting} (theirs : c'.stage = .waiting v) (waits : c.stage.onBus?.isSome) : v.name ≠ w.name := by
        intro same
        refine follows.tidy.apart calls here mine (awaits.onBus? waits) ?_
        rw [theirs, ← same]
        rfl
      generalize theirs : c'.stage = stage' at turn
      cases turn with
      | stays => exact awaits
      | receives v e arrived =>
        rw [(v.receive_leaves h e).1]
        exact awaits.leave shows (other theirs)
      | expires v => exact awaits.leave shows (other theirs)
      | finishes => exact awaits

theorem goes_on (follows : s.Follows place w device count seen) (starts : w.kind.isSome)
    (in_time : late w.name = false ∨ w.Came device seen)
    (goes : ReflTransGen (Goes late) s s') : s'.Follows place w device count seen := by
  induction goes with
  | refl => exact follows
  | tail _ goes ih => exact ih.goes starts in_time goes

end Follows

/-- Where the call stands that has so many others before it, after moves. An answer that is handed out stays what it
is. -/
def stageAfter (s : Server) (place : Nat) : List Move → Option Stage
  | [] => (s.calls[place]?).map CallState.stage
  | .handOut :: rest =>
    match s.calls[place]? with
    | none => none
    | some c =>
      if c.answer?.isSome then some c.stage
      else (s.step .handOut).stageAfter ((s.calls.take place).filter fun c => c.answer?.isNone).length rest
  | m :: rest => (s.step m).stageAfter place rest

theorem stageAfter_cons (s : Server) (place : Nat) {m : Move} (stays : m ≠ .handOut) (rest : List Move) :
    s.stageAfter place (m :: rest) = (s.step m).stageAfter place rest := by
  cases m with
  | handOut => exact absurd rfl stays
  | take | rest | proceed | timeUp | happen | surround => rfl

theorem getElem?_filter_take {α : Type} {l : List α} {p : α → Bool} {i : Nat} {a : α} (here : l[i]? = some a)
    (holds : p a = true) : (l.filter p)[((l.take i).filter p).length]? = some a := by
  obtain ⟨inside, rfl⟩ := List.getElem?_eq_some_iff.mp here
  have parts : l = l.take i ++ l[i] :: l.drop (i + 1) := by
    rw [List.getElem_cons_drop inside, List.take_append_drop]
  have kept : l.filter p = (l.take i).filter p ++ l[i] :: (l.drop (i + 1)).filter p := by
    conv_lhs => rw [parts]
    rw [List.filter_append, List.filter_cons_of_pos holds]
  rw [kept, List.getElem?_append_right (Nat.le_refl _), Nat.sub_self]
  rfl

/-- Moves take the call to its answer, which may be handed out, or leave it in a place where it goes on. -/
theorem Follows.run (follows : s.Follows place w device count seen) (starts : w.kind.isSome) (moves : List Move)
    (in_time : (∀ m ∈ moves, m.strikes w.name = false) ∨ w.Came device seen) :
    (∃ a, Stage.Told w (.answered a) ∧ ∀ later, s.stageAfter place (moves ++ later) = some (.answered a)) ∨
      ∃ place', (s.run moves).Follows place' w device count seen ∧
        ∀ later, s.stageAfter place (moves ++ later) = (s.run moves).stageAfter place' later := by
  induction moves generalizing s place with
  | nil => exact Or.inr ⟨place, follows, fun _ => rfl⟩
  | cons m rest ih =>
    have rest_in_time := in_time.imp_left fun unstruck m member => unstruck m (List.mem_cons_of_mem _ member)
    by_cases out : m = .handOut
    · subst out
      obtain ⟨h, timeout, c, standing, here, awaits⟩ := follows.call
      match stage : c.stage with
      | .answered a =>
        have answered : c.answer?.isSome := by
          simp only [CallState.answer?, stage]
          split <;> rfl
        refine Or.inl ⟨a, stage ▸ awaits.told, fun later => ?_⟩
        simp only [List.cons_append, stageAfter, here, answered, if_true, stage]
      | .waiting v | .draining v e task =>
        have open' : c.answer? = none := by simp [CallState.answer?, stage]
        have moved : (s.step .handOut).Follows ((s.calls.take place).filter fun c => c.answer?.isNone).length w device
            count seen :=
          ⟨follows.tidy.step .handOut, follows.limited, follows.named, h, timeout, c, standing,
            getElem?_filter_take here (by simp [open']), awaits⟩
        have same (later : List Move) : s.stageAfter place (.handOut :: rest ++ later) = (s.step .handOut).stageAfter
            ((s.calls.take place).filter fun c => c.answer?.isNone).length (rest ++ later) := by
          simp [stageAfter, here, open']
        simp only [same]
        exact ih moved rest_in_time
    · have moved := follows.goes_on starts (in_time.imp_left fun unstruck => unstruck m List.mem_cons_self)
        (s.step_goes out)
      simp only [List.cons_append, stageAfter_cons s place out]
      exact ih moved rest_in_time

theorem holds_turned {p : Engine → List Callback → Prop} (turned : ReflTransGen (Turned late) s s')
    (holds : s.Holds fun h => p h.engine h.callbacks) : s'.Holds fun h => p h.engine h.callbacks := by
  induction turned with
  | refl => exact holds
  | tail _ turned ih =>
    obtain ⟨standing, calls, turn⟩ := turned
    rintro _ _ ⟨rfl, rfl⟩
    obtain ⟨engine, callbacks⟩ := turn.engine
    rw [engine, callbacks]
    exact ih _ _ standing

/-- What a turn keeps of a call's stage, any number of turns keep of the call at a place. -/
theorem stands_turned {r : Stage → Prop}
    (keeps : ∀ {h next : Host} {stage stage' : Stage}, r stage → stage.Turn late h next stage' → r stage')
    (turned : ReflTransGen (Turned late) s s') (stands : ∃ c, s.calls[place]? = some c ∧ r c.stage) :
    ∃ c, s'.calls[place]? = some c ∧ r c.stage := by
  induction turned with
  | refl => exact stands
  | tail _ turned ih =>
    obtain ⟨c, here, holds⟩ := ih
    obtain @⟨h, next, timeout, before, after, c', stage, standing, calls, turn⟩ := turned
    rw [calls] at here
    by_cases mine : place = before.length
    · subst mine
      obtain rfl : c' = c := by simpa using here
      exact ⟨{ c' with stage := stage }, by simp, keeps holds turn⟩
    · exact ⟨c, (getElem?_turned mine).trans here, holds⟩

namespace Follows

/-- The call at a place has its turn, and finds its host as it was but for the calls that left the bus before. -/
theorem takes {r : Stage → Prop} (follows : s.Follows place w device count seen) (starts : w.kind.isSome)
    (came : w.Came device seen) {c : CallState} (here : s.calls[place]? = some c)
    (idle : s.Holds fun h => h.engine.task = none)
    (own : ∀ {h : Host}, c.stage.Awaits w device count seen h → h.engine.task = none → r (c.stage.advance h).2)
    (keeps : ∀ {h next : Host} {stage stage' : Stage}, r stage → stage.Turn (fun _ => false) h next stage' → r stage') :
    ∃ c, (s.onCalls Stage.advance).calls[place]? = some c ∧ r c.stage := by
  obtain ⟨h, timeout, -, standing, -⟩ := follows.call
  obtain ⟨inside, same⟩ := List.getElem?_eq_some_iff.mp here
  have calls : s.calls = s.calls.take place ++ c :: s.calls.drop (place + 1) := by
    rw [← same, List.getElem_cons_drop inside, List.take_append_drop]
  obtain ⟨mid, moved, length, first, second⟩ := onCalls_turned Stage.Turn.advance standing calls
  have length : moved.length = place := by
    rw [length, List.length_take]
    omega
  have there := follows.goes_on starts (Or.inr came) (turned_goes first)
  obtain ⟨h', timeout', c', standing', here', awaits⟩ := there.call
  obtain ⟨rfl, rfl⟩ := Prod.mk.inj (Option.some.inj standing')
  obtain rfl : c = c' := by simpa [← length] using here'
  have ended : mid.engine.task = none := holds_turned (p := fun e _ => e.task = none) first idle _ _ rfl
  exact stands_turned keeps second
    ⟨{ c with stage := (c.stage.advance mid).2 }, by simp [← length], own awaits ended⟩

/-- When the host has come to rest twice, the call has its answer. -/
theorem rests (follows : s.Follows place w device count seen) (starts : w.kind.isSome)
    (came : w.Came device seen) :
    ∃ a, Stage.Told w (.answered a) ∧ s.stageAfter place [.rest, .rest] = some (.answered a) := by
  -- The host settles, and everything that it owes but one pass is done.
  obtain ⟨h, timeout, c, standing, -⟩ := follows.call
  obtain ⟨settled, -, opened, same⟩ := rest_turns standing
  have calm : s.rest.Holds fun h => h.callbacks = [] ∧
      (h.engine.Awake ∧ (h.engine.newestTask? = none ∨ h.engine.backlog ≤ 1)) := by
    rw [same]
    refine holds_turned (p := fun e line => line = [] ∧ (e.Awake ∧ (e.newestTask? = none ∨ e.backlog ≤ 1)))
      (settled.advance_turned.trans (advance_turned _)) ?_
    intro h' timeout' standing'
    obtain ⟨rfl, rfl⟩ := Prod.mk.inj (Option.some.inj (opened.symm.trans standing'))
    obtain ⟨callbacks, engine⟩ := Host.settle_settled (s.perform_quiet timeout) (h, s.spawned)
      (follows.limited h timeout standing)
    exact ⟨callbacks, engine⟩
  have once := follows.goes_on starts (Or.inr came) s.rest_goes
  -- It settles again, and its task is over.
  obtain ⟨h₁, timeout₁, -, standing₁, -⟩ := once.call
  obtain ⟨settled₁, goes₁, opened₁, same₁⟩ := rest_turns standing₁
  have ended : settled₁.Holds fun h => h.engine.task = none := by
    intro h' timeout' standing'
    obtain ⟨rfl, rfl⟩ := Prod.mk.inj (Option.some.inj (opened₁.symm.trans standing'))
    obtain ⟨callbacks, engine⟩ := calm h₁ timeout₁ standing₁
    exact Host.settle_over (s.rest.perform_quiet timeout₁) (h₁, s.rest.spawned)
      (once.limited h₁ timeout₁ standing₁) ⟨callbacks, engine⟩
  have turns := settled₁.advance_turned
  have still := once.goes_on starts (Or.inr came) goes₁
  have last := still.goes_on starts (Or.inr came) (turned_goes turns)
  -- In its first turn the call takes its event, and in the second one what has come of the event.
  obtain ⟨_, _, c₁, _, here₁, _⟩ := still.call
  obtain ⟨c₂, here₂, taken⟩ := still.takes (r := fun stage => stage.onBus? = none) starts came here₁ ended
    (fun awaits _ => awaits.advance_gone came) fun gone turn => turn.gone gone
  obtain ⟨c₃, here₃, a, answered⟩ := last.takes (r := fun stage => ∃ a, stage = .answered a) starts came here₂
    (holds_turned (p := fun e _ => e.task = none) turns ended)
    (fun awaits ended => awaits.advance_answered taken ended) fun answered turn => turn.answered answered
  have twice := once.goes_on starts (Or.inr came) s.rest.rest_goes
  rw [same₁] at twice
  obtain ⟨_, _, c, _, here, awaits⟩ := twice.call
  obtain rfl := Option.some.inj (here₃.symm.trans here)
  refine ⟨a, answered ▸ awaits.told, ?_⟩
  change (s.rest.rest.calls[place]?).map CallState.stage = _
  rw [same₁, here₃, Option.map_some, answered]

end Follows

end Server

end Tools

namespace Host

theorem told_published (h : Host) (service : Service) (es : List Effect) :
    (h.told service es).published = h.published ++ events es := by
  unfold told
  generalize events es = published
  suffices all : ∀ h : Host, (published.foldl publish h).published = h.published ++ published from
    all { h with service := service }
  induction published with
  | nil => simp
  | cons e rest ih =>
    intro h
    rw [List.foldl_cons, ih (h.publish e)]
    simp [publish]

theorem after_published {ε α : Type} (h : Host) (o : Outcome ε α) :
    (h.after o).published = h.published ++ events o.effects := by
  simp only [Host.after]
  exact told_published _ _ _

end Host

namespace Tools

def Errand.tool : Errand → String
  | .acquire => "acquire"
  | .drop => "drop"
  | .listen => "wait_lease_event"

def Errand.outcome? : Errand → Option EventKind
  | .acquire => some .acquired
  | .drop => some .released
  | .listen => none

def Errand.wait (errand : Errand) (name : String) (shown : Value) (arguments : Entries) : Waiting :=
  ⟨name, errand, errand.outcome?, shown, timeoutOf arguments⟩

/-- An errand that is started publishes its outcome only if its start succeeds. -/
structure Starts (w : Waiting) (run : Host → Except Fault Unit × Host) : Prop where
  onward : ∀ h : Host, h.Onward (run h).2
  fails : ∀ (h : Host) (fault : Fault), (run h).1 = .error fault →
    ∀ e ∈ (run h).2.published.drop h.published.length, ¬ w.Wants e

variable {name : String} {shown : Value} {arguments : Entries} {about : Scalar} {errand : Errand}

theorem acquire_starts (name : String) (shown : Value) (arguments : Entries) (device : Scalar) (options : Value)
    (intake : Intake) : Starts (Errand.acquire.wait name shown arguments) fun h =>
      ((h.acquire device options intake).1.mapError ofRemote, (h.acquire device options intake).2) where
  onward h := .after h _
  fails h fault _ e member wanted := by
    simp only [Host.acquire, Host.after_published, List.drop_left] at member
    have released := Service.acquire_events _ _ _ _ _ e member
    simp [Waiting.Wants, Errand.wait, Errand.outcome?, released] at wanted

theorem drop_starts (name : String) (shown : Value) (arguments : Entries) (device : Scalar) (uuid : Value) :
    Starts (Errand.drop.wait name shown arguments) fun h =>
      ((h.drop device uuid).1.mapError ofRemote, (h.drop device uuid).2) where
  onward h := .after h _
  fails h fault failed e member _ := by
    have refused : ∃ fault, (Remote.drop h.service device uuid h.negotiator.release).result = .error fault := by
      cases result : (Remote.drop h.service device uuid h.negotiator.release).result with
      | error fault => exact ⟨fault, rfl⟩
      | ok => simp [Host.drop, result, Except.mapError] at failed
    obtain ⟨fault, refused⟩ := refused
    simp only [Host.drop, Host.after_published, List.drop_left, (Remote.drop_untouched refused).silent] at member
    cases member

/-- A call that starts an errand with a wait comes to the bus before it starts. -/
theorem call_starts {σ : Type} (perform : Host.Perform σ) (h : Host) (world : σ) (name : String) (intake : Intake)
    (starts : errand ≠ .listen) (known : deviceOf h arguments = .ok (shown, about))
    (waits : (given arguments "wait" (.bool false)).isTruthy = true) :
    ∃ run, Starts (errand.wait name shown arguments) run ∧
      call perform (h, world) name intake errand.tool arguments =
        ((((errand.wait name shown arguments).start h about run).1, world),
          ((errand.wait name shown arguments).start h about run).2) := by
  cases errand with
  | acquire =>
    refine ⟨_, acquire_starts name shown arguments about (given arguments "options" .null) intake, ?_⟩
    simp only [call, Errand.tool, acquire, known, Tools.run, waits, if_true]
    rfl
  | drop =>
    refine ⟨_, drop_starts name shown arguments about (Uuid.ofArgument (given arguments "uuid" .null)), ?_⟩
    simp only [call, Errand.tool, drop, known, Tools.run, waits, if_true]
    rfl
  | listen => exact absurd rfl starts

/-- A call that is made hears from its start on; if it is answered at once all the same, nothing that it wants has been
published. -/
theorem Starts.awaits {run : Host → Except Fault Unit × Host} (runs : Starts w run) (kind : w.kind.isSome)
    (other : w.name ≠ Host.engineName) (h : Host) (about : Scalar) :
    Stage.Awaits w (deviceFilter about) h.published.length [] (w.start h about run).1
        (.ofResult (w.start h about run).2) ∨
      (∃ a, Stage.ofResult (w.start h about run).2 = .answered a) ∧
        ∀ e ∈ (w.start h about run).1.published.drop h.published.length,
          concerns (deviceFilter about) e = true → ¬ w.Wants e := by
  have begun := (Host.hears_subscribed h w.name (deviceFilter about)).onward other
    (runs.onward { h with bus := h.bus.subscribe w.name 1 (deviceFilter about) })
  have fails := runs.fails { h with bus := h.bus.subscribe w.name 1 (deviceFilter about) }
  unfold Waiting.start
  generalize run { h with bus := h.bus.subscribe w.name 1 (deviceFilter about) } = result at begun fails ⊢
  obtain ⟨fault | _, mid⟩ := result
  · exact Or.inr ⟨⟨_, rfl⟩, fun e member _ => fails fault rfl e member⟩
  · simp only [Waiting.wait]
    cases limit : patience w.timeout with
    | error fault =>
      exact Or.inl ⟨.refused fault limit, by simp [Stage.ofResult, Stage.onBus?], by simp [Stage.ofResult]⟩
    | ok patience =>
      cases arrived : w.arrived? mid with
      | some e => exact Or.inl (.receive (Waiting.wants_arrived kind arrived))
      | none =>
        cases patience with
        | none =>
          refine Or.inr ⟨⟨_, rfl⟩, fun e member about wanted => ?_⟩
          obtain ⟨first, came⟩ := Waiting.Came.arrived ⟨e, member, about, wanted⟩ begun.see
          simp [arrived] at came
        | some => exact Or.inl ⟨.waiting, fun _ => begun, by simp [Stage.ofResult]⟩

namespace Server

variable {s : Server} {place : Nat}

theorem host_published {timeout : Binary64} (found : s.host = .ok (h, timeout)) : h.published = s.published := by
  unfold Server.host at found
  split at found
  next opened standing =>
    obtain rfl := Except.ok.inj found
    simp [published, standing]
  next unopened =>
    obtain ⟨v, -, found⟩ := Reading.bind_ok found
    obtain ⟨inv, -, found⟩ := Reading.bind_ok found
    obtain ⟨devices, mode, registry, rfl⟩ := Host.ofInventory_ok (Reading.mapError_ok found)
    simp [published, unopened, Host.watch, Host.bare]

/-- A call that starts an errand at a known device, with a wait for its outcome. -/
structure Expects (s : Server) (errand : Errand) (arguments : Entries) (shown : Value) (about : Scalar) : Prop where
  starts : errand ≠ .listen
  waits : (given arguments "wait" (.bool false)).isTruthy = true
  known : ∃ h timeout, s.host = .ok (h, timeout) ∧ deviceOf h arguments = .ok (shown, about)

/-- An event that a call wants is published during its start, or in moves since, while it waits and its time is not
up. -/
structure InTime (asked : Server) (place : Nat) (w : Waiting) (about : Scalar) (count : Nat) (moves : List Move) :
    Prop where
  waits : moves ≠ [] → asked.stageAfter place [] = some (.waiting w)
  unstruck : ∀ m ∈ moves, m.strikes w.name = false
  published : ∃ e ∈ (asked.run moves).published.drop count, w.Wants e ∧ about.isKey e.device = true

theorem call_eq {timeout : Binary64} (found : s.host = .ok (h, timeout)) (intake : Intake) (tool : String)
    (arguments : Entries) :
    let called := Tools.call (s.perform timeout) (h, s.spawned) (callName s.made) intake tool arguments
    s.call intake tool arguments =
      { s with
        opened := some (called.1.1, timeout)
        spawned := called.1.2
        made := s.made + 1
        calls := s.calls ++ [⟨given arguments "device" (.str "N/A"), .ofResult called.2⟩] } := by
  intro called
  unfold Server.call
  rw [found]
  rfl

theorem concerns_of_key (same : about.isKey e.device = true) : concerns (deviceFilter about) e = true := by
  unfold deviceFilter
  split
  · rfl
  · exact same

/-- A call to which an event comes in time has begun to listen when it was made. -/
theorem Expects.follows (expects : s.Expects errand arguments shown about) (tidy : s.Tidy)
    (limited : s.Holds fun h => h.engine.Limited) (intake : Intake) {moves : List Move}
    (in_time : (s.call intake errand.tool arguments).InTime s.calls.length
      (errand.wait (callName s.made) shown arguments) about s.published.length moves) :
    (s.call intake errand.tool arguments).Follows s.calls.length (errand.wait (callName s.made) shown arguments)
      (deviceFilter about) s.published.length [] := by
  have asked_tidy := tidy.step (.take intake (.call errand.tool arguments))
  have asked_limited := run_limited limited [.take intake (.call errand.tool arguments)]
  obtain ⟨h, timeout, found, known⟩ := expects.known
  obtain ⟨run, runs, same⟩ := call_starts (s.perform timeout) h s.spawned (callName s.made) intake expects.starts known
    expects.waits
  have kind : (errand.wait (callName s.made) shown arguments).kind.isSome := by
    cases errand with
    | acquire | drop => rfl
    | listen => exact absurd rfl expects.starts
  have awaits := runs.awaits kind (callName_ne_engine s.made) h about
  have asked := call_eq found intake errand.tool arguments
  rw [same] at asked
  rw [host_published found] at awaits
  change (s.call intake errand.tool arguments).Tidy at asked_tidy
  change (s.call intake errand.tool arguments).Holds _ at asked_limited
  have other : (errand.wait (callName s.made) shown arguments).name ≠ Host.engineName := callName_ne_engine s.made
  generalize errand.wait (callName s.made) shown arguments = w at awaits asked in_time same other ⊢
  obtain awaits | ⟨⟨a, answered⟩, nothing⟩ := awaits
  · refine ⟨asked_tidy, asked_limited, other, _, timeout, ⟨given arguments "device" (.str "N/A"), _⟩, by rw [asked], ?_,
      awaits⟩
    rw [asked]
    exact List.getElem?_concat_length
  · exfalso
    cases moves with
    | nil =>
      obtain ⟨e, member, wanted, same⟩ := in_time.published
      change e ∈ (s.call intake errand.tool arguments).published.drop _ at member
      rw [asked] at member
      exact nothing e member (concerns_of_key same) wanted
    | cons m rest =>
      have waits := in_time.waits (List.cons_ne_nil m rest)
      rw [asked] at waits
      simp [stageAfter, answered] at waits

/-- A call to which an event comes in time is answered with one, whatever happens later. -/
theorem Follows.answered (follows : s.Follows place w (deviceFilter about) count []) (kind : w.kind.isSome)
    {moves : List Move} (in_time : s.InTime place w about count moves) (later : List Move) :
    (∃ stage, s.stageAfter place (moves ++ later) = some stage ∧ Stage.Told w stage) ∧
      ∃ a, s.stageAfter place (moves ++ later ++ [.rest, .rest]) = some (.answered a) ∧ Stage.Told w (.answered a) := by
  obtain ⟨a, told, same⟩ | ⟨place', moved, same⟩ := follows.run kind moves (Or.inl in_time.unstruck)
  · refine ⟨⟨_, same later, told⟩, a, ?_, told⟩
    rw [List.append_assoc]
    exact same _
  · have came : w.Came (deviceFilter about) ((s.run moves).published.drop count) := by
      obtain ⟨e, member, wanted, same⟩ := in_time.published
      exact ⟨e, member, concerns_of_key same, wanted⟩
    obtain ⟨a, told, same'⟩ | ⟨place'', moved', same'⟩ := moved.see.run kind later (Or.inr came)
    · refine ⟨⟨_, ?_, told⟩, a, ?_, told⟩
      · rw [same]
        simpa using same' []
      · rw [List.append_assoc, same]
        exact same' _
    · obtain ⟨h, timeout, c, standing, here, awaits⟩ := moved'.call
      obtain ⟨a, told, answered⟩ := moved'.rests kind came
      refine ⟨⟨c.stage, ?_, awaits.told⟩, a, ?_, told⟩
      · have last := same' []
        rw [List.append_nil] at last
        rw [same, last, stageAfter, here]
        rfl
      · rw [List.append_assoc, same, same']
        exact answered

/-- In any state that a server can come to, the bus has one subscription besides the engine's for each call that waits
for what it has started, and a waiter at most for each call that waits for an event only; so it has the engine's alone
when all calls are answered. A call that starts something and waits misses nothing that is published before its time
is up: it is answered with an event of its kind, once everything has run that can. -/
theorem waiting_calls_answered (now : Moment) (document : Except Yaml.Fault Value) (path : String)
    (process : Kind → Role → Except SystemFault Child) (moves : List Move) :
    let s := (initial now document path process).run moves
    (∀ h timeout, s.opened = some (h, timeout) →
      h.bus.subscriptions.map Subscription.name = Host.engineName :: s.subscribers ∧
      (h.bus.waiters.map Waiter.name).Sublist s.listeners ∧
      (Host.engineName :: s.subscribers).Nodup ∧ s.listeners.Nodup ∧
      ((∀ c ∈ s.calls, ∃ a, c.stage = .answered a) →
        h.bus.subscriptions = [⟨0, Host.engineName, 0, none⟩] ∧ h.bus.waiters = [])) ∧
    ∀ intake errand arguments shown about, s.Expects errand arguments shown about →
      let asked := s.call intake errand.tool arguments
      let w := errand.wait (callName s.made) shown arguments
      ∀ first, asked.InTime s.calls.length w about s.published.length first → ∀ later,
        (∃ stage, asked.stageAfter s.calls.length (first ++ later) = some stage ∧ Stage.Told w stage) ∧
        ∃ a, asked.stageAfter s.calls.length (first ++ later ++ [.rest, .rest]) = some (.answered a) ∧
          Stage.Told w (.answered a) := by
  intro s
  have tidy : s.Tidy := (Tidy.initial now document path process).run moves
  have limited : s.Holds fun h => h.engine.Limited := run_limited (.of_initial now document path process _) moves
  refine ⟨fun h timeout standing => tidy.on_bus standing, ?_⟩
  intro intake errand arguments shown about expects asked w first in_time later
  have kind : w.kind.isSome := by
    cases errand with
    | acquire | drop => rfl
    | listen => exact absurd rfl expects.starts
  exact (expects.follows tidy limited intake in_time).answered kind in_time later

/-- A call that drops with no time to wait has the event of the request that it cancels, while another call listens. -/
theorem cancelled_request_awaited :
    let document : Value := .map [(.str "devices", .map [(.str "eth0", .map [])])]
    let options : Value := .map [(.str "hostname", .str "a"), (.str "uuid", .scalar (.bytes (List.replicate 16 1)))]
    let arguments : Entries := [(.str "device", .str "eth0"), (.str "wait", .bool true), (.str "timeout", .int 0)]
    let moves : List Move := [.take default (.call "wait_lease_event" [(.str "device", .str "eth0")]),
      .take default (.call "acquire" [(.str "device", .str "eth0"), (.str "options", options)])]
    let s := (initial default (.ok document) "" fun _ _ => .ok .quiet).run moves
    let asked := s.call default "drop" arguments
    let w := Errand.drop.wait (callName s.made) (.str "eth0") arguments
    s.listeners = [callName 0] ∧ s.Expects .drop arguments (.str "eth0") (.str "eth0") ∧
      asked.InTime s.calls.length w (.str "eth0") s.published.length [] ∧
      (∃ a, asked.stageAfter s.calls.length [.rest, .rest] = some (.answered a) ∧ Stage.Told w (.answered a)) ∧
      (asked.run [.rest, .rest]).calls.map (fun c => c.stage.toldUuid?) =
        [some (Hex.encode (List.replicate 16 1)), none, some (Hex.encode (List.replicate 16 1))] := by
  intro document options arguments moves s asked w
  have stands : (s.host.toOption.map fun opened => (opened.1.store.device? (.str "eth0")).isSome) = some true := by
    decide +kernel
  obtain ⟨⟨h, timeout⟩, host, listed⟩ := Option.map_eq_some_iff.mp stands
  have known : deviceOf h arguments = .ok (.str "eth0", .str "eth0") := by
    change (deviceName h.store (.scalar (.str "eth0")) >>= _) = _
    simp only [deviceName, listed]
    rfl
  have expects : s.Expects .drop arguments (.str "eth0") (.str "eth0") :=
    ⟨by decide, by decide, h, timeout, Reading.ok_of_toOption host, known⟩
  have in_time : asked.InTime s.calls.length w (.str "eth0") s.published.length [] :=
    ⟨fun some => absurd rfl some, fun _ member => absurd member List.not_mem_nil, by decide +kernel⟩
  have answers :=
    (waiting_calls_answered default (.ok document) "" (fun _ _ => .ok .quiet) moves).2 default .drop arguments
    (.str "eth0") (.str "eth0") expects [] in_time []
  exact ⟨by decide +kernel, expects, in_time, answers.2, by decide +kernel⟩

end Server

end Tools

end Leasehold
