import Mathlib.Logic.Relation
import Leasehold.Proofs.HostWork
import Leasehold.Proofs.ToolMoves

/-! The moves of a server in small steps: the host is made, or goes on by itself; a call is made; and one call at a time
has its turn. A call comes to the bus when it is made, and leaves it with its answer or with its event. -/

namespace Leasehold.Tools

open Relation

/-- What a call has come to that leaves the bus: an answer, or an event and a task to wait for. -/
inductive Waiting.Leaves (w : Waiting) (h : Host) : Stage → Prop
  | answered (a : Answer) : Leaves w h (.answered a)
  | draining (e : Event) (task : Nat) (newest : h.engine.newestTask? = some task) : Leaves w h (.draining w e task)

/-- A call comes to the bus, with a subscription if it has something to start, and as a waiter if it only listens. -/
inductive Waiting.Comes (w : Waiting) (h : Host) : Host → Prop
  | subscribes (starts : w.errand ≠ .listen) (device : Option Scalar) :
      Comes w h { h with bus := h.bus.subscribe w.name 1 device }
  | awaits (listens : w.errand = .listen) (waiter : Waiter) (named : waiter.name = w.name) :
      Comes w h { h with bus := h.bus.await waiter }

inductive Called (name : String) (h : Host) : Host → Stage → Prop
  | answered {next : Host} (onward : h.Onward next) (a : Answer) : Called name h next (.answered a)
  | waits {w : Waiting} {begun next : Host} (named : w.name = name) (comes : w.Comes h begun)
      (onward : begun.Onward next) : Called name h next (.waiting w)
  | left {w : Waiting} {begun mid : Host} {stage : Stage} (named : w.name = name) (comes : w.Comes h begun)
      (onward : begun.Onward mid) (leaves : w.Leaves mid stage) : Called name h (w.leave mid) stage

inductive Stage.Turn (late : String → Bool) (h : Host) : Stage → Host → Stage → Prop
  | stays (stage : Stage) : Turn late h stage h stage
  | receives (w : Waiting) (e : Event) (arrived : w.arrived? h = some e) :
      Turn late h (.waiting w) (w.receive h e).1 (w.receive h e).2
  | expires (w : Waiting) (unheard : w.arrived? h = none) (struck : late w.name = true) :
      Turn late h (.waiting w) (w.leave h) (.answered w.expired)
  | finishes (w : Waiting) (e : Event) (task : Nat) (pass : Option PassResult)
      (ended : h.engine.taskResult? task = some pass) :
      Turn late h (.draining w e task) h (.answered (w.completed e pass))

variable {h begun : Host} {name : String} {w : Waiting} {stage : Stage} {late : String → Bool}

theorem Waiting.Comes.engine (comes : w.Comes h begun) : begun.engine = h.engine := by
  cases comes <;> rfl

theorem Waiting.receive_leaves (w : Waiting) (h : Host) (e : Event) :
    (w.receive h e).1 = w.leave h ∧ w.Leaves h (w.receive h e).2 := by
  unfold receive
  simp only
  split
  · exact ⟨rfl, .answered _⟩
  · split
    next task newest => exact ⟨rfl, .draining e task newest⟩
    next => exact ⟨rfl, .answered _⟩

theorem Waiting.wait_cases (w : Waiting) (h : Host) :
    w.wait h = (h, .ok (.waiting w)) ∨ (w.wait h).1 = w.leave h ∧ w.Leaves h (.ofResult (w.wait h).2) := by
  unfold wait
  split
  · exact Or.inr ⟨rfl, .answered _⟩
  next e _ _ => exact Or.inr (w.receive_leaves h e)
  · exact Or.inr ⟨rfl, .answered _⟩
  · exact Or.inl rfl

theorem Called.of_wait {mid : Host} (named : w.name = name) (comes : w.Comes h begun) (onward : begun.Onward mid) :
    Called name h (w.wait mid).1 (.ofResult (w.wait mid).2) := by
  obtain waits | ⟨host, leaves⟩ := w.wait_cases mid
  · rw [waits]
    exact .waits named comes onward
  · rw [host]
    exact .left named comes onward leaves

theorem run_called {errand : Host → Except Fault Unit × Host} {started : Host → List (String × Value)}
    (named : w.name = name) (starts : w.errand ≠ .listen) (arguments : Entries) (device : Scalar)
    (onward : ∀ h : Host, h.Onward (errand h).2) :
    Called name h (run h arguments w device errand started).1
      (.ofResult (run h arguments w device errand started).2) := by
  unfold run
  split
  · have begun := onward { h with bus := h.bus.subscribe w.name 1 (deviceFilter device) }
    have comes := Waiting.Comes.subscribes (h := h) starts (deviceFilter device)
    unfold Waiting.start
    generalize errand { h with bus := h.bus.subscribe w.name 1 (deviceFilter device) } = result at begun ⊢
    obtain ⟨fault | _, mid⟩ := result
    · exact .left named comes begun (.answered fault.answer)
    · exact .of_wait named comes begun
  · have begun := onward h
    generalize errand h = result at begun ⊢
    obtain ⟨fault | _, mid⟩ := result
    · exact .answered begun fault.answer
    · exact .answered begun _

theorem listDevices_onward (h : Host) : h.Onward (listDevices h).1 :=
  Host.Onward.refl.aside ⟨rfl, rfl, rfl, rfl⟩

theorem waitLeaseEvent_called (h : Host) (name : String) (arguments : Entries) :
    Called name h (waitLeaseEvent h name arguments).1 (.ofResult (waitLeaseEvent h name arguments).2) := by
  unfold waitLeaseEvent
  simp only
  cases deviceOf h arguments with
  | error fault => exact .answered .refl fault.answer
  | ok found =>
    cases eventKind (given arguments "event" .null) with
    | error fault => exact .answered .refl fault.answer
    | ok kind => exact .of_wait (w := ⟨name, .listen, kind, found.1, timeoutOf arguments⟩) rfl (.awaits rfl _ rfl) .refl

theorem Called.of_told {α : Type} {next : Host} (onward : h.Onward next) (read : Except Fault α) (shown : α → Value) :
    Called name h next (.ofResult (read >>= fun found => told (shown found))) := by
  cases read with
  | error fault => exact .answered onward fault.answer
  | ok found => exact .answered onward _

theorem call_called {σ : Type} {perform : Host.Perform σ} (quiet : perform.Quiet) (w : Host × σ) (name : String)
    (intake : Intake) (tool : String) (arguments : Entries) :
    Called name w.1 (call perform w name intake tool arguments).1.1
      (.ofResult (call perform w name intake tool arguments).2) := by
  unfold call
  simp only
  split
  · exact .answered (listDevices_onward w.1) _
  · exact .of_told .refl _ fun v => v
  · unfold acquire
    split
    next fault _ => exact .answered .refl fault.answer
    next =>
      apply run_called
      · rfl
      · simp
      · exact fun h => .after h _
  · unfold drop
    split
    next fault _ => exact .answered .refl fault.answer
    next =>
      apply run_called
      · rfl
      · simp
      · exact fun h => .after h _
  · exact waitLeaseEvent_called w.1 name arguments
  · exact .answered (.reconcile quiet 1 0 w) _
  · exact .answered (.configure w.1) _
  · exact .of_told .refl _ _
  · exact .answered .refl _

theorem Stage.Turn.advance (stage : Stage) (h : Host) :
    Stage.Turn late h stage (stage.advance h).1 (stage.advance h).2 := by
  cases stage with
  | answered a => exact .stays _
  | waiting w =>
    simp only [Stage.advance]
    split
    next e arrived => exact .receives w e arrived
    next => exact .stays _
  | draining w e task =>
    simp only [Stage.advance]
    split
    next pass ended => exact .finishes w e task pass ended
    next => exact .stays _

theorem Stage.Turn.among {whose : String → Bool} {step : Stage → Host → Host × Stage}
    (turn : ∀ stage h, (∀ w, stage = .waiting w → whose w.name = true) →
      Stage.Turn late h stage (step stage h).1 (step stage h).2) (stage : Stage) (h : Host) :
    Stage.Turn late h stage (stage.among whose step h).1 (stage.among whose step h).2 := by
  cases stage with
  | answered a => exact .stays _
  | waiting w =>
    simp only [Stage.among]
    split
    next struck => exact turn _ h (by rintro _ ⟨⟩; exact struck)
    next => exact .stays _
  | draining w e task =>
    simp only [Stage.among]
    split
    next => exact turn _ h (by rintro _ ⟨⟩)
    next => exact .stays _

theorem Stage.Turn.giveUp (stage : Stage) (h : Host) (struck : ∀ w, stage = .waiting w → late w.name = true) :
    Stage.Turn late h stage (stage.giveUp h).1 (stage.giveUp h).2 := by
  cases stage with
  | answered a | draining w e task => exact .stays _
  | waiting w =>
    simp only [Stage.giveUp]
    split
    next e arrived => exact .receives w e arrived
    next unheard => exact .expires w unheard (struck w rfl)

namespace Server

def Move.strikes : Move → String → Bool
  | .timeUp whose => whose
  | _ => fun _ => false

inductive Turned (late : String → Bool) (s : Server) : Server → Prop
  | turn {h next : Host} {timeout : Binary64} {before after : List CallState} {c : CallState} {stage : Stage}
      (standing : s.opened = some (h, timeout)) (calls : s.calls = before ++ c :: after)
      (turn : Stage.Turn late h c.stage next stage) :
      Turned late s { s with opened := some (next, timeout), calls := before ++ { c with stage := stage } :: after }

/-- A small step: the surroundings change, the host is made or goes on by itself, a call is refused for want of a host,
a call is made, or one has its turn. -/
inductive Goes (late : String → Bool) (s : Server) : Server → Prop
  | aside (now : Moment) (document : Except Yaml.Fault Value) (path : String)
      (process : Kind → Role → Except SystemFault Child) (spawned : List Executor.Spawn) :
      Goes late s { s with now := now, document := document, path := path, process := process, spawned := spawned }
  | opens {inv : Inventory} {now : Moment} {h : Host} {timeout : Binary64} (unopened : s.opened = none)
      (built : Host.ofInventory inv now = .ok (h, timeout)) : Goes late s { s with opened := some (h, timeout) }
  | onward {h next : Host} {timeout : Binary64} (standing : s.opened = some (h, timeout)) (onward : h.Onward next) :
      Goes late s { s with opened := some (next, timeout) }
  | refused (device : Value) (a : Answer) :
      Goes late s { s with made := s.made + 1, calls := s.calls ++ [⟨device, .answered a⟩] }
  | called {h next : Host} {timeout : Binary64} {stage : Stage} (standing : s.opened = some (h, timeout))
      (called : Called (callName s.made) h next stage) (device : Value) :
      Goes late s { s with opened := some (next, timeout), made := s.made + 1, calls := s.calls ++ [⟨device, stage⟩] }
  | turned {next : Server} (turned : Turned late s next) : Goes late s next

variable {s next : Server}

/-- Calls that have their turns one after another, in front of others. -/
theorem foldl_turned {step : Stage → Host → Host × Stage}
    (turns : ∀ stage h, Stage.Turn late h stage (step stage h).1 (step stage h).2) (s : Server) (timeout : Binary64)
    (calls done others : List CallState) (h : Host) :
    ∃ h' moved, moved.length = calls.length ∧
      calls.foldl (fun (h, calls) c =>
        let (h, stage) := step c.stage h
        (h, calls ++ [{ c with stage := stage }])) (h, done) = (h', done ++ moved) ∧
      ReflTransGen (Turned late) { s with opened := some (h, timeout), calls := done ++ calls ++ others }
        { s with opened := some (h', timeout), calls := done ++ moved ++ others } := by
  induction calls generalizing h done with
  | nil => exact ⟨h, [], rfl, by simp, .refl⟩
  | cons c rest ih =>
    -- The first call has its turn, and is one of those that have had theirs for the rest.
    obtain ⟨h', moved, length, same, turned⟩ := ih (done ++ [{ c with stage := (step c.stage h).2 }]) (step c.stage h).1
    refine ⟨h', { c with stage := (step c.stage h).2 } :: moved, congrArg (· + 1) length, ?_, ?_⟩
    · simpa only [List.foldl_cons, List.append_assoc, List.singleton_append] using same
    · have calls : done ++ c :: rest ++ others = done ++ c :: (rest ++ others) := by simp
      have first : Turned late { s with opened := some (h, timeout), calls := done ++ c :: rest ++ others } _ :=
        .turn rfl calls (turns c.stage h)
      simp only [List.append_assoc, List.cons_append] at first turned ⊢
      exact .head first turned

/-- A call has its turn after those before it and before those after it. -/
theorem onCalls_turned {step : Stage → Host → Host × Stage}
    (turns : ∀ stage h, Stage.Turn late h stage (step stage h).1 (step stage h).2) {timeout : Binary64}
    (standing : s.opened = some (h, timeout)) {before after : List CallState} {c : CallState}
    (calls : s.calls = before ++ c :: after) : ∃ mid moved, moved.length = before.length ∧
      ReflTransGen (Turned late) s { s with opened := some (mid, timeout), calls := moved ++ c :: after } ∧
      ReflTransGen (Turned late)
        { s with
          opened := some ((step c.stage mid).1, timeout)
          calls := moved ++ { c with stage := (step c.stage mid).2 } :: after } (s.onCalls step) := by
  obtain ⟨mid, moved, length, same, first⟩ := foldl_turned turns s timeout before [] (c :: after) h
  obtain ⟨last, others, -, rest, second⟩ :=
    foldl_turned turns s timeout after (moved ++ [{ c with stage := (step c.stage mid).2 }]) [] (step c.stage mid).1
  -- The calls before it have their turns first; those after it begin with the host that it leaves.
  refine ⟨mid, moved, length, ?_, ?_⟩
  · simpa only [← standing, List.nil_append, ← calls] using first
  · unfold Server.onCalls
    simp only [standing, calls, List.foldl_append, same, List.nil_append, List.foldl_cons, rest]
    simpa only [List.append_assoc, List.singleton_append, List.append_nil] using second

theorem onCalls_goes {step : Stage → Host → Host × Stage}
    (turns : ∀ stage h, Stage.Turn late h stage (step stage h).1 (step stage h).2) (s : Server) :
    ReflTransGen (Turned late) s (s.onCalls step) := by
  unfold Server.onCalls
  split
  · exact .refl
  next h timeout standing =>
    obtain ⟨last, moved, -, same, turned⟩ := foldl_turned turns s timeout s.calls [] [] h
    simp only [same]
    simpa only [← standing, List.nil_append, List.append_nil] using turned

theorem turned_goes (turned : ReflTransGen (Turned late) s next) : ReflTransGen (Goes late) s next :=
  ReflTransGen.mono (fun _ _ => Goes.turned) _ _ turned

theorem host_goes {timeout : Binary64} (found : s.host = .ok (h, timeout)) :
    ReflTransGen (Goes late) s { s with opened := some (h, timeout) } := by
  unfold Server.host at found
  split at found
  next opened standing =>
    obtain rfl := Except.ok.inj found
    rw [← standing]
  next unopened =>
    obtain ⟨v, -, found⟩ := Reading.bind_ok found
    obtain ⟨inv, -, found⟩ := Reading.bind_ok found
    exact .single (.opens unopened (Reading.mapError_ok found))

theorem call_goes (s : Server) (intake : Intake) (tool : String) (arguments : Entries) :
    ReflTransGen (Goes late) s (s.call intake tool arguments) := by
  unfold Server.call
  split
  next fault _ => exact .single (.refused _ _)
  next h timeout found =>
    have called := call_called (s.perform_quiet timeout) (h, s.spawned) (callName s.made) intake tool arguments
    have made : Goes late _ _ := .called (s := { s with opened := some (h, timeout) }) rfl called
      (given arguments "device" (.str "N/A"))
    exact ((host_goes found).tail made).tail (.aside _ _ _ _ _)

theorem take_goes (s : Server) (intake : Intake) (inquiry : Inquiry) :
    ReflTransGen (Goes late) s (s.take intake inquiry).2 := by
  cases inquiry with
  | call tool arguments => exact s.call_goes intake tool arguments
  | read address =>
    simp only [Server.take, Server.resource]
    split
    · exact .refl
    · split
      · exact .refl
      next found => exact host_goes found
  | list =>
    simp only [Server.take, Server.resources]
    split
    · exact .refl
    next found => exact host_goes found

theorem advance_turned (s : Server) : ReflTransGen (Turned fun _ => false) s (s.onCalls Stage.advance) :=
  s.onCalls_goes .advance

/-- At rest the host has settled, and the calls have their turns, twice. -/
theorem rest_turns {timeout : Binary64} (standing : s.opened = some (h, timeout)) :
    ∃ settled : Server, ReflTransGen (Goes fun _ => false) s settled ∧
      settled.opened = some ((Host.settle (s.perform timeout) (h, s.spawned)).1, timeout) ∧
      s.rest = (settled.onCalls Stage.advance).onCalls Stage.advance := by
  have settled : Goes (fun _ => false) s _ := .onward standing (.settle (s.perform_quiet timeout) (h, s.spawned))
  unfold Server.rest
  simp only [standing]
  generalize Host.settle (s.perform timeout) (h, s.spawned) = w at settled ⊢
  have spent : Goes (fun _ => false) { s with opened := some (w.1, timeout) } _ :=
    .aside s.now s.document s.path s.process w.2
  exact ⟨_, .head settled (.single spent), rfl, rfl⟩

theorem rest_goes (s : Server) : ReflTransGen (Goes fun _ => false) s s.rest := by
  cases opened : s.opened with
  | none =>
    have same : s.rest = s := by simp [Server.rest, opened]
    rw [same]
  | some standing =>
    obtain ⟨settled, first, -, same⟩ := rest_turns (h := standing.1) opened
    rw [same]
    exact first.trans (turned_goes (settled.advance_turned.trans (advance_turned _)))

/-- Every move comes to small steps, but for the handing out of answers. -/
theorem step_goes (s : Server) {m : Move} (stays : m ≠ .handOut) : ReflTransGen (Goes m.strikes) s (s.step m) := by
  cases m with
  | take intake inquiry => exact s.take_goes intake inquiry
  | rest => exact s.rest_goes
  | proceed whose =>
    exact turned_goes (s.onCalls_goes (.among fun stage h _ => .advance stage h))
  | timeUp whose =>
    exact turned_goes (s.onCalls_goes (.among fun stage h struck => .giveUp stage h struck))
  | handOut => exact absurd rfl stays
  | happen m wired =>
    simp only [Server.step]
    cases standing : s.opened with
    | none =>
      rw [Option.map_none, ← standing]
    | some opened => exact .single (.onward standing (.step opened.1 m wired))
  | surround now document path process => exact .single (.aside now document path process s.spawned)

end Server

end Leasehold.Tools
