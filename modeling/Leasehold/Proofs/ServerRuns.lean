import Leasehold.Proofs.HostWork
import Leasehold.Proofs.Readings
import Leasehold.Tools.Server

/-! What can happen to a server: inquiries are taken up in any order, calls go on or run out of time one
by one, and the host moves in between. Each call that listens to the bus has a name that no earlier call
had, so a call that leaves the bus again takes nothing away but its own. -/

namespace Leasehold

namespace Host

/-- Subscriptions are told apart by their numbers, and everyone on the bus or with mail has an admissible
name; the engine's own subscription has its own. -/
structure Named (p : String → Prop) (h : Host) : Prop where
  numbered : ∀ s ∈ h.bus.subscriptions, s.id < h.bus.issued
  subscribers : ∀ s ∈ h.bus.subscriptions, s.name ≠ engineName → p s.name
  waiters : ∀ w ∈ h.bus.waiters, p w.name
  mail : ∀ letter ∈ h.mail, p letter.1

namespace Named

variable {p q : String → Prop} {h next : Host}

theorem mono (implies : ∀ name, p name → q name) (named : h.Named p) : h.Named q :=
  ⟨named.numbered, fun s member other => implies _ (named.subscribers s member other),
    fun w member => implies _ (named.waiters w member),
    fun letter member => implies _ (named.mail letter member)⟩

theorem aside (named : h.Named p) (bus : next.bus = h.bus) (mail : next.mail = h.mail) : next.Named p :=
  ⟨bus ▸ named.numbered, bus ▸ named.subscribers, bus ▸ named.waiters, mail ▸ named.mail⟩

theorem publish (named : h.Named p) (e : Event) : (h.publish e).Named p := by
  refine ⟨named.numbered, named.subscribers, ?_, ?_⟩
  · intro w member
    exact named.waiters w (List.mem_filter.mp member).1
  · intro letter member
    obtain old | new := List.mem_append.mp member
    · exact named.mail letter old
    · obtain ⟨name, addressed, rfl⟩ := List.mem_map.mp new
      obtain ⟨addressed, other⟩ := List.mem_filter.mp addressed
      -- Mail goes to those who are on the bus when it is sent.
      rcases List.mem_append.mp addressed with observing | waiting
      · obtain ⟨s, observes, rfl⟩ := List.mem_map.mp observing
        exact named.subscribers s (List.mem_filter.mp observes).1 (of_decide_eq_true other)
      · obtain ⟨w, waits, rfl⟩ := List.mem_map.mp waiting
        exact named.waiters w (List.mem_filter.mp waits).1

/-- Nobody comes to the bus while the host goes on by itself. -/
theorem onward (named : h.Named p) (onward : h.Onward next) : next.Named p := by
  apply onward.keeps (p := Named p)
  · intro h next named same
    exact named.aside same.bus same.mail
  · intro h named e
    exact named.publish e
  · intro h named m
    exact named.aside rfl rfl
  · exact named

theorem subscribe {name : String} (named : h.Named p) (admissible : p name) (observer : Nat)
    (device : Option Scalar) :
    ({ h with bus := h.bus.subscribe name observer device } : Host).Named p := by
  refine ⟨?_, ?_, named.waiters, named.mail⟩
  · intro s member
    obtain old | new := List.mem_append.mp member
    · exact Nat.lt_succ_of_lt (named.numbered s old)
    · obtain rfl := List.mem_singleton.mp new
      exact Nat.lt_succ_self _
  · intro s member other
    obtain old | new := List.mem_append.mp member
    · exact named.subscribers s old other
    · obtain rfl := List.mem_singleton.mp new
      exact admissible

theorem await (named : h.Named p) (w : Waiter) (admissible : p w.name) :
    ({ h with bus := h.bus.await w } : Host).Named p := by
  refine ⟨named.numbered, named.subscribers, ?_, named.mail⟩
  intro other member
  obtain old | new := List.mem_append.mp member
  · exact named.waiters other old
  · obtain rfl := List.mem_singleton.mp new
    exact admissible

end Named

/-- The host of an inventory is a fresh one that the engine watches. -/
theorem ofInventory_ok {inv : Inventory} {now : Moment} {h : Host} {timeout : Binary64}
    (made : ofInventory inv now = .ok (h, timeout)) :
    ∃ devices mode registry, h = (bare now (.static true) mode (.ofDevices devices) registry).watch := by
  obtain ⟨devices, -, made⟩ := Reading.bind_ok made
  obtain ⟨registry, -, made⟩ := Reading.bind_ok made
  obtain ⟨limit, -, made⟩ := Reading.bind_ok made
  obtain ⟨mode, -, made⟩ := Reading.bind_ok made
  split at made
  · cases made
    exact ⟨devices, mode, registry.configure.1, rfl⟩
  · cases made

end Host

namespace Tools

open Host (Named)

variable {p : String → Prop} {h : Host}

namespace Waiting

theorem leave_named (w : Waiting) (named : h.Named p) : (w.leave h).Named p := by
  have kept : ∀ s ∈ (h.bus.cancel w.name).subscriptions, s ∈ h.bus.subscriptions := by
    intro s member
    unfold Bus.cancel at member
    split at member
    · exact (List.mem_filter.mp member).1
    · exact member
  have issued : (h.bus.cancel w.name).issued = h.bus.issued := by unfold Bus.cancel; split <;> rfl
  have waiters : (h.bus.cancel w.name).waiters = h.bus.waiters := by unfold Bus.cancel; split <;> rfl
  refine ⟨?_, ?_, ?_, ?_⟩
  · intro s member
    exact issued.symm ▸ named.numbered s (kept s member)
  · intro s member
    exact named.subscribers s (kept s member)
  · intro waiter member
    exact named.waiters waiter (waiters ▸ (List.mem_filter.mp member).1)
  · intro letter member
    exact named.mail letter (List.mem_filter.mp member).1

theorem receive_named (w : Waiting) (named : h.Named p) (e : Event) : (w.receive h e).1.Named p := by
  unfold receive
  simp only
  split
  · exact w.leave_named named
  · split <;> exact w.leave_named named

theorem wait_named (w : Waiting) (named : h.Named p) : (w.wait h).1.Named p := by
  unfold wait
  split
  · exact w.leave_named named
  · exact w.receive_named named _
  · exact w.leave_named named
  · exact named

theorem start_named {w : Waiting} {errand : Host → Except Fault Unit × Host} (named : h.Named p)
    (admissible : p w.name) (device : Scalar)
    (keeps : ∀ {h : Host}, h.Named p → (errand h).2.Named p) : (w.start h device errand).1.Named p := by
  have begun := keeps (named.subscribe admissible 1 (deviceFilter device))
  unfold start
  generalize errand { h with bus := h.bus.subscribe w.name 1 (deviceFilter device) } = result at begun ⊢
  obtain ⟨fault | _, h⟩ := result
  · exact w.leave_named begun
  · exact w.wait_named begun

end Waiting

theorem run_named {w : Waiting} {errand : Host → Except Fault Unit × Host}
    {started : Host → List (String × Value)} {arguments : Entries} (named : h.Named p) (admissible : p w.name)
    (device : Scalar) (keeps : ∀ {h : Host}, h.Named p → (errand h).2.Named p) :
    (run h arguments w device errand started).1.Named p := by
  unfold run
  split
  · exact Waiting.start_named named admissible device keeps
  · have begun := keeps named
    generalize errand h = result at begun ⊢
    obtain ⟨fault | _, h⟩ := result <;> exact begun

variable {name : String} {σ : Type} {perform : Host.Perform σ} {w : Host × σ}

theorem waitLeaseEvent_named (named : h.Named p) (admissible : p name) (arguments : Entries) :
    (waitLeaseEvent h name arguments).1.Named p := by
  unfold waitLeaseEvent
  simp only
  cases device : deviceOf h arguments with
  | error fault => exact named
  | ok found =>
    cases kind : eventKind (given arguments "event" .null) with
    | error fault => exact named
    | ok kind => exact Waiting.wait_named _ (named.await _ admissible)

/-- No tool puts any other name on the bus than that of its call. -/
theorem call_named (quiet : perform.Quiet) (named : w.1.Named p) (admissible : p name) (intake : Intake)
    (tool : String) (arguments : Entries) :
    (call perform w name intake tool arguments).1.1.Named p := by
  unfold call
  simp only
  -- Only those that wait come to the bus: acquiring, dropping, and waiting for an event.
  split
  · exact named.aside rfl rfl
  · exact named
  · unfold acquire
    split
    · exact named
    · exact run_named named admissible _ fun named => named.onward (.after _ _)
  · unfold drop
    split
    · exact named
    · exact run_named named admissible _ fun named => named.onward (.after _ _)
  · exact waitLeaseEvent_named named admissible arguments
  · exact named.onward (.reconcile quiet 1 0 w)
  · exact named.aside rfl rfl
  · exact named
  · exact named

theorem Stage.advance_named (stage : Stage) (named : h.Named p) : (stage.advance h).1.Named p := by
  unfold Stage.advance
  split
  · exact named
  · split
    · exact Waiting.receive_named _ named _
    · exact named
  · split <;> exact named

theorem Stage.giveUp_named (stage : Stage) (named : h.Named p) : (stage.giveUp h).1.Named p := by
  unfold Stage.giveUp
  split
  · split
    · exact Waiting.receive_named _ named _
    · exact Waiting.leave_named _ named
  · exact named

def Stage.among (whose : String → Bool) (step : Stage → Host → Host × Stage) (stage : Stage) (h : Host) :
    Host × Stage :=
  match stage with
  | .answered a => (h, .answered a)
  | .waiting w | .draining w _ _ => if whose w.name then step stage h else (h, stage)

theorem Stage.among_named {whose : String → Bool} {step : Stage → Host → Host × Stage}
    (keeps : ∀ stage, (step stage h).1.Named p) (named : h.Named p) (stage : Stage) :
    (stage.among whose step h).1.Named p := by
  unfold Stage.among
  split
  · exact named
  all_goals
    split
    · exact keeps _
    · exact named

namespace Server

def callName (n : Nat) : String := "call " ++ toString n

theorem callName_injective {m n : Nat} (same : callName m = callName n) : m = n := by
  have digits : Nat.toDigits 10 m = Nat.toDigits 10 n := by
    simpa only [Nat.toString_eq_repr, Nat.toList_repr] using
      congrArg String.toList ((String.append_right_inj "call ").mp same)
  calc
    m = Nat.ofDigitChars 10 (Nat.toDigits 10 m) 0 := Nat.ofDigitChars_ten_toDigits.symm
    _ = Nat.ofDigitChars 10 (Nat.toDigits 10 n) 0 := by rw [digits]
    _ = n := Nat.ofDigitChars_ten_toDigits

def initial (now : Moment) (document : Except Yaml.Fault Value) (path : String)
    (process : Kind → Role → Except SystemFault Child) : Server :=
  ⟨now, document, path, process, none, 0, [], []⟩

/-- What can happen: an inquiry is taken up, everything runs that can, calls go on or run out of time,
answers are handed out, the host moves by itself, or the surroundings change. -/
inductive Move
  | take (intake : Intake) (inquiry : Inquiry)
  | rest
  | proceed (whose : String → Bool)
  | timeUp (whose : String → Bool)
  | handOut
  | happen (m : Host.Move) (wired : ∀ bus, m ≠ .rewire bus)
  | surround (now : Moment) (document : Except Yaml.Fault Value) (path : String)
      (process : Kind → Role → Except SystemFault Child)

def step (s : Server) : Move → Server
  | .take intake inquiry => (s.take intake inquiry).2
  | .rest => s.rest
  | .proceed whose => s.onCalls (Stage.among whose Stage.advance)
  | .timeUp whose => s.onCalls (Stage.among whose Stage.giveUp)
  | .handOut => { s with calls := s.calls.filter fun c => c.answer?.isNone }
  | .happen m _ => { s with opened := s.opened.map fun opened => ((opened.1.step m).1, opened.2) }
  | .surround now document path process =>
    { s with now := now, document := document, path := path, process := process }

def run (s : Server) (moves : List Move) : Server := moves.foldl step s

def Made (count : Nat) (name : String) : Prop := ∃ n < count, name = callName n

theorem Made.later {count : Nat} {name : String} (made : Made count name) : Made (count + 1) name := by
  obtain ⟨n, earlier, same⟩ := made
  exact ⟨n, Nat.lt_succ_of_lt earlier, same⟩

def Wired (s : Server) : Prop :=
  ∀ h timeout, s.opened = some (h, timeout) → h.Named (Made s.made)

variable {s : Server}

theorem perform_quiet (s : Server) (timeout : Binary64) : (s.perform timeout).Quiet := fun _ _ => rfl

theorem ofInventory_named {inv : Inventory} {now : Moment} {h : Host} {timeout : Binary64} {p : String → Prop}
    (made : Host.ofInventory inv now = .ok (h, timeout)) : h.Named p := by
  obtain ⟨devices, mode, registry, rfl⟩ := Host.ofInventory_ok made
  constructor <;> simp [Host.watch, Host.bare, Bus.subscribe, Bus.empty]

theorem Wired.host (wired : s.Wired) {h : Host} {timeout : Binary64} (found : s.host = .ok (h, timeout)) :
    h.Named (Made s.made) := by
  unfold Server.host at found
  split at found
  next opened standing =>
    cases found
    exact wired h timeout standing
  next =>
    obtain ⟨v, -, found⟩ := Reading.bind_ok found
    obtain ⟨inv, -, found⟩ := Reading.bind_ok found
    exact ofInventory_named (Reading.mapError_ok found)

theorem Wired.fresh (wired : s.Wired) {h : Host} {timeout : Binary64} (found : s.host = .ok (h, timeout)) :
    h.Named (· ≠ callName s.made) := by
  apply (wired.host found).mono
  rintro name ⟨n, earlier, rfl⟩ same
  exact Nat.ne_of_lt earlier (callName_injective same)

theorem Wired.onCalls (wired : s.Wired) {step : Stage → Host → Host × Stage}
    (keeps : ∀ {p : String → Prop} {h : Host}, h.Named p → ∀ stage : Stage, (step stage h).1.Named p) :
    (s.onCalls step).Wired := by
  unfold Server.onCalls
  split
  · exact wired
  next h timeout standing =>
    have named := wired h timeout standing
    rintro _ _ ⟨rfl, rfl⟩
    exact List.foldlRecOn (motive := fun w : Host × List CallState => w.1.Named _) s.calls _ named
      fun w named c _ => keeps named c.stage

theorem Wired.opened (wired : s.Wired) {h : Host} {timeout : Binary64} (found : s.host = .ok (h, timeout)) :
    ({ s with opened := some (h, timeout) } : Server).Wired := by
  rintro _ _ ⟨rfl, rfl⟩
  exact wired.host found

theorem Wired.call (wired : s.Wired) (intake : Intake) (tool : String) (arguments : Entries) :
    (s.call intake tool arguments).Wired := by
  unfold Server.call
  split
  next fault found =>
    intro h timeout standing
    exact (wired h timeout standing).mono fun _ => .later
  next h timeout found =>
    have named := (wired.host found).mono fun _ => Made.later
    have made := call_named (w := (h, s.spawned)) (s.perform_quiet timeout) named
      ⟨s.made, Nat.lt_succ_self _, rfl⟩ intake tool arguments
    rintro _ _ ⟨rfl, rfl⟩
    exact made

theorem Wired.rest (wired : s.Wired) : s.rest.Wired := by
  unfold Server.rest
  split
  · exact wired
  next h timeout standing =>
    have settled := (wired h timeout standing).onward (.settle (s.perform_quiet timeout) (h, s.spawned))
    simp only
    refine Wired.onCalls (Wired.onCalls ?_ ?_) ?_
    · rintro _ _ ⟨rfl, rfl⟩
      exact settled
    · exact fun named stage => stage.advance_named named
    · exact fun named stage => stage.advance_named named

theorem Wired.take (wired : s.Wired) (intake : Intake) (inquiry : Inquiry) : (s.take intake inquiry).2.Wired := by
  cases inquiry with
  | call tool arguments => exact wired.call intake tool arguments
  | read address =>
    simp only [Server.take, Server.resource]
    split
    · exact wired
    · split
      · exact wired
      next found => exact wired.opened found
  | list =>
    simp only [Server.take, Server.resources]
    split
    · exact wired
    next found => exact wired.opened found

theorem Wired.step (wired : s.Wired) (m : Move) : (s.step m).Wired := by
  cases m with
  | take intake inquiry => exact wired.take intake inquiry
  | rest => exact wired.rest
  | proceed whose => exact wired.onCalls fun named => Stage.among_named (fun stage => stage.advance_named named) named
  | timeUp whose => exact wired.onCalls fun named => Stage.among_named (fun stage => stage.giveUp_named named) named
  | handOut => exact wired
  | happen m unchanged =>
    intro h timeout standing
    obtain ⟨⟨before, limit⟩, opened, moved⟩ := Option.map_eq_some_iff.mp standing
    cases moved
    exact (wired before limit opened).onward (.step before m unchanged)
  | surround => exact wired

theorem Wired.run (wired : s.Wired) (moves : List Move) : (s.run moves).Wired := by
  induction moves generalizing s with
  | nil => exact wired
  | cons m rest ih => exact ih (wired.step m)

theorem initial_wired (now : Moment) (document : Except Yaml.Fault Value) (path : String)
    (process : Kind → Role → Except SystemFault Child) : (initial now document path process).Wired := by
  intro h timeout standing
  cases standing

end Server

end Tools

end Leasehold
