import Leasehold.Proofs.ServerRuns
import Leasehold.Proofs.StaticAssignment

/-! What the moves of a server keep. A tool does to its host one of a few things at a time: it calls the service, comes
to the bus under its own name, leaves it, or works on the engine. What each of them keeps, a call keeps; and so it is
with the reports and the calls that go on. -/

namespace Leasehold

namespace Host

structure Beside (h next : Host) : Prop where
  negotiator : next.negotiator = h.negotiator
  service : next.service = h.service
  callbacks : next.callbacks = h.callbacks
  bus : next.bus = h.bus
  mail : next.mail = h.mail

theorem Beside.refl (h : Host) : h.Beside h := ⟨rfl, rfl, rfl, rfl, rfl⟩

theorem Beside.trans {h mid next : Host} (first : h.Beside mid) (last : mid.Beside next) : h.Beside next :=
  ⟨last.negotiator.trans first.negotiator, last.service.trans first.service, last.callbacks.trans first.callbacks,
    last.bus.trans first.bus, last.mail.trans first.mail⟩

section

variable {σ : Type} {perform : Perform σ}

theorem runScripts_beside (quiet : perform.Quiet) (fuel : Nat) (w : Host × σ) :
    w.1.Beside (runScripts perform fuel w).1 := by
  induction fuel generalizing w with
  | zero => exact .refl w.1
  | succ fuel ih =>
    unfold runScripts
    split
    · exact .refl w.1
    next call _ =>
      have same : (perform call w).2.1 = w.1 := quiet call w
      have resumed : w.1.Beside (w.1.resumePass (perform call w).1) := ⟨rfl, rfl, rfl, rfl, rfl⟩
      exact resumed.trans (same ▸ ih ((perform call w).2.1.resumePass (perform call w).1, (perform call w).2.2))

theorem runPasses_beside (quiet : perform.Quiet) (fuel : Nat) (w : Host × σ) :
    w.1.Beside (runPasses perform fuel w).2.1 := by
  induction fuel generalizing w with
  | zero => exact .refl w.1
  | succ fuel ih =>
    have begun : w.1.Beside w.1.beginPass := ⟨rfl, rfl, rfl, rfl, rfl⟩
    have run := begun.trans (runScripts_beside quiet scriptLimit (w.1.beginPass, w.2))
    unfold runPasses
    generalize runScripts perform scriptLimit (w.1.beginPass, w.2) = w at run ⊢
    simp only
    split
    · exact run
    next who result engine _ =>
      have ended : w.1.Beside { w.1 with engine := engine } := ⟨rfl, rfl, rfl, rfl, rfl⟩
      exact run.trans (ended.trans (ih ({ w.1 with engine := engine }, w.2)))

theorem reconcile_beside (quiet : perform.Quiet) (count more : Nat) (w : Host × σ) :
    w.1.Beside (reconcile perform count more w).2.1 := by
  have asked (engine : Engine) : w.1.Beside { w.1 with engine := engine } := ⟨rfl, rfl, rfl, rfl, rfl⟩
  exact (asked _).trans (runPasses_beside quiet _ ({ w.1 with engine := _ }, w.2))

theorem settle_beside (quiet : perform.Quiet) (w : Host × σ) : w.1.reportAll.Beside (settle perform w).1 := by
  unfold settle drain
  split
  · exact .refl _
  next =>
    have woken (engine : Engine) : w.1.reportAll.Beside { w.1.reportAll with engine := engine } :=
      ⟨rfl, rfl, rfl, rfl, rfl⟩
    exact (woken _).trans (runPasses_beside quiet _ ({ w.1.reportAll with engine := _ }, w.2))

end

/-- What is kept by everything that a call with a name does to its host. -/
structure Lasts (p : Host → Prop) (name : String) : Prop where
  beside : ∀ {h next : Host}, p h → h.Beside next → p next
  look : ∀ {h : Host} {device : Scalar} {x : Session} {opened : Service}, p h →
    h.service.openSession device = .ok (x, opened) → p { h with service := opened }
  acquire : ∀ {h : Host}, p h → ∀ device options intake, p (h.acquire device options intake).2
  drop : ∀ {h : Host}, p h → ∀ device uuid, p (h.drop device uuid).2
  subscribe : ∀ {h : Host}, p h → ∀ observer device, p { h with bus := h.bus.subscribe name observer device }
  await : ∀ {h : Host}, p h → ∀ w : Waiter, w.name = name → p { h with bus := h.bus.await w }
  leave : ∀ {h : Host}, p h → ∀ w : Tools.Waiting, p (w.leave h)

theorem Lasts.and {p q : Host → Prop} {name : String} (first : Lasts p name) (last : Lasts q name) :
    Lasts (fun h => p h ∧ q h) name where
  beside holds same := ⟨first.beside holds.1 same, last.beside holds.2 same⟩
  look holds opens := ⟨first.look holds.1 opens, last.look holds.2 opens⟩
  acquire holds device options intake :=
    ⟨first.acquire holds.1 device options intake, last.acquire holds.2 device options intake⟩
  drop holds device uuid := ⟨first.drop holds.1 device uuid, last.drop holds.2 device uuid⟩
  subscribe holds observer device := ⟨first.subscribe holds.1 observer device, last.subscribe holds.2 observer device⟩
  await holds w named := ⟨first.await holds.1 w named, last.await holds.2 w named⟩
  leave holds w := ⟨first.leave holds.1 w, last.leave holds.2 w⟩

/-- What is kept by everything that happens to a host without a call: outcomes in line are reported, which leaves the
line as it is or makes it shorter, calls leave the bus, and the engine works. -/
structure LastsBetween (p : Host → Prop) : Prop where
  beside : ∀ {h next : Host}, p h → h.Beside next → p next
  leave : ∀ {h : Host}, p h → ∀ w : Tools.Waiting, p (w.leave h)
  reported : ∀ {h : Host}, p h → ∀ c ∈ h.callbacks, ∀ now line, (∀ c ∈ line, c ∈ h.callbacks) →
    p (({ h with callbacks := line } : Host).told (h.service.step (c.move now)).1 (h.service.step (c.move now)).2)

namespace LastsBetween

variable {p : Host → Prop} {h : Host} (kept : LastsBetween p)
include kept

theorem serve (holds : p h) (c : Callback) (queued : c ∈ h.callbacks) (now : Moment) :
    p (h.step (.serve (c.move now))).1 :=
  kept.reported holds c queued now h.callbacks fun _ there => there

theorem report (holds : p h) : p h.report := by
  unfold Host.report
  split
  · exact holds
  next c rest line =>
    simp only [Static.report_eq]
    exact kept.reported holds c (line ▸ List.mem_cons_self) h.now rest
      fun other there => line ▸ List.mem_cons_of_mem c there

theorem reportAll (holds : p h) : p h.reportAll :=
  List.foldlRecOn (motive := p) h.callbacks _ holds fun _ holds _ _ => kept.report holds

end LastsBetween

end Host

namespace Tools

open Host (Lasts LastsBetween)

variable {p : Host → Prop} {h : Host} {name : String}

namespace Waiting

variable (leave : ∀ {h : Host}, p h → ∀ w : Waiting, p (w.leave h))
include leave

theorem receive_keeps (w : Waiting) (holds : p h) (e : Event) : p (w.receive h e).1 := by
  unfold receive
  simp only
  split
  · exact leave holds w
  · split <;> exact leave holds w

theorem wait_keeps (w : Waiting) (holds : p h) : p (w.wait h).1 := by
  unfold wait
  split
  · exact leave holds w
  · exact receive_keeps leave w holds _
  · exact leave holds w
  · exact holds

end Waiting

section

variable (leave : ∀ {h : Host}, p h → ∀ w : Waiting, p (w.leave h))
include leave

theorem Stage.advance_keeps (holds : p h) (stage : Stage) : p (stage.advance h).1 := by
  unfold Stage.advance
  split
  · exact holds
  · split
    · exact Waiting.receive_keeps leave _ holds _
    · exact holds
  · split <;> exact holds

theorem Stage.giveUp_keeps (holds : p h) (stage : Stage) : p (stage.giveUp h).1 := by
  unfold Stage.giveUp
  split
  · split
    · exact Waiting.receive_keeps leave _ holds _
    · exact leave holds _
  · exact holds

end

theorem Stage.among_keeps {whose : String → Bool} {step : Stage → Host → Host × Stage}
    (keeps : ∀ stage, p (step stage h).1) (holds : p h) (stage : Stage) : p (stage.among whose step h).1 := by
  unfold Stage.among
  split
  · exact holds
  all_goals
    split
    · exact keeps _
    · exact holds

section

variable (kept : Lasts p name)
include kept

theorem Waiting.start_keeps {w : Waiting} {errand : Host → Except Fault Unit × Host} (named : w.name = name)
    (holds : p h) (device : Scalar) (keeps : ∀ {h : Host}, p h → p (errand h).2) : p (w.start h device errand).1 := by
  have begun := keeps (kept.subscribe holds 1 (deviceFilter device))
  unfold start
  rw [named]
  generalize errand { h with bus := h.bus.subscribe name 1 (deviceFilter device) } = result at begun ⊢
  obtain ⟨fault | _, h⟩ := result
  · exact kept.leave begun w
  · exact wait_keeps kept.leave w begun

theorem run_keeps {w : Waiting} {errand : Host → Except Fault Unit × Host} {started : Host → List (String × Value)}
    (named : w.name = name) (holds : p h) (arguments : Entries) (device : Scalar)
    (keeps : ∀ {h : Host}, p h → p (errand h).2) : p (run h arguments w device errand started).1 := by
  unfold run
  split
  · exact Waiting.start_keeps kept named holds device keeps
  · have begun := keeps holds
    generalize errand h = result at begun ⊢
    obtain ⟨fault | _, h⟩ := result <;> exact begun

theorem waitLeaseEvent_keeps (holds : p h) (arguments : Entries) : p (waitLeaseEvent h name arguments).1 := by
  unfold waitLeaseEvent
  simp only
  cases deviceOf h arguments with
  | error fault => exact holds
  | ok found =>
    cases eventKind (given arguments "event" .null) with
    | error fault => exact holds
    | ok kind => exact Waiting.wait_keeps kept.leave _ (kept.await holds _ rfl)

theorem listDevices_keeps (holds : p h) : p (listDevices h).1 := by
  have looked (device : Scalar) {s : Service} (holds : p { h with service := s }) :
      p { h with service := (Remote.properties s device).2 } := by
    unfold Remote.properties
    cases opens : s.openSession device with
    | error fault => exact holds
    | ok pair => exact kept.look (h := { h with service := s }) holds opens
  exact List.foldlRecOn (motive := fun s : Service => p { h with service := s }) h.store.devices _ holds
    fun s holds d _ => looked d.name holds

/-- A call keeps what each of its steps keeps. -/
theorem call_keeps {σ : Type} {perform : Host.Perform σ} (quiet : perform.Quiet) {w : Host × σ} (holds : p w.1)
    (intake : Intake) (tool : String) (arguments : Entries) : p (call perform w name intake tool arguments).1.1 := by
  unfold call
  simp only
  split
  · exact listDevices_keeps kept holds
  · exact holds
  · unfold acquire
    split
    · exact holds
    · exact run_keeps kept rfl holds arguments _ fun holds => kept.acquire holds _ _ _
  · unfold drop
    split
    · exact holds
    · exact run_keeps kept rfl holds arguments _ fun holds => kept.drop holds _ _
  · exact waitLeaseEvent_keeps kept holds arguments
  · exact kept.beside holds (Host.reconcile_beside quiet 1 0 w)
  · exact kept.beside holds ⟨rfl, rfl, rfl, rfl, rfl⟩
  · exact holds
  · exact holds

end

namespace Server

def Holds (p : Host → Prop) (s : Server) : Prop :=
  ∀ h timeout, s.opened = some (h, timeout) → p h

/-- What is true of the stage of the call with so many calls before it. -/
def At (s : Server) (place : Nat) (r : Stage → Prop) : Prop :=
  ∃ before c after, s.calls = before ++ c :: after ∧ before.length = place ∧ r c.stage

variable {s : Server} {r : Stage → Prop} {place : Nat} {step : Stage → Host → Host × Stage}

theorem At.mono {r' : Stage → Prop} (stands : s.At place r) (implies : ∀ stage, r stage → r' stage) :
    s.At place r' := by
  obtain ⟨before, c, after, calls, length, holds⟩ := stands
  exact ⟨before, c, after, calls, length, implies c.stage holds⟩

theorem At.add (stands : s.At place r) {s' : Server} {more : List CallState} (calls : s'.calls = s.calls ++ more) :
    s'.At place r := by
  obtain ⟨before, c, after, same, length, holds⟩ := stands
  exact ⟨before, c, after ++ more, by rw [calls, same, List.append_assoc, List.cons_append], length, holds⟩

theorem Holds.mono {q : Host → Prop} (holds : s.Holds p) (implies : ∀ h, p h → q h) : s.Holds q :=
  fun h timeout standing => implies h (holds h timeout standing)

theorem Holds.host (holds : s.Holds p) (made : ∀ {inv now h timeout}, Host.ofInventory inv now = .ok (h, timeout) → p h)
    {timeout : Binary64} (found : s.host = .ok (h, timeout)) : p h := by
  unfold Server.host at found
  split at found
  next opened standing =>
    cases found
    exact holds h timeout standing
  next =>
    obtain ⟨v, -, found⟩ := Reading.bind_ok found
    obtain ⟨inv, -, found⟩ := Reading.bind_ok found
    exact made (Reading.mapError_ok found)

/-- Calls go on one after another, and each finds a host as those before it have left it. -/
theorem foldl_calls (keeps : ∀ {h}, p h → ∀ stage, p (step stage h).1) (calls done : List CallState) (holds : p h) :
    ∃ h' moved, p h' ∧ moved.length = calls.length ∧
      calls.foldl (fun (h, calls) c =>
        let (h, stage) := step c.stage h
        (h, calls ++ [{ c with stage := stage }])) (h, done) = (h', done ++ moved) := by
  induction calls generalizing h done with
  | nil => exact ⟨h, [], holds, rfl, by simp⟩
  | cons c rest ih =>
    obtain ⟨h', moved, kept, length, same⟩ :=
      ih (done ++ [{ c with stage := (step c.stage h).2 }]) (keeps holds c.stage)
    refine ⟨h', { c with stage := (step c.stage h).2 } :: moved, kept, congrArg (· + 1) length, ?_⟩
    simpa only [List.foldl_cons, List.append_assoc, List.singleton_append] using same

theorem onCalls_keeps (keeps : ∀ {h}, p h → ∀ stage, p (step stage h).1) (holds : s.Holds p) :
    (s.onCalls step).Holds p := by
  unfold Server.onCalls
  split
  · exact holds
  next h timeout standing =>
    obtain ⟨h', moved, kept, -, same⟩ := foldl_calls keeps s.calls [] (holds h timeout standing)
    rintro _ _ ⟨rfl, rfl⟩
    exact congrArg Prod.fst same ▸ kept

theorem onCalls_at (keeps : ∀ {h}, p h → ∀ stage, p (step stage h).1)
    (goes : ∀ {h}, p h → ∀ stage, r stage → r (step stage h).2) (holds : s.Holds p) (stands : s.At place r) :
    (s.onCalls step).At place r := by
  unfold Server.onCalls
  split
  · exact stands
  next h timeout standing =>
    obtain ⟨before, c, after, calls, length, there⟩ := stands
    obtain ⟨mid, first, kept, size, same⟩ := foldl_calls keeps before [] (holds h timeout standing)
    obtain ⟨last, others, -, -, rest⟩ :=
      foldl_calls keeps after (first ++ [{ c with stage := (step c.stage mid).2 }]) (keeps kept c.stage)
    refine ⟨first, { c with stage := (step c.stage mid).2 }, others, ?_, size.trans length, goes kept c.stage there⟩
    simp only [calls, List.foldl_append, same, List.nil_append, List.foldl_cons, rest, List.append_assoc,
      List.singleton_append]

theorem call_holds (made : ∀ {inv now h timeout}, Host.ofInventory inv now = .ok (h, timeout) → p h)
    (kept : Lasts p (callName s.made)) (holds : s.Holds p) (intake : Intake) (tool : String) (arguments : Entries) :
    (s.call intake tool arguments).Holds p := by
  unfold Server.call
  split
  · exact holds
  next h timeout found =>
    have called := call_keeps kept (w := (h, s.spawned)) (s.perform_quiet timeout) (holds.host made found) intake tool
      arguments
    rintro _ _ ⟨rfl, rfl⟩
    exact called

theorem call_calls (s : Server) (intake : Intake) (tool : String) (arguments : Entries) :
    ∃ c, (s.call intake tool arguments).calls = s.calls ++ [c] := by
  unfold Server.call
  split <;> exact ⟨_, rfl⟩

theorem take_holds (made : ∀ {inv now h timeout}, Host.ofInventory inv now = .ok (h, timeout) → p h)
    (kept : Lasts p (callName s.made)) (holds : s.Holds p) (intake : Intake) (inquiry : Inquiry) :
    (s.take intake inquiry).2.Holds p := by
  have opened {h : Host} {timeout : Binary64} (found : s.host = .ok (h, timeout)) :
      ({ s with opened := some (h, timeout) } : Server).Holds p := by
    rintro _ _ ⟨rfl, rfl⟩
    exact holds.host made found
  cases inquiry with
  | call tool arguments => exact call_holds made kept holds intake tool arguments
  | read address =>
    simp only [Server.take, Server.resource]
    split
    · exact holds
    · split
      · exact holds
      next found => exact opened found
  | list =>
    simp only [Server.take, Server.resources]
    split
    · exact holds
    next found => exact opened found

theorem take_calls (s : Server) (intake : Intake) (inquiry : Inquiry) :
    ∃ more, (s.take intake inquiry).2.calls = s.calls ++ more := by
  cases inquiry with
  | call tool arguments =>
    obtain ⟨c, called⟩ := s.call_calls intake tool arguments
    exact ⟨[c], called⟩
  | read address =>
    refine ⟨[], ?_⟩
    simp only [Server.take, Server.resource]
    split
    · simp
    · split <;> simp
  | list =>
    refine ⟨[], ?_⟩
    simp only [Server.take, Server.resources]
    split <;> simp

theorem onCalls_made (s : Server) (step : Stage → Host → Host × Stage) : (s.onCalls step).made = s.made := by
  unfold Server.onCalls
  split <;> rfl

theorem rest_made (s : Server) : s.rest.made = s.made := by
  unfold Server.rest
  split
  · rfl
  · simp only [onCalls_made]

/-- Calls are counted. -/
theorem step_made (s : Server) (m : Move) : s.made ≤ (s.step m).made := by
  cases m with
  | take intake inquiry =>
    cases inquiry with
    | call tool arguments =>
      simp only [Server.step, Server.take, Server.call]
      split <;> exact Nat.le_succ _
    | read address =>
      simp only [Server.step, Server.take, Server.resource]
      split
      · exact Nat.le_refl _
      · split <;> exact Nat.le_refl _
    | list =>
      simp only [Server.step, Server.take, Server.resources]
      split <;> exact Nat.le_refl _
  | rest => exact Nat.le_of_eq s.rest_made.symm
  | proceed whose => exact Nat.le_of_eq (s.onCalls_made _).symm
  | timeUp whose => exact Nat.le_of_eq (s.onCalls_made _).symm
  | handOut | happen | surround => exact Nat.le_refl _

/-- Nobody but the server itself moves its service: what is reported is an outcome in line. -/
def Alone (s : Server) : Move → Prop
  | .happen (.serve m) _ => ∃ h timeout, s.opened = some (h, timeout) ∧ ∃ c ∈ h.callbacks, ∃ now, m = c.move now
  | _ => True

def AloneAll (s : Server) : List Move → Prop
  | [] => True
  | m :: rest => s.Alone m ∧ (s.step m).AloneAll rest

theorem aloneAll_append {first last : List Move} :
    s.AloneAll (first ++ last) ↔ s.AloneAll first ∧ (s.run first).AloneAll last := by
  induction first generalizing s with
  | nil => simp [AloneAll, run]
  | cons m rest ih => simp [AloneAll, run, ih, and_assoc]

section

variable (kept : LastsBetween p)
include kept

/-- At rest the host has settled, and the calls go on from there, twice. -/
theorem rest_settled (holds : s.Holds p) : s.rest = s ∨ ∃ settled : Server, settled.calls = s.calls ∧
    settled.Holds p ∧ s.rest = (settled.onCalls Stage.advance).onCalls Stage.advance := by
  unfold Server.rest
  split
  · exact Or.inl rfl
  next h timeout standing =>
    have reported := kept.reportAll (holds h timeout standing)
    have settled := kept.beside reported (Host.settle_beside (s.perform_quiet timeout) (h, s.spawned))
    refine Or.inr ⟨_, ?_, ?_, rfl⟩
    · rfl
    · rintro _ _ ⟨rfl, rfl⟩
      exact settled

theorem rest_holds (holds : s.Holds p) : s.rest.Holds p := by
  have keeps {h : Host} (holds : p h) (stage : Stage) : p (stage.advance h).1 :=
    Stage.advance_keeps kept.leave holds stage
  obtain same | ⟨settled, -, holds, same⟩ := rest_settled kept holds
  · rw [same]
    exact holds
  · rw [same]
    exact onCalls_keeps keeps (onCalls_keeps keeps holds)

theorem happen_holds {m : Host.Move} {wired : ∀ bus, m ≠ .rewire bus} (alone : s.Alone (.happen m wired))
    (holds : s.Holds p) : (s.step (.happen m wired)).Holds p := by
  intro h timeout standing
  obtain ⟨⟨before, limit⟩, opened, moved⟩ := Option.map_eq_some_iff.mp standing
  cases moved
  have holds := holds before limit opened
  cases m with
  | serve m =>
    obtain ⟨h, timeout, same, c, queued, now, rfl⟩ := alone
    obtain ⟨rfl, rfl⟩ := Prod.mk.inj (Option.some.inj (opened.symm.trans same))
    exact kept.serve holds c queued now
  | rewire bus => exact absurd rfl (wired bus)
  | configure | wake | request | begin | resume => exact kept.beside holds ⟨rfl, rfl, rfl, rfl, rfl⟩
  | complete =>
    simp only [Host.step]
    split
    · exact kept.beside holds ⟨rfl, rfl, rfl, rfl, rfl⟩
    · exact holds

/-- What everything in between keeps, all moves keep that make no call or read no document. -/
theorem step_holds {m : Move} (alone : s.Alone m)
    (taken : ∀ intake inquiry, m = .take intake inquiry → (s.step m).Holds p)
    (holds : s.Holds p) : (s.step m).Holds p := by
  cases m with
  | take intake inquiry => exact taken intake inquiry rfl
  | rest => exact rest_holds kept holds
  | proceed whose =>
    exact onCalls_keeps (fun holds => Stage.among_keeps (Stage.advance_keeps kept.leave holds) holds) holds
  | timeUp whose =>
    exact onCalls_keeps (fun holds => Stage.among_keeps (Stage.giveUp_keeps kept.leave holds) holds) holds
  | handOut => exact holds
  | happen m wired => exact happen_holds kept alone holds
  | surround => exact holds

/-- A call stays in its place until its answer is handed out. -/
theorem step_at {m : Move} (stays : m ≠ .handOut) (holds : s.Holds p)
    (goes : ∀ {h}, p h → ∀ stage, r stage → r (stage.advance h).2)
    (ends : ∀ {h}, p h → ∀ stage, r stage → r (stage.giveUp h).2)
    (stands : s.At place r) : (s.step m).At place r := by
  have keeps {h : Host} (holds : p h) (stage : Stage) : p (stage.advance h).1 :=
    Stage.advance_keeps kept.leave holds stage
  have among {step : Stage → Host → Host × Stage} (whose : String → Bool) {h : Host} {stage : Stage} (there : r stage)
      (next : r (step stage h).2) : r (stage.among whose step h).2 := by
    unfold Stage.among
    split
    · exact there
    all_goals
      split
      · exact next
      · exact there
  cases m with
  | take intake inquiry =>
    obtain ⟨more, calls⟩ := s.take_calls intake inquiry
    exact stands.add calls
  | rest =>
    obtain same | ⟨settled, calls, holds, same⟩ := rest_settled kept holds
    · change s.rest.At place r
      rw [same]
      exact stands
    · have stands : settled.At place r := by
        unfold At
        rw [calls]
        exact stands
      change s.rest.At place r
      rw [same]
      exact onCalls_at keeps goes (onCalls_keeps keeps holds) (onCalls_at keeps goes holds stands)
  | proceed whose =>
    exact onCalls_at (fun holds => Stage.among_keeps (keeps holds) holds)
      (fun holds stage there => among whose there (goes holds stage there)) holds stands
  | timeUp whose =>
    exact onCalls_at (fun holds => Stage.among_keeps (Stage.giveUp_keeps kept.leave holds) holds)
      (fun holds stage there => among whose there (ends holds stage there)) holds stands
  | handOut => exact absurd rfl stays
  | happen | surround => exact stands

end

end Server

end Tools

end Leasehold
