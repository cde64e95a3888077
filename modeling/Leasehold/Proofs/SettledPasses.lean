import Leasehold.Proofs.AwaitedOutcomes
import Leasehold.Proofs.HostWork
import Leasehold.Proofs.PassRequests

/-! A host that settles runs the passes that it owes. It runs one for each in line and one more, so that it may owe a
single one afterwards if it was in the middle of one; when it has settled again, its task is over. -/

namespace Leasehold

namespace Engine

structure Limited (e : Engine) : Prop where
  steady : e.Steady
  bounded : ∀ who pass, e.current = some (who, pass) → pass.remaining ≤ Host.scriptLimit

/-- How many passes are in line or under way, or to come for what was scheduled meanwhile. -/
def backlog (e : Engine) : Nat := e.line.length + e.current.toList.length + e.dirty.toNat

def Awake (e : Engine) : Prop := e.task ≠ some .created

def Reaches (e : Engine) (task : Nat) : Prop :=
  task < e.finished.length ∨ task = e.finished.length ∧ e.task.isSome

variable {e next : Engine} {who : Requester} {task : Nat}

theorem Limited.ofRegistry (registry : Registry) : (ofRegistry registry).Limited where
  steady := ⟨by simp [Engine.ofRegistry], by simp [Engine.ofRegistry], rfl⟩
  bounded := by
    intro who pass current
    cases current

theorem Limited.step (limited : e.Limited) (m : Move) : (e.step m).1.Limited := by
  refine ⟨(e.step_paced m).steady limited.steady, ?_⟩
  intro who pass current
  have moved := e.step_moved m
  generalize (e.step m).1 = next, (e.step m).2 = runs at moved current
  cases moved with
  | idle registry same =>
    obtain same | none := same
    · exact limited.bounded who pass (same ▸ current)
    · rw [none] at current
      cases current
  | configured => exact limited.bounded who pass current
  | rebuilt builders => exact limited.bounded who pass current
  | begun free other store registry began =>
    cases began.symm.trans current
    exact Pass.start_remaining store e.registry
  | @resumed _ other before under table result registry resumed =>
    cases resumed.symm.trans current
    have bound := limited.bounded who before under
    match waiting : before.waiting with
    | none => simpa [Pass.resume, waiting] using bound
    | some (running, rest) =>
      have fewer := Pass.resume_remaining waiting table e.registry result
      exact Nat.le_trans (Nat.le_of_lt fewer) bound

theorem Reaches.step (reaches : e.Reaches task) (steady : e.Steady) (m : Move) : (e.step m).1.Reaches task := by
  obtain ⟨finished, kept⟩ | ⟨result, -, -, finished⟩ := (e.step_paced m).finishes steady
  · exact reaches.imp (fun ended => finished ▸ ended) fun under => ⟨finished ▸ under.1, kept under.2⟩
  · left
    rw [finished, List.length_append, List.length_singleton]
    obtain ended | ⟨same, -⟩ := reaches
    · exact Nat.lt_succ_of_lt ended
    · exact same ▸ Nat.lt_succ_self _

theorem reaches_newest (newest : e.newestTask? = some task) : e.Reaches task := by
  unfold newestTask? at newest
  split at newest
  next some =>
    cases newest
    exact Or.inr ⟨rfl, by simp [some]⟩
  next =>
    split at newest
    · cases newest
    next filled =>
      cases newest
      have positive : 0 < e.finished.length := List.length_pos_iff.mpr (by simpa using filled)
      exact Or.inl (by omega)

theorem Reaches.result (reaches : e.Reaches task) (ended : e.task = none) : ∃ pass, e.taskResult? task = some pass := by
  obtain inside | ⟨-, under⟩ := reaches
  · exact ⟨_, List.getElem?_eq_getElem inside⟩
  · simp [ended] at under

/-- An engine that owes nothing has no task. -/
theorem Limited.ended (limited : e.Limited) (awake : e.Awake) (none : e.backlog = 0) : e.task = .none := by
  match task : e.task with
  | .none => rfl
  | some .created => exact absurd task awake
  | some .working =>
    have one := limited.steady.runners
    rw [if_pos task, runners_eq] at one
    have line := List.count_le_length (a := Requester.runner) (l := e.line)
    have busy := List.count_le_length (a := Requester.runner) (l := e.busy?.toList)
    have same : e.busy?.toList.length = e.current.toList.length := by
      cases current : e.current <;> simp [busy?, current]
    unfold backlog at none
    omega

theorem wake_awake (limited : e.Limited) : e.wake.Awake ∧ e.wake.backlog = e.backlog := by
  unfold wake
  split
  next created =>
    have dirty := limited.steady.created created
    simp only [Engine.proceed, dirty, if_true, Awake, backlog, List.length_append, List.length_singleton]
    exact ⟨by simp, by simp; omega⟩
  next other => exact ⟨other, rfl⟩

/-- Taking leave of a pass that is over leaves one less. -/
theorem complete_backlog {result : PassResult} (awake : e.Awake) (completed : e.complete? = some (who, result, next)) :
    next.Awake ∧ next.backlog + 1 = e.backlog := by
  obtain ⟨pass, current, -, -, ⟨rfl, rfl⟩ | ⟨other, rfl⟩⟩ := complete?_some completed
  · unfold Engine.proceed
    split
    next dirty =>
      have dirty : e.dirty = true := dirty
      simp [Awake, backlog, current, dirty]
    next clean =>
      have clean : e.dirty = false := by simpa using clean
      simp [Awake, backlog, current, clean]
  · refine ⟨awake, ?_⟩
    simp [backlog, current]
    omega

/-- With a pass to run, one is under way as soon as one may begin. -/
theorem begin_backlog (e : Engine) (store : Store) :
    e.current = none ∧ e.line = [] ∧ (e.begin store).engine = e ∨
      (e.begin store).engine.task = e.task ∧ (e.begin store).engine.backlog = e.backlog ∧
        ∃ who pass, (e.begin store).engine.current = some (who, pass) := by
  unfold begin
  split
  next who rest free first => exact Or.inr ⟨rfl, by simp [goOn, backlog, free, first], who, _, rfl⟩
  next busy =>
    cases current : e.current with
    | none =>
      cases line : e.line with
      | nil => exact Or.inl ⟨rfl, rfl, rfl⟩
      | cons who rest => exact absurd line (busy who rest current)
    | some running => exact Or.inr ⟨rfl, rfl, running.1, running.2, rfl⟩

theorem Limited.idle (limited : e.Limited) (awake : e.Awake) (free : e.current = none) (line : e.line = []) :
    e.backlog = 0 := by
  have clean : e.dirty = false := by
    -- What is wanted keeps the task, and a task at work has a pass under way or in line.
    apply Bool.eq_false_iff.mpr
    intro dirty
    obtain ⟨stage, task⟩ := Option.isSome_iff_exists.mp (limited.steady.wanted dirty)
    cases stage with
    | created => exact awake task
    | working =>
      obtain busy | lined := limited.steady.working task
      · simp [busy?, free] at busy
      · simp [line] at lined
  simp [backlog, free, line, clean]

end Engine

namespace Host

open Engine

variable {h next : Host}

theorem Onward.limited (onward : h.Onward next) (limited : h.engine.Limited) : next.engine.Limited := by
  apply onward.keeps (p := fun h => h.engine.Limited)
  · intro h next limited same
    rw [same.engine]
    exact limited
  · intro h limited e
    simp only [Host.publish]
    split
    · exact limited.step (.notice e)
    · exact limited
  · intro h limited m
    exact limited.step m
  · exact limited

theorem Onward.reaches {task : Nat} (onward : h.Onward next) (limited : h.engine.Limited)
    (reaches : h.engine.Reaches task) : next.engine.Reaches task := by
  apply And.right (a := next.engine.Limited)
  apply onward.keeps (p := fun h => h.engine.Limited ∧ h.engine.Reaches task)
  · intro h next holds same
    rw [same.engine]
    exact holds
  · intro h ⟨limited, reaches⟩ e
    simp only [Host.publish]
    split
    · exact ⟨limited.step (.notice e), reaches.step limited.steady (.notice e)⟩
    · exact ⟨limited, reaches⟩
  · intro h ⟨limited, reaches⟩ m
    exact ⟨limited.step m, reaches.step limited.steady m⟩
  · exact ⟨limited, reaches⟩

section

variable {σ : Type} {perform : Perform σ} {who : Requester} {pass : Pass}

structure Scripted (e next : Engine) : Prop where
  alike : e.Alike next
  line : next.line = e.line

theorem Scripted.trans {e mid next : Engine} (first : Scripted e mid) (last : Scripted mid next) : Scripted e next :=
  ⟨⟨last.alike.dirty.trans first.alike.dirty, last.alike.task.trans first.alike.task,
    last.alike.finished.trans first.alike.finished⟩, last.line.trans first.line⟩

/-- Scripts run until the pass under way is over, if there are as many runs as it may need. -/
theorem runScripts_over (quiet : perform.Quiet) (fuel : Nat) (w : Host × σ)
    (current : w.1.engine.current = some (who, pass)) (enough : pass.remaining ≤ fuel) :
    Scripted w.1.engine (runScripts perform fuel w).1.engine ∧
      ∃ last, (runScripts perform fuel w).1.engine.current = some (who, last) ∧ last.waiting = none := by
  induction fuel generalizing w pass with
  | zero =>
    refine ⟨⟨.refl _, rfl⟩, pass, current, ?_⟩
    match waiting : pass.waiting with
    | none => rfl
    | some (running, rest) =>
      simp only [Pass.remaining, waiting] at enough
      split at enough <;> omega
  | succ fuel ih =>
    match waiting : pass.waiting with
    | none =>
      have done : w.1.engine.call? = none := by simp [Engine.call?, current, Pass.call?, waiting]
      simp only [runScripts, done]
      exact ⟨⟨.refl _, rfl⟩, pass, current, waiting⟩
    | some (running, rest) =>
      have asked : w.1.engine.call? = some running.call := by simp [Engine.call?, current, Pass.call?, waiting]
      have same : (perform running.call w).2.1 = w.1 := quiet running.call w
      simp only [runScripts, asked]
      generalize (perform running.call w).1 = result
      have resumed : (((perform running.call w).2.1.resumePass result).engine.current =
          some (who, (pass.resume w.1.store.table w.1.engine.registry result).pass)) := by
        simp [same, Host.resumePass, Host.afterStep, Engine.resume, current, Engine.goOn]
      have fewer := Pass.resume_remaining waiting w.1.store.table w.1.engine.registry result
      obtain ⟨scripted, ended⟩ := ih ((perform running.call w).2.1.resumePass result, (perform running.call w).2.2)
        resumed (by omega)
      refine ⟨Scripted.trans ?_ scripted, ended⟩
      simp only [same, Host.resumePass, Host.afterStep, Engine.resume, current, Engine.goOn]
      exact ⟨⟨rfl, rfl, rfl⟩, rfl⟩

/-- Each pass that runs leaves one less to run. -/
theorem runPasses_backlog (quiet : perform.Quiet) (fuel : Nat) (w : Host × σ) (limited : w.1.engine.Limited)
    (awake : w.1.engine.Awake) :
    (runPasses perform fuel w).2.1.engine.Awake ∧
      (runPasses perform fuel w).2.1.engine.backlog = w.1.engine.backlog - fuel := by
  induction fuel generalizing w with
  | zero => exact ⟨awake, rfl⟩
  | succ fuel ih =>
    simp only [runPasses]
    obtain ⟨free, line, same⟩ | ⟨task, backlog, who, pass, current⟩ := w.1.engine.begin_backlog w.1.store
    · -- There is nothing to run, and nothing is owed.
      have idle : runScripts perform scriptLimit (w.1.beginPass, w.2) = (w.1.beginPass, w.2) := by
        simp [scriptLimit, Kind.all, runScripts, Host.beginPass, Host.afterStep, same, Engine.call?, free]
      have done : w.1.beginPass.engine.complete? = none := by
        simp [Host.beginPass, Host.afterStep, same, Engine.complete?, free]
      simp only [idle, done]
      have none := limited.idle awake free line
      simp only [Host.beginPass, Host.afterStep, same, none]
      exact ⟨awake, by simp⟩
    · -- The pass that is under way now runs to its end, and is one less.
      have begun : w.1.beginPass.engine.Limited := (Onward.beginPass w.1).limited limited
      have run := (Onward.runScripts quiet scriptLimit (w.1.beginPass, w.2)).limited begun
      obtain ⟨scripted, last, ended, waiting⟩ := runScripts_over quiet scriptLimit (w.1.beginPass, w.2) current
        (begun.bounded who pass current)
      generalize runScripts perform scriptLimit (w.1.beginPass, w.2) = v at scripted ended run ⊢
      have awake : v.1.engine.Awake := by
        unfold Engine.Awake
        rw [scripted.alike.task]
        exact task ▸ awake
      have owed : v.1.engine.backlog = w.1.engine.backlog := by
        rw [← backlog]
        simp only [Engine.backlog, scripted.line, scripted.alike.dirty, ended]
        simp [Host.beginPass, Host.afterStep, current]
      obtain ⟨⟨who', result⟩, ends⟩ : ∃ ends, v.1.engine.over? .complete = some ends :=
        ⟨_, over?_complete ended waiting⟩
      obtain ⟨⟨who', result', engine⟩, completed, -⟩ := Option.map_eq_some_iff.mp ends
      simp only [completed]
      obtain ⟨awake, less⟩ := complete_backlog awake completed
      obtain ⟨awake, rest⟩ := ih ({ v.1 with engine := engine }, v.2) ((Onward.complete completed).limited run) awake
      refine ⟨awake, rest.trans ?_⟩
      rw [← owed, ← less]
      exact (Nat.add_sub_add_right _ 1 fuel).symm

end

/-- Every outcome in line is reported. -/
theorem reportAll_callbacks (h : Host) : h.reportAll.callbacks = [] := by
  unfold reportAll
  generalize queued : h.callbacks = line
  suffices all : (line.foldl (fun h _ => h.report) h).callbacks = [] from all
  induction line generalizing h with
  | nil => exact queued
  | cons c rest ih =>
    have shorter : h.report.callbacks = rest := by
      unfold report
      rw [queued]
      exact (told_rest _ _ _).2.1
    exact ih h.report shorter

/-- A host that has settled: no outcome is in line, the task has had its turn, and one pass at most is owed to it. -/
structure Settled (h : Host) : Prop where
  callbacks : h.callbacks = []
  engine : h.engine.Awake ∧ (h.engine.newestTask? = none ∨ h.engine.backlog ≤ 1)

section

variable {σ : Type} {perform : Perform σ}

theorem settle_settled (quiet : perform.Quiet) (w : Host × σ) (limited : w.1.engine.Limited) :
    (settle perform w).1.Settled := by
  have callbacks := (settle_beside quiet w).callbacks.trans w.1.reportAll_callbacks
  have reported := (Onward.reportAll w.1).limited limited
  refine ⟨callbacks, ?_⟩
  simp only [settle, drain]
  split
  next never =>
    refine ⟨?_, Or.inl never⟩
    unfold Engine.newestTask? at never
    split at never
    · cases never
    next none => simp [Engine.Awake, none]
  next task _ =>
    obtain ⟨awake, same⟩ := wake_awake reported
    have woken : w.1.reportAll.engine.wake.Limited := reported.step .wake
    -- One pass more runs than are in line, where the one under way and one that is wanted may be two.
    obtain ⟨awake, left⟩ := runPasses_backlog quiet _ ({ w.1.reportAll with engine := w.1.reportAll.engine.wake }, w.2)
      woken awake
    refine ⟨awake, Or.inr ?_⟩
    rw [left]
    have busy : w.1.reportAll.engine.wake.current.toList.length ≤ 1 := by
      cases w.1.reportAll.engine.wake.current <;> simp
    have wanted := Bool.toNat_le w.1.reportAll.engine.wake.dirty
    simp only [passLimit, Engine.backlog]
    omega

/-- A host that has settled before has no task any more when it settles again. -/
theorem settle_over (quiet : perform.Quiet) (w : Host × σ) (limited : w.1.engine.Limited) (settled : w.1.Settled) :
    (settle perform w).1.engine.task = none := by
  have reported : w.1.reportAll = w.1 := by
    unfold reportAll
    rw [settled.callbacks]
    rfl
  simp only [settle, drain, reported]
  split
  next never =>
    unfold Engine.newestTask? at never
    split at never
    · cases never
    next none => exact none
  next task newest =>
    obtain ⟨awake, same⟩ := wake_awake limited
    have woken : w.1.engine.wake.Limited := limited.step .wake
    obtain ⟨awake, left⟩ := runPasses_backlog quiet _ ({ w.1 with engine := w.1.engine.wake }, w.2) woken awake
    have run := (Onward.runPasses quiet (Host.passLimit { w.1 with engine := w.1.engine.wake } + 0)
      ({ w.1 with engine := w.1.engine.wake }, w.2)).limited woken
    apply run.ended awake
    have few : w.1.engine.backlog ≤ 1 := settled.engine.2.resolve_left (by simp [newest])
    rw [left, same]
    simp only [passLimit]
    omega

end

end Host

end Leasehold
