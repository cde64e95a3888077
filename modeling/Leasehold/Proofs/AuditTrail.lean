import Leasehold.Proofs.PassRecords
import Leasehold.Proofs.PassRequests
import Mathlib.Algebra.Group.Int.Defs

/-! What the audit trail tells of a run of the engine: the state of every kind, from all its records; and of a whole
pass, from those that were written while it was under way, which scripts it ran and which leases they installed. -/

namespace Leasehold.Engine

def unended (e : Engine) : List Move → Bool
  | [] => true
  | m :: rest => (e.over? m).isNone && unended (e.step m).1 rest

/-- A whole pass: it begins over the leases of a store, other moves follow, and then it is over with a result. -/
structure WholePass (e : Engine) (store : Store) (during : List Move) (result : PassResult) : Prop where
  begun : (e.begun? (.begin store)).isSome
  under : e.unended (.begin store :: during) = true
  ends : ∃ who, (e.run (.begin store :: during)).1.over? .complete = some (who, result)

def InForce (e : Engine) (during : List Move) (builders : Artifact.Builders) : Prop :=
  builders = e.registry.builders ∨ .rebuild builders ∈ during

structure Documents (base : Kind → Updater) (origins : List (Int × Scalar)) (force : Artifact.Builders → Prop)
    (sound : LeaseTable → Prop) (e : Engine) (runs : List ScriptRun) : Prop where
  configured : e.registry.configured = true
  current : ∃ who pass, e.current = some (who, pass) ∧
    Pass.Documented base origins force sound pass runs e.registry

variable {base : Kind → Updater} {origins : List (Int × Scalar)} {force : Artifact.Builders → Prop}
  {sound : LeaseTable → Prop} {e next : Engine} {runs : List ScriptRun} {m : Move}

theorem Documents.same (documents : Documents base origins force sound e runs)
    (registry : next.registry = e.registry) (current : next.current = e.current) :
    Documents base origins force sound next (runs ++ []) := by
  rw [List.append_nil]
  exact ⟨by rw [registry]; exact documents.configured, by rw [registry, current]; exact documents.current⟩

/-- What a move does to the pass under way goes into its account. -/
theorem Documents.step (documents : Documents base origins force sound e runs) (unended : e.over? m = none)
    (forced : ∀ builders, m = .rebuild builders → force builders)
    (fits : ∀ table result, m = .resume table result → sound table) :
    Documents base origins force sound (e.step m).1 (runs ++ (e.step m).2) := by
  obtain ⟨who, pass, current, documented⟩ := documents.current
  cases m with
  | configure =>
    -- The kinds have been configured, so that they stay as they are.
    exact documents.same (by simp [Engine.step, Registry.configure, documents.configured]) rfl
  | rebuild builders =>
    rw [Engine.step, List.append_nil]
    exact ⟨documents.configured, who, pass, current, documented.rebuilt (forced builders rfl)⟩
  | schedule | request name => exact documents.same rfl rfl
  | notice event =>
    simp only [Engine.step, notice]
    split <;> exact documents.same rfl rfl
  | wake =>
    simp only [Engine.step, wake]
    split
    next => exact documents.same (e.proceed_moved none).1 (e.proceed_moved none).2
    next => exact documents.same rfl rfl
  | begin store =>
    simp only [Engine.step, begin, current]
    exact documents.same rfl rfl
  | resume table result =>
    simp only [Engine.step, resume, ended, current, goOn]
    refine ⟨?_, who, _, rfl, documented.resume (fits table result rfl) result⟩
    exact (Pass.resume_settings pass table e.registry result).trans documents.configured
  | complete =>
    have unfinished : e.complete? = none := by simpa [over?] using unended
    simp only [Engine.step, unfinished]
    exact documents.same rfl rfl

theorem Documents.run (documents : Documents base origins force sound e runs) {during : List Move}
    (under : e.unended during = true) (forced : ∀ builders, .rebuild builders ∈ during → force builders)
    (fits : ∀ table result, .resume table result ∈ during → sound table) :
    Documents base origins force sound (e.run during).1 (runs ++ (e.run during).2) := by
  induction during generalizing e runs with
  | nil => simpa [Engine.run] using documents
  | cons m rest ih =>
    obtain ⟨unended, under⟩ := Bool.and_eq_true_iff.mp under
    have stepped := documents.step (Option.isNone_iff_eq_none.mp unended)
      (fun builders same => forced builders (same ▸ List.mem_cons_self))
      (fun table result same => fits table result (same ▸ List.mem_cons_self))
    have ran := ih stepped under (fun builders later => forced builders (List.mem_cons_of_mem m later))
      (fun table result later => fits table result (List.mem_cons_of_mem m later))
    simpa only [Engine.run, List.append_assoc] using ran

variable {store : Store} {during : List Move} {result : PassResult}

/-- At the end of a whole pass its account is complete. -/
theorem WholePass.documented (whole : e.WholePass store during result) (orderly : e.Orderly)
    (sound : LeaseTable → Prop) (fits : ∀ table result, .resume table result ∈ during → sound table)
    (stock : sound store.table) :
    result.scripts = ScriptRun.scripts (e.run (.begin store :: during)).2 ∧
      ∀ run ∈ (e.run (.begin store :: during)).2,
        Pass.Attested (Pass.baseOf store e.registry) (Pass.originsOf store) (e.InForce during) sound run := by
  obtain ⟨who, began⟩ := Option.isSome_iff_exists.mp whole.begun
  obtain ⟨rest, -, free, line, -⟩ := step_begun began
  have begun : Documents (Pass.baseOf store e.registry) (Pass.originsOf store) (e.InForce during) sound
      (e.step (.begin store)).1 [] := by
    simp only [step, begin, free, line, goOn]
    exact ⟨(Pass.start_settings store e.registry).1, who, _, rfl,
      Pass.start_documented store e.registry orderly.label (Or.inl rfl) stock⟩
  have ran := begun.run (Bool.and_eq_true_iff.mp whole.under).2 (fun _ => Or.inr) fits
  rw [List.nil_append] at ran
  obtain ⟨who, ends⟩ := whole.ends
  obtain ⟨who', pass, current, documented⟩ := ran.current
  obtain ⟨-, pass', current', waiting, -⟩ := step_over ends
  obtain ⟨rfl, rfl⟩ := Prod.mk.inj (Option.some.inj (current.symm.trans current'))
  have same : (⟨pass.outcomes⟩ : PassResult) = result := by
    have finished := (over?_complete current waiting).symm.trans ends
    exact (Prod.mk.inj (Option.some.inj finished)).2
  have scripts := documented.scripts
  simp only [Pass.scripts, waiting, Option.map_none, Option.getD_none, List.append_nil] at scripts
  exact ⟨same ▸ scripts, documented.attested⟩

/-- If every lease that is held can be named, the records are those of the scripts that ran to their ends. -/
theorem records_of_scripts {runs : List ScriptRun} (nameable : ∀ n, ¬ store.Unwritable n)
    (recorded : ∀ run ∈ runs, OnRecord store run) :
    (runs.flatMap ScriptRun.changes).map (fun c => (c.kind, c.operation)) =
      (ScriptRun.scripts runs).map fun script => (script.1.name, script.2.name) := by
  induction runs with
  | nil => rfl
  | cons run rest ih =>
    obtain ⟨here, later⟩ := List.forall_mem_cons.mp recorded
    rw [List.flatMap_cons, List.map_append, ih later, ScriptRun.scripts, ScriptRun.scripts]
    cases here with
    | written c completed one kind operation =>
      rw [List.filter_cons_of_pos completed, one]
      simp [kind, operation, ScriptRun.script]
    | crashed incomplete none => rw [List.filter_cons_of_neg (by simp [incomplete]), none]; rfl
    | lost _ _ n _ _ unwritable => exact absurd unwritable (nameable n)

/-- Whatever becomes of scripts, leases and builders, the records of a kind tell its state. Of a whole pass there are
the records of the scripts that its outcomes name, in the same order, but for installations of leases that cannot be
named. And if the leases had numbers of their own and stay as they were until the pass is over, then the record of an
installation names the lease from which the script got its artifact. -/
theorem run_trail_tells (scripts : PerKind (Option Scripts)) (builders : Artifact.Builders) (moves : List Move) :
    let e := ((initial scripts builders).run moves).1
    (∀ kind, Applied.replay (((initial scripts builders).trail moves).filter fun c => c.kind = kind.name) =
      (e.registry.updater kind).applied) ∧
    ∀ store during result, e.WholePass store during result →
      let runs := (e.run (.begin store :: during)).2
      let records := e.trail (.begin store :: during)
      (result.scripts = ScriptRun.scripts runs ∧ records = runs.flatMap ScriptRun.changes ∧
        ∀ run ∈ runs, OnRecord store run) ∧
      ((∀ n, ¬ store.Unwritable n) → records.map (fun c => (c.kind, c.operation)) =
        result.scripts.map fun script => (script.1.name, script.2.name)) ∧
      ((store.numbers (store.held.map (·.2))).Nodup →
        (∀ table result, .resume table result ∈ during → store.Keeps table) →
        ∀ run ∈ runs, run.role = .install → ∀ c ∈ run.changes,
          ∃ device id, NamesLease store (e.InForce during) run c device id) := by
  intro e
  refine ⟨run_replay scripts builders moves, ?_⟩
  intro store during result whole runs records
  have orderly : e.Orderly := (run_kinds_disciplined scripts builders moves).1
  obtain ⟨named, attested⟩ := whole.documented orderly (fun _ => True) (fun _ _ _ => trivial) trivial
  have written : records = runs.flatMap ScriptRun.changes := e.trail_eq _
  have recorded (run : ScriptRun) (member : run ∈ runs) : OnRecord store run := by
    refine (attested run member).onRecord ?_
    -- What was installed before has been on record, and the runs of the pass are among those of the whole run.
    have ran := run_recorded scripts builders (moves ++ .begin store :: during) run.kind
    refine ran.before run (List.mem_filter.mpr ⟨?_, by simp⟩)
    rw [run_append]
    exact List.mem_append_right _ member
  refine ⟨⟨named, written, recorded⟩, fun nameable => ?_, fun apart kept run member install c listed => ?_⟩
  · rw [written, named]
    exact records_of_scripts nameable recorded
  · have stock : store.Keeps store.table := fun _ _ => rfl
    exact ((whole.documented orderly store.Keeps kept stock).2 run member).namesLease apart install listed

/-- A backup and an installation are made in one pass, and both are on record. -/
theorem first_pass_on_record :
    let scripts : PerKind (Option Scripts) :=
      ⟨some ⟨some ["set"], some ["save"], some ["undo"], none⟩, none, none, none⟩
    let store : Store := ⟨[{ Lease.blank .dhcp with seqno := 1, hostname := some "a" }], [⟨.str "eth0", 1, [0]⟩], 1⟩
    let during : List Move := List.replicate 2 (.resume store.table (.ended true "" none))
    let e := ((initial scripts .standard).run [.request 0]).1
    (e.trail (.begin store :: during)).map (fun c => (c.kind, c.operation)) =
        [("hostname", "backup"), ("hostname", "install")] ∧
      ∀ run ∈ (e.run (.begin store :: during)).2, run.role = .install → ∀ c ∈ run.changes,
        ∃ device id, NamesLease store (e.InForce during) run c device id := by
  intro scripts store during e
  have whole : e.WholePass store during
      ⟨[⟨.hostname, .install, true, 1, [.backup, .install], none⟩]⟩ :=
    ⟨by decide +kernel, by decide +kernel, .caller 0, by decide +kernel⟩
  have nameable (n : Int) : ¬ store.Unwritable n := by
    rintro ⟨device, id, held, rfl, impossible⟩
    obtain ⟨rfl, rfl⟩ := Prod.mk.inj (List.mem_singleton.mp held)
    obtain digits | nameless := impossible
    · exact absurd digits (by decide +kernel)
    · exact nameless _ rfl
  have kept (table : LeaseTable) (result : RunResult) (move : .resume table result ∈ during) : store.Keeps table := by
    obtain ⟨rfl, -⟩ := Move.resume.inj (List.eq_of_mem_replicate move)
    exact fun _ _ => rfl
  obtain ⟨-, literal, names⟩ := (run_trail_tells scripts .standard [.request 0]).2 store during _ whole
  exact ⟨literal nameable, names (by decide) kept⟩

/-- An installation for a device whose name is a byte string is among the outcomes, but not on record. And a lease that
is taken from the store while its artifact is being installed may get another protocol; then the record names that
one. -/
theorem unnamed_and_relabelled :
    let start := initial ⟨some ⟨some ["set"], none, none, none⟩, none, none, none⟩ .standard
    let store (name : Scalar) : Store :=
      ⟨[{ Lease.blank .dhcp with seqno := 1, hostname := some "a" }], [⟨name, 1, [0]⟩], 1⟩
    let named := store (.str "eth0")
    let removed := named.modifyDevice (.str "eth0") fun d => d.removeLease 0
    let changed := removed.setLease 0 { Lease.blank .ibft with seqno := 1, hostname := some "a" }
    let unnamed := pass (store (.bytes [0x61, 0x62])) [.ended true "" none]
    let relabelled := [.request 0, .begin named, .resume changed.table (.ended true "" none)]
    (((start.run unnamed).1.current.map fun c => c.2.outcomes.map KindOutcome.scriptsRun) = some [[.install]] ∧
      start.trail unnamed = []) ∧
    changed.held = [] ∧ (named.lease 0).origin = "dhcp/ipv4" ∧
      (start.trail relabelled).map (fun c => (c.operation, c.seqno, c.device, c.source)) =
        [("install", 1, some (.str "eth0"), some "ibft/ipv4")] := by
  decide +kernel

end Leasehold.Engine
