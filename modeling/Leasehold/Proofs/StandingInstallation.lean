import Leasehold.Proofs.BackupDiscipline

/-! What a pass leaves alone. If it selects a lease for a kind and runs no script, then the installation of that
lease is the latest change of the kind's settings that is on record. A script that fails changes nothing
on record, so it does not count, even if it has changed the settings in part. -/

namespace Leasehold

namespace ScriptRun

def latestAttempt? (runs : List ScriptRun) : Option ScriptRun :=
  (runs.filter ScriptRun.alters).getLast?

theorem lease_of_installed {runs : List ScriptRun} {seqno : Int} (same : installed runs = seqno)
    (stamped : seqno ≠ notInstalled) : (latestEffect? runs).bind lease? = some seqno := by
  unfold installed at same
  cases found : (latestEffect? runs).bind lease? with
  | none => exact absurd (by simpa [found] using same.symm) stamped
  | some n => simpa [found] using same

end ScriptRun

namespace Pass

variable {origins : List (Int × Scalar)} {base u : Updater} {runs : List ScriptRun} {o : KindOutcome} {p : Pass}
  {r : Registry}

theorem Heading.intent {before : List ScriptRun} {running : Running} (heading : Heading base before u running) :
    running.outcome.intent ≠ .none := by
  cases heading <;> nofun

/-- A turn that set out to do nothing did nothing, and found what is selected installed. -/
theorem Reached.standing (reached : Reached origins base runs u (.done o)) (intent : o.intent = .none) :
    runs = [] ∧ ∀ source, u.selectSource = some source → source.seqno = u.installedSeqno := by
  cases reached with
  | planned planned =>
    refine ⟨rfl, fun source selected => ?_⟩
    cases planned with
    | standing standing selected' same =>
      rw [selected'] at selected
      exact Option.some.inj selected ▸ same
    | bare none_selected => simp [none_selected] at selected
    | unbuilt => cases intent
  | concluded before concluded =>
    have some_intent := (before.heading _ rfl).intent
    cases concluded <;> exact absurd intent some_intent

theorem Accounts.reached {bases : Kind → Updater} (accounts : p.Accounts bases runs r) (member : o ∈ p.outcomes) :
    Reached p.origins (bases o.kind) (ScriptRun.ofKind o.kind runs) (r.updater o.kind) (.done o) := by
  unfold Accounts at accounts
  split at accounts
  next => exact accounts.done o member
  next =>
    obtain ⟨dealt, -, half, -, -⟩ := accounts
    exact half.done o member

end Pass

namespace Engine

/-- Whenever a pass selects a lease for a kind and sets out to do nothing, the latest effect on the kind's
settings was the installation of that lease, if the lease was ever numbered. -/
theorem run_standing_installed (scripts : PerKind (Option Scripts)) (builders : Artifact.Builders)
    (moves : List Move) (who : Requester) (pass : Pass)
    (current : ((initial scripts builders).run moves).1.current = some (who, pass)) (o : KindOutcome)
    (reported : o ∈ pass.outcomes) (idle : o.intent = .none) (source : Source)
    (selected : (((initial scripts builders).run moves).1.registry.updater o.kind).selectSource = some source)
    (stamped : source.seqno ≠ notInstalled) :
    (ScriptRun.latestEffect? (ScriptRun.ofKind o.kind ((initial scripts builders).run moves).2)).bind
      ScriptRun.lease? = some source.seqno := by
  obtain ⟨orderly, kinds⟩ := run_kinds_disciplined scripts builders moves
  obtain ⟨base, ran, accounts⟩ := orderly.accounts who pass current
  have standing := ((accounts.reached reported).standing idle).2 source selected
  have installed := (kinds o.kind).installed
  exact ScriptRun.lease_of_installed (standing.trans installed).symm stamped

/-- The second pass leaves alone what the first one has installed. -/
theorem second_pass_standing :
    let scripts : PerKind (Option Scripts) :=
      ⟨some ⟨some ["set"], some ["save"], some ["undo"], none⟩, none, none, none⟩
    let store : Store := ⟨[{ Lease.blank .dhcp with seqno := 1, hostname := some "a" }], [⟨.str "eth0", 1, [0]⟩], 1⟩
    let moves := pass store [.ended true "" none, .ended true "" none] ++ pass store []
    let o : KindOutcome := ⟨.hostname, .none, true, 1, [], none⟩
    let ran := (initial scripts .standard).run moves
    ∃ who pass, ran.1.current = some (who, pass) ∧ o ∈ pass.outcomes ∧
      (ScriptRun.latestEffect? (ScriptRun.ofKind .hostname ran.2)).bind ScriptRun.lease? = some 1 := by
  intro scripts store moves o ran
  have outcomes : ran.1.current.map (fun c => c.2.outcomes) = some [o] := by decide +kernel
  obtain ⟨⟨who, pass⟩, current, same⟩ := Option.map_eq_some_iff.mp outcomes
  have reported : o ∈ pass.outcomes := by simp [show pass.outcomes = [o] from same]
  have selected : (ran.1.registry.updater .hostname).selectSource = some ⟨1, 51, some 0⟩ := by decide +kernel
  exact ⟨who, pass, current, reported,
    run_standing_installed scripts .standard moves who pass current o reported rfl ⟨1, 51, some 0⟩ selected (by decide)⟩

/-- A lease stands for what is installed although a later installation failed, or succeeded without a record; and a
lease that was never numbered counts as installed from the first. -/
theorem earlier_installation_stands :
    let start := initial ⟨some ⟨some ["set"], none, none, none⟩, none, none, none⟩ .standard
    let light (seqno : Int) : Lease := { Lease.blank .dhcp with seqno := seqno, hostname := some "a" }
    let heavy : Lease := { Lease.blank .ibft with seqno := 2, hostname := some "b" }
    let alone (seqno : Int) : Store := ⟨[light seqno], [⟨.str "eth0", 1, [0]⟩], 2⟩
    let joined (device : Scalar) : Store := ⟨[light 1, heavy], [⟨.str "eth0", 1, [0]⟩, ⟨device, 2, [1]⟩], 2⟩
    let failed := start.run (pass (alone 1) [.ended true "" none] ++
      pass (joined (.str "eth1")) [.ended false "" none] ++ pass (alone 1) [])
    let unrecorded := start.run (pass (alone 1) [.ended true "" none] ++
      pass (joined (.bytes [])) [.ended true "" none] ++ pass (alone 1) [])
    let unnumbered := start.run (pass (alone 0) [])
    let idle (e : Engine) (seqno : Int) : Prop :=
      e.current.map (fun c => c.2.outcomes) = some [⟨.hostname, .none, true, seqno, [], none⟩] ∧
        (e.registry.updater .hostname).selectSource.map Source.seqno = some seqno
    let latest (runs : List ScriptRun) := (ScriptRun.latestAttempt? (ScriptRun.ofKind .hostname runs)).map
      fun run => (run.lease?, run.succeeded)
    (idle failed.1 1 ∧ latest failed.2 = some (some 2, false)) ∧
    (idle unrecorded.1 1 ∧ latest unrecorded.2 = some (some 2, true)) ∧
    (idle unnumbered.1 0 ∧ latest unnumbered.2 = none) := by
  decide +kernel

end Engine
end Leasehold
