import Leasehold.Proofs.PassRecords

/-! Kinds leave each other alone. What a pass does about a kind is what the kind's turn comes to by itself: it
depends on the state in which the turn begins, on the kind's builder, on the leases as they were when the pass took
stock, and on how the kind's own scripts end. All that other kinds do, and all that happens to the store, only
decides when the turn is taken. -/

namespace Leasehold

/-- Two registries that agree about one kind. -/
structure Registry.SameFor (kind : Kind) (r other : Registry) : Prop where
  updater : r.updater kind = other.updater kind
  scripts : r.scripts.get kind = other.scripts.get kind
  builder : r.builders.get? kind = other.builders.get? kind
  configured : r.configured = other.configured

namespace ScriptRun

def resultsOf (kind : Kind) (runs : List ScriptRun) : List RunResult :=
  (ofKind kind runs).map ScriptRun.result

end ScriptRun

namespace Pass

def begun (builders : Artifact.Builders) (table : LeaseTable) (u : Updater) : Next × Updater :=
  ((plan builders table u).1, (plan builders table u).2.1)

/-- The turn of a kind that has the host to itself, by how its scripts end: the script runs, what comes next, and the
kind's state. -/
def turn (table : LeaseTable) (origins : List (Int × Scalar)) :
    Next × Updater → List RunResult → List ScriptRun × Next × Updater
  | (.run running, u), result :: rest =>
    let ended := conclude table origins u running result
    let later := turn table origins (ended.1, ended.2.1) rest
    (⟨running, u, result, ended.2.2.1⟩ :: later.1, later.2)
  | first, _ => ([], first)

variable {builders builders' : Artifact.Builders} {table table' : LeaseTable} {origins : List (Int × Scalar)}
  {kind : Kind} {kinds rest : List Kind} {u u' base : Updater} {running : Running} {result : RunResult}
  {changes : List Audit.Change} {next : Next} {first : Next × Updater} {r r' : Registry}
  {outcomes : List KindOutcome} {p : Pass} {runs : List ScriptRun} {bases : Kind → Updater}

theorem Planned.begun (planned : Planned builders table u next u') : begun builders table u = (next, u') := by
  cases planned with
  | standing source selected same => simp [Pass.begun, plan, selected, same]
  | bare selected nothing =>
    cases backed : u.haveBackup with
    | false => simp [Pass.begun, plan, selected, planRestore, backed]
    | true => simp [Pass.begun, plan, selected, planRestore, backed, nothing backed]
  | restoring argv selected backed command =>
    simp [Pass.begun, plan, selected, planRestore, backed, command, KindOutcome.intending]
  | saving source artifact argv selected differs built unsaved command =>
    simp [Pass.begun, plan, selected, differs, planInstall, built, preparing, unsaved, command, KindOutcome.intending]
  | installing source artifact selected differs built safe =>
    cases backed : u.haveBackup with
    | false =>
      simp [Pass.begun, plan, selected, differs, planInstall, built, preparing, backed, safe backed,
        KindOutcome.intending]
    | true => simp [Pass.begun, plan, selected, differs, planInstall, built, preparing, backed, KindOutcome.intending]
  | unbuilt source fault selected differs broken =>
    simp [Pass.begun, plan, selected, differs, planInstall, broken, abandon, KindOutcome.intending]

theorem Concluded.ended (concluded : Concluded table origins u running result changes next u') :
    (conclude table origins u running result).1 = next ∧ (conclude table origins u running result).2.1 = u' ∧
      (conclude table origins u running result).2.2.1 = changes := by
  cases concluded with
  | crashed => exact ⟨rfl, rfl, rfl⟩
  | unwritten success output error message lost =>
    unfold conclude
    simp only
    rw [lost]
    exact ⟨rfl, rfl, rfl⟩
  | failed output error written =>
    unfold conclude
    simp only
    rw [written]
    exact ⟨rfl, rfl, rfl⟩
  | restored output error work written | saved output error source artifact work written
  | installed output error source artifact work written =>
    unfold conclude
    simp only
    rw [written]
    simp only [succeed, work]
    exact ⟨rfl, rfl, rfl⟩

/-- Of builders and leases, what is planned for a kind sees its own builder and its best source's lease. -/
theorem begun_congr (builder : builders.get? u.kind = builders'.get? u.kind)
    (fits : ∀ source, u.selectSource = some source → source.content table = source.content table') :
    begun builders table u = begun builders' table' u := by
  have made (lease : Lease) : builders.build u.kind lease = builders'.build u.kind lease := by
    unfold Artifact.Builders.build
    rw [builder]
  unfold Pass.begun plan
  cases selected : u.selectSource with
  | none => rfl
  | some source => simp only [planInstall, fits source selected, made]

/-- What follows the end of a script sees the lease that is being installed. -/
theorem conclude_congr (fits : ∀ source artifact, running.work = .install source artifact →
      source.content table = source.content table') :
    conclude table origins u running result = conclude table' origins u running result := by
  have told (success : Bool) (output : String) (error : Option String) :
      change table origins u running success output error = change table' origins u running success output error := by
    unfold change
    cases work : running.work with
    | restore | backup => rfl
    | install source artifact => simp [fits source artifact work]
  unfold conclude
  simp only [told]

theorem turn_append {results : List RunResult} (stopped : turn table origins first results = (runs, .run running, u))
    (result : RunResult) : turn table origins first (results ++ [result]) =
      (runs ++ [⟨running, u, result, (conclude table origins u running result).2.2.1⟩],
        (conclude table origins u running result).1, (conclude table origins u running result).2.1) := by
  induction results generalizing first runs with
  | nil =>
    obtain ⟨next, before⟩ := first
    cases next with
    | done o => simp [turn] at stopped
    | run other =>
      obtain ⟨rfl, rfl, rfl⟩ : [] = runs ∧ other = running ∧ before = u := by simpa [turn] using stopped
      simp [turn]
  | cons earlier rest ih =>
    obtain ⟨next, before⟩ := first
    cases next with
    | done o => simp [turn] at stopped
    | run other =>
      simp only [turn, Prod.mk.injEq] at stopped
      obtain ⟨rfl, last⟩ := stopped
      have later := ih (Prod.ext rfl last)
      simp only [turn, List.cons_append, later]

/-- A turn that is over is the same however often it is taken, as long as its scripts end the same way. -/
theorem turn_agree {results results' : List RunResult} {o o' : KindOutcome}
    (ended : (turn table origins first results).2.1 = .done o)
    (ended' : (turn table origins first results').2.1 = .done o')
    (agree : ∀ (i : Nat) (run run' : ScriptRun), (turn table origins first results).1[i]? = some run →
      (turn table origins first results').1[i]? = some run' → run.running.call = run'.running.call →
      run.result = run'.result) :
    turn table origins first results = turn table origins first results' := by
  -- Both turns stand at the same script, so its results agree, and with them what the turns go on with.
  induction results generalizing first results' with
  | nil =>
    obtain ⟨next, u⟩ := first
    cases next with
    | done o => cases results' <;> rfl
    | run running => cases ended
  | cons result rest ih =>
    obtain ⟨next, u⟩ := first
    cases next with
    | done o => cases results' <;> rfl
    | run running =>
      cases results' with
      | nil => cases ended'
      | cons result' rest' =>
        obtain rfl : result = result' := agree 0 _ _ rfl rfl rfl
        have later := ih ended ended' fun (i : Nat) run run' found found' => agree (i + 1) run run' found found'
        simp only [turn, later]

/-- As far as a kind is concerned, a pass has come as far as the kind's turn by itself, once it has begun it. -/
structure Alone (kind : Kind) (table : LeaseTable) (origins : List (Int × Scalar)) (first : Next × Updater) (p : Pass)
    (runs : List ScriptRun) (r : Registry) : Prop where
  snapshot : p.origins = origins
  done : ∀ o ∈ p.outcomes, o.kind = kind → turn table origins first (ScriptRun.resultsOf kind runs) =
    (ScriptRun.ofKind kind runs, .done o, r.updater kind)
  running : ∀ running rest, p.waiting = some (running, rest) → running.call.kind = kind →
    turn table origins first (ScriptRun.resultsOf kind runs) =
      (ScriptRun.ofKind kind runs, .run running, r.updater kind)

/-- The kinds that wait for their turns while a script runs. -/
theorem Accounts.later (accounts : p.Accounts bases runs r) (waiting : p.waiting = some (running, rest)) :
    (running.call.kind :: rest).Nodup ∧ (∀ o ∈ p.outcomes, o.kind ∉ running.call.kind :: rest) ∧
      (∀ kind, (bases kind).kind = kind) ∧
      ∀ kind ∈ rest, (r.updater kind).pruneSources = bases kind ∧ ScriptRun.ofKind kind runs = [] := by
  simp only [Accounts, waiting] at accounts
  obtain ⟨dealt, whole, half, -, -⟩ := accounts
  have nodup : (dealt ++ running.call.kind :: rest).Nodup := whole ▸ by decide
  obtain ⟨-, later, apart⟩ := List.nodup_append.mp nodup
  exact ⟨later, fun o member again => apart o.kind (half.mem_dealt member) o.kind again rfl, half.label, half.ahead⟩

/-- The outcomes that a kind has already tell how its turn by itself has ended. -/
def Ended (kind : Kind) (table : LeaseTable) (origins : List (Int × Scalar)) (first : Next × Updater)
    (runs : List ScriptRun) (r : Registry) (outcomes : List KindOutcome) : Prop :=
  ∀ o ∈ outcomes, o.kind = kind →
    turn table origins first (ScriptRun.resultsOf kind runs) = (ScriptRun.ofKind kind runs, .done o, r.updater kind)

/-- The turn of a kind that has no outcome yet changes nothing about the kinds that have one. -/
theorem Ended.elsewhere {head : Kind} (ended : Ended kind table origins first runs r outcomes)
    (others : ∀ o ∈ outcomes, o.kind ≠ head) (u : Updater) :
    Ended kind table origins first runs (r.modify head fun _ => u) outcomes := by
  intro o member same
  rw [Registry.updater_modify_of_ne _ _ fun here => others o member (same.trans here)]
  exact ended o member same

theorem Ended.ran {run : ScriptRun} (ended : Ended kind table origins first runs r outcomes)
    (others : ∀ o ∈ outcomes, o.kind ≠ run.kind) : Ended kind table origins first (runs ++ [run]) r outcomes := by
  intro o member same
  have different : run.kind ≠ kind := fun here => others o member (same.trans here.symm)
  rw [ScriptRun.resultsOf, ScriptRun.ofKind_append_other runs different, ← ScriptRun.resultsOf]
  exact ended o member same

theorem Ended.append {o : KindOutcome} (ended : Ended kind table origins first runs r outcomes)
    (last : o.kind = kind → turn table origins first (ScriptRun.resultsOf kind runs) =
      (ScriptRun.ofKind kind runs, .done o, r.updater kind)) :
    Ended kind table origins first runs r (outcomes ++ [o]) :=
  List.forall_mem_append.mpr ⟨ended, List.forall_mem_singleton.mpr last⟩

/-- A turn that has just begun has come to what was planned. -/
theorem Planned.turn (planned : Planned builders table' u next u') (silent : ScriptRun.ofKind kind runs = [])
    (begins : Pass.begun builders table' u = first) :
    Pass.turn table origins first (ScriptRun.resultsOf kind runs) = (ScriptRun.ofKind kind runs, next, u') := by
  rw [ScriptRun.resultsOf, silent, ← begins, planned.begun]
  cases next <;> rfl

theorem ahead_modify {head : Kind} (missing : head ∉ rest)
    (ahead : ∀ other ∈ rest, (r.updater other).pruneSources = bases other) (u : Updater) :
    ∀ other ∈ rest, ((r.modify head fun _ => u).updater other).pruneSources = bases other := by
  intro other member
  have different : other ≠ head := fun same => missing (same ▸ member)
  rw [Registry.updater_modify_of_ne _ _ different]
  exact ahead other member

/-- With one more outcome, that of the kind whose turn it was, there is still none of the kinds ahead. -/
theorem apart_append {head : Kind} {o : KindOutcome} (apart : ∀ other ∈ outcomes, other.kind ∉ head :: rest)
    (here : o.kind = head) (missing : head ∉ rest) : ∀ other ∈ outcomes ++ [o], other.kind ∉ rest :=
  List.forall_mem_append.mpr ⟨fun other member => List.not_mem_of_not_mem_cons (apart other member),
    List.forall_mem_singleton.mpr (here ▸ missing)⟩

/-- While a pass goes over the kinds it begins a kind's turn at most once, from the state that waits for it. -/
theorem Advanced.alone (advanced : Advanced table' origins kinds r outcomes r' p) (nodup : kinds.Nodup)
    (label : ∀ other, (bases other).kind = other)
    (ahead : ∀ other ∈ kinds, (r.updater other).pruneSources = bases other)
    (apart : ∀ o ∈ outcomes, o.kind ∉ kinds) (silent : kind ∈ kinds → ScriptRun.ofKind kind runs = [])
    (begins : begun r.builders table' (bases kind) = first)
    (ended : Ended kind table origins first runs r outcomes) : Alone kind table origins first p runs r' := by
  -- By induction on the way over the kinds: those ahead keep the states in which they wait for their turns.
  induction advanced with
  | finished r outcomes => exact ⟨rfl, ended, fun _ _ waiting => by cases waiting⟩
  | @skipped head rest r r' outcomes p disabled later ih =>
    obtain ⟨missing, nodup⟩ := List.nodup_cons.mp nodup
    obtain ⟨-, ahead⟩ := List.forall_mem_cons.mp ahead
    exact ih nodup (ahead_modify missing ahead _) (fun o member => List.not_mem_of_not_mem_cons (apart o member))
      (fun member => silent (List.mem_cons_of_mem head member)) begins
      (ended.elsewhere (fun o member => List.ne_of_not_mem_cons (apart o member)) _)
  | @done head rest r r' outcomes p o u enabled planned later ih =>
    obtain ⟨missing, nodup⟩ := List.nodup_cons.mp nodup
    obtain ⟨pruned, ahead⟩ := List.forall_mem_cons.mp ahead
    have here : o.kind = head := by
      have concerns : o.kind = (r.updater head).pruneSources.kind := planned.kind.2
      rw [concerns, pruned, label]
    have before := ended.elsewhere (fun other member => List.ne_of_not_mem_cons (apart other member)) u
    refine ih nodup (ahead_modify missing ahead u) (apart_append apart here missing)
      (fun member => silent (List.mem_cons_of_mem head member)) begins (before.append fun same => ?_)
    obtain rfl : kind = head := same.symm.trans here
    rw [Registry.updater_modify_self]
    exact (pruned ▸ planned).turn (silent List.mem_cons_self) begins
  | @stopped head rest r outcomes running u enabled planned =>
    obtain ⟨pruned, -⟩ := List.forall_mem_cons.mp ahead
    have here : running.call.kind = head := by
      have concerns : running.call.kind = (r.updater head).pruneSources.kind := planned.kind.2.1
      rw [concerns, pruned, label]
    refine ⟨rfl, ended.elsewhere (fun other member => List.ne_of_not_mem_cons (apart other member)) u,
      fun _ _ waiting same => ?_⟩
    obtain ⟨rfl, rfl⟩ := Prod.mk.inj (Option.some.inj waiting)
    obtain rfl : kind = head := same.symm.trans here
    rw [Registry.updater_modify_self]
    exact (pruned ▸ planned).turn (silent List.mem_cons_self) begins

theorem Alone.rebuilt (alone : Alone kind table origins first p runs r) (builders : Artifact.Builders) :
    Alone kind table origins first p runs { r with builders := builders } :=
  ⟨alone.snapshot, alone.done, alone.running⟩

theorem Heading.installs {before : List ScriptRun} {source : Source} {artifact : String}
    (heading : Heading base before u running) (work : running.work = .install source artifact) :
    base.selectSource = some source := by
  cases heading with
  | restoring | saving => cases work
  | installing _ _ selected | saved _ _ _ selected =>
    cases work
    exact selected

/-- The end of a kind's script brings its turn on as it does by itself. -/
theorem Alone.concludes (alone : Alone kind table origins first p runs r) (accounts : p.Accounts bases runs r)
    (waiting : p.waiting = some (running, rest)) (here : running.call.kind = kind)
    (fits : ∀ source, (bases kind).selectSource = some source → source.content table' = source.content table)
    (concluded : Concluded table' p.origins (r.updater running.call.kind) running result changes next u) :
    let run : ScriptRun := ⟨running, r.updater running.call.kind, result, changes⟩
    turn table origins first (ScriptRun.resultsOf kind (runs ++ [run])) =
      (ScriptRun.ofKind kind (runs ++ [run]), next, u) := by
  subst here
  have heading := (accounts.heading waiting).2
  have same : conclude table origins (r.updater running.call.kind) running result =
      conclude table' p.origins (r.updater running.call.kind) running result := by
    rw [alone.snapshot]
    exact conclude_congr fun source artifact work => (fits source (heading.installs work)).symm
  obtain ⟨after, state, written⟩ := concluded.ended
  simp only [ScriptRun.resultsOf, ScriptRun.ofKind_append_self, List.map_append, List.map_cons, List.map_nil]
  rw [← ScriptRun.resultsOf, turn_append (alone.running running rest waiting rfl), same, after, state, written]

/-- The end of a script brings the turn of its own kind on, and no other that has begun. -/
theorem Alone.resume (alone : Alone kind table origins first p runs r) (accounts : p.Accounts bases runs r)
    (result : RunResult) (begins : begun r.builders table' (bases kind) = first)
    (fits : ∀ source, (bases kind).selectSource = some source → source.content table' = source.content table) :
    Alone kind table origins first (p.resume table' r result).pass
      (runs ++ p.ended r result (p.resume table' r result).changes) (p.resume table' r result).registry := by
  match waiting : p.waiting with
  | none => simpa [Pass.resume, waiting, ended] using alone
  | some (running, rest) =>
    have resumed := resume_resumed waiting table' r result
    obtain ⟨nodup, apart, label, ahead⟩ := accounts.later waiting
    simp only [ended, waiting]
    generalize (p.resume table' r result).pass = next, (p.resume table' r result).registry = r',
      (p.resume table' r result).changes = changes at resumed ⊢
    have heading := (accounts.heading waiting).2
    have outcome : running.outcome.kind = (r.updater running.call.kind).kind := heading.outcome
    -- An outcome that is there already is not of the kind whose script ran.
    have others (o : KindOutcome) (member : o ∈ p.outcomes) : o.kind ≠ running.call.kind :=
      List.ne_of_not_mem_cons (apart o member)
    have ran : Ended kind table origins first
        (runs ++ [⟨running, r.updater running.call.kind, result, changes⟩]) r p.outcomes :=
      Ended.ran alone.done fun o member => others o member
    have before := ran.elsewhere others
    cases resumed with
    | @again running' u concluded =>
      refine ⟨alone.snapshot, before u, fun _ _ waits same => ?_⟩
      obtain ⟨rfl, rfl⟩ := Prod.mk.inj (Option.some.inj waits)
      obtain rfl : running.call.kind = kind :=
        heading.kind.trans ((concluded.kind outcome).2.1.symm.trans same)
      rw [alone.concludes accounts waiting rfl fits concluded, Registry.updater_modify_self]
    | @on o u r' next concluded later =>
      have concerns : o.kind = running.call.kind := (concluded.kind outcome).2.trans heading.kind.symm
      obtain ⟨missing, nodup⟩ := List.nodup_cons.mp nodup
      rw [alone.snapshot] at later
      refine later.alone nodup label (ahead_modify missing (fun other member => (ahead other member).1) u)
        (apart_append apart concerns missing) (fun member => ?_) begins ((before u).append fun same => ?_)
      · have different : kind ≠ running.call.kind := fun same => missing (same ▸ member)
        rw [ScriptRun.ofKind_append_other runs (Ne.symm different)]
        exact (ahead kind member).2
      · obtain rfl : running.call.kind = kind := concerns.symm.trans same
        rw [alone.concludes accounts waiting rfl fits concluded, Registry.updater_modify_self]

variable {store : Store}

theorem baseOf_fits (keeps : store.Keeps table) : ∀ source, (baseOf store r kind).selectSource = some source →
    source.content table = source.content store.table := by
  intro source selected
  obtain ⟨device, id, held, lease, -⟩ := baseOf_selected selected
  have same := keeps id (Store.mem_held.mp (List.mem_map_of_mem held))
  simpa [Source.content, lease, Store.lease] using same

theorem start_alone (label : ∀ kind, (r.updater kind).kind = kind) (kind : Kind) :
    Alone kind store.table (originsOf store) (begun r.builders store.table (baseOf store r kind))
      (start store r).pass [] (start store r).registry := by
  have advanced := (advance_advanced store.table (originsOf store) Kind.all
    (r.configure.1.modifyAll fun u => u.collect store) []).1
  have builders : r.configure.1.builders = r.builders := by
    unfold Registry.configure
    split <;> rfl
  have ahead : ∀ other ∈ Kind.all,
      ((r.configure.1.modifyAll fun u => u.collect store).updater other).pruneSources = baseOf store r other := by
    intro other _
    rw [Registry.updater_modifyAll]
    rfl
  have begins : begun (r.configure.1.modifyAll fun u => u.collect store).builders store.table (baseOf store r kind) =
      begun r.builders store.table (baseOf store r kind) := by
    rw [← builders]
    rfl
  exact advanced.alone (by decide) (baseOf_kind label) ahead (by simp) (fun _ => rfl) begins (by simp [Ended])

theorem follow_alone {s : Stretch} {ends : List Ending} (alone : Alone kind table origins first s.pass runs s.registry)
    (accounts : s.pass.Accounts bases runs s.registry)
    (own : ∀ e ∈ ends, begun e.builders e.table (bases kind) = first ∧
      ∀ source, (bases kind).selectSource = some source → source.content e.table = source.content table) :
    Alone kind table origins first (s.follow ends).1.pass (runs ++ (s.follow ends).2) (s.follow ends).1.registry := by
  induction ends generalizing s runs with
  | nil => simpa [Stretch.follow] using alone
  | cons e rest ih =>
    obtain ⟨⟨begins, fits⟩, later⟩ := List.forall_mem_cons.mp own
    have after := ih ((alone.rebuilt e.builders).resume (accounts.rebuilt e.builders) e.result begins fits)
      (resume_accounts e.table e.result (accounts.rebuilt e.builders)) later
    simpa only [Stretch.follow, List.append_assoc] using after

theorem outcomes_of_result {result : PassResult} (finished : p.result? = some result) :
    p.outcomes = result.outcomes := by
  unfold result? at finished
  cases waiting : p.waiting with
  | none =>
    rw [waiting] at finished
    rw [← Option.some.inj finished]
  | some script =>
    rw [waiting] at finished
    cases finished

/-- A pass deals with a kind as if there were no other: the kind takes its turn by itself, if it is in service. -/
theorem start_follow_alone {ends : List Ending} {result : PassResult} (label : ∀ kind, (r.updater kind).kind = kind)
    (kept : ∀ e ∈ ends, store.Keeps e.table ∧ e.builders.get? kind = r.builders.get? kind)
    (finished : ((start store r).follow ends).1.pass.result? = some result) :
    let runs := ((start store r).follow ends).2
    let last := ((start store r).follow ends).1.registry.updater kind
    if (baseOf store r kind).enabled then
      ∃ o, result.outcome? kind = some o ∧
        turn store.table (originsOf store) (begun r.builders store.table (baseOf store r kind))
          (ScriptRun.resultsOf kind runs) = (ScriptRun.ofKind kind runs, .done o, last)
    else result.outcome? kind = none ∧ ScriptRun.ofKind kind runs = [] ∧ last = baseOf store r kind := by
  intro runs last
  have own : ∀ e ∈ ends, begun e.builders e.table (baseOf store r kind) =
        begun r.builders store.table (baseOf store r kind) ∧
      ∀ source, (baseOf store r kind).selectSource = some source →
        source.content e.table = source.content store.table := by
    intro e member
    obtain ⟨keeps, builder⟩ := kept e member
    exact ⟨begun_congr (by rw [baseOf_kind label, builder]) (baseOf_fits keeps), baseOf_fits keeps⟩
  have alone := follow_alone (start_alone label kind) (start_accounts store r label) own
  have half := start_follow_halfway label ends finished
  have outcomes := outcomes_of_result finished
  split
  next enabled =>
    obtain ⟨o, found⟩ : ∃ o, result.outcome? kind = some o := by
      obtain ⟨o, member, same⟩ := half.outcome_of_enabled kind.mem_all enabled
      exact Option.isSome_iff_exists.mp (List.find?_isSome.mpr ⟨o, member, by simpa using same⟩)
    have same : o.kind = kind := by simpa using List.find?_some found
    exact ⟨o, found, alone.done o (outcomes ▸ List.mem_of_find?_eq_some found) same⟩
  next disabled =>
    have off : (baseOf store r kind).enabled = false := Bool.not_eq_true _ ▸ disabled
    obtain ⟨kept, silent⟩ := half.skipped kind kind.mem_all off
    refine ⟨List.find?_eq_none.mpr fun o member same => ?_, silent, kept⟩
    have enabled := half.enabled_of_outcome member
    rw [of_decide_eq_true same, off] at enabled
    cases enabled

theorem baseOf_same {other : Registry} (label : (r.updater kind).kind = kind) (same : r.SameFor kind other) :
    baseOf store r kind = baseOf store other kind := by
  have has : r.builders.has (r.updater kind).kind = other.builders.has (r.updater kind).kind := by
    rw [label, Artifact.Builders.has, same.builder]
    rfl
  have configured (scripts : Option Scripts) : Registry.configureKind r.builders (r.updater kind) scripts =
      Registry.configureKind other.builders (r.updater kind) scripts := by
    unfold Registry.configureKind
    simp only [has]
  have updater : r.configure.1.updater kind = other.configure.1.updater kind := by
    rw [Registry.configure_updater, Registry.configure_updater, configured, same.configured, same.updater, same.scripts]
  rw [baseOf, updater, baseOf]

/-- Two passes over the same leases, in both of which a kind has the same state, scripts and builder, and in which
its scripts end the same way: the kind has the same outcome, its scripts ran for the same in both, and it is left in
the same state. Whatever the other kinds are and do, and whatever leases come and go meanwhile, makes no difference. -/
theorem kinds_apart (store : Store) (kind : Kind) (r r' : Registry) (ends ends' : List Ending)
    (label : ∀ other, (r.updater other).kind = other) (label' : ∀ other, (r'.updater other).kind = other)
    (same : r.SameFor kind r')
    (kept : ∀ e ∈ ends ++ ends', store.Keeps e.table ∧ e.builders.get? kind = r.builders.get? kind)
    (enough : 2 * Kind.all.length ≤ ends.length) (enough' : 2 * Kind.all.length ≤ ends'.length)
    (agree : ∀ (i : Nat) (run run' : ScriptRun),
      (ScriptRun.ofKind kind ((start store r).follow ends).2)[i]? = some run →
      (ScriptRun.ofKind kind ((start store r').follow ends').2)[i]? = some run' →
      run.running.call = run'.running.call → run.result = run'.result) :
    let one := (start store r).follow ends
    let other := (start store r').follow ends'
    ∃ result result', one.1.pass.result? = some result ∧ other.1.pass.result? = some result' ∧
      result.outcome? kind = result'.outcome? kind ∧
      ScriptRun.ofKind kind one.2 = ScriptRun.ofKind kind other.2 ∧
      one.1.registry.updater kind = other.1.registry.updater kind := by
  intro one other
  obtain ⟨result, finished⟩ := Option.isSome_iff_exists.mp
    (follow_over (Nat.le_trans (start_remaining store r) enough))
  obtain ⟨result', finished'⟩ := Option.isSome_iff_exists.mp
    (follow_over (Nat.le_trans (start_remaining store r') enough'))
  obtain ⟨kept, kept'⟩ := List.forall_mem_append.mp kept
  have alone := start_follow_alone label kept finished
  have alone' := start_follow_alone label' (fun e member => same.builder ▸ kept' e member) finished'
  have base : baseOf store r kind = baseOf store r' kind := baseOf_same (label kind) same
  have first : begun r'.builders store.table (baseOf store r kind) =
      begun r.builders store.table (baseOf store r kind) :=
    begun_congr (by rw [baseOf_kind label, same.builder]) fun _ _ => rfl
  refine ⟨result, result', finished, finished', ?_⟩
  rw [← base, first] at alone'
  split at alone
  next enabled =>
    simp only [enabled, ↓reduceIte] at alone'
    obtain ⟨o, found, turned⟩ := alone
    obtain ⟨o', found', turned'⟩ := alone'
    have whole := turn_agree (by rw [turned]) (by rw [turned']) (by rw [turned, turned']; exact agree)
    rw [turned, turned'] at whole
    obtain ⟨runs, next, state⟩ := Prod.mk.inj whole |>.imp_right Prod.mk.inj
    exact ⟨by rw [found, found', Next.done.inj next], runs, state⟩
  next disabled =>
    simp only [disabled] at alone'
    obtain ⟨missing, silent, last⟩ := alone
    obtain ⟨missing', silent', last'⟩ := alone'
    exact ⟨missing.trans missing'.symm, silent.trans silent'.symm, last.trans last'.symm⟩

/-- The resolver is set up alike whether the script of the host name breaks down and its kind goes out of service, or
its builder turns out not to support the kind while a lease is added. -/
theorem resolver_undisturbed :
    let lease : Lease :=
      { Lease.blank .dhcp with seqno := 3, hostname := some "a", resolver := some ⟨some "b", [], []⟩ }
    let store : Store := ⟨[lease], [⟨.str "eth0", 1, [0]⟩], 3⟩
    let set : Scripts := ⟨some ["set"], none, none, none⟩
    let r : Registry := .ofScripts ⟨some set, some set, none, none⟩ .standard
    let broken : Artifact.Builders := .register .standard .hostname fun _ => .error (.unsupported "down")
    let r' : Registry := .ofScripts ⟨some set, some set, none, none⟩ broken
    let installed : RunResult := .ended true "" none
    let ends : List Ending := ⟨.standard, store.table, .crashed (.unsupported "gone")⟩ ::
      List.replicate 7 ⟨.standard, store.table, installed⟩
    let ends' : List Ending := List.replicate 8 ⟨broken, store.table ++ [Lease.blank .ibft], installed⟩
    let one := (start store r).follow ends
    let other := (start store r').follow ends'
    ∃ result result', one.1.pass.result? = some result ∧ other.1.pass.result? = some result' ∧
      result.outcome? .resolver = result'.outcome? .resolver ∧
      ScriptRun.ofKind .resolver one.2 = ScriptRun.ofKind .resolver other.2 ∧
      one.1.registry.updater .resolver = other.1.registry.updater .resolver := by
  intro lease store set r broken r' installed ends ends' one other
  have kept : ∀ e ∈ ends ++ ends', store.Keeps e.table ∧ e.builders.get? .resolver = r.builders.get? .resolver := by
    have held : ∀ id, store.Holds id → id = 0 := by
      rintro id ⟨d, member, held⟩
      obtain rfl := List.mem_singleton.mp member
      exact List.mem_singleton.mp held
    intro e member
    obtain rfl | rfl | rfl : e = ⟨.standard, store.table, .crashed (.unsupported "gone")⟩ ∨
        e = ⟨.standard, store.table, installed⟩ ∨ e = ⟨broken, store.table ++ [Lease.blank .ibft], installed⟩ := by
      simpa [ends, ends', or_assoc] using member
    · exact ⟨fun _ _ => rfl, rfl⟩
    · exact ⟨fun _ _ => rfl, rfl⟩
    · refine ⟨fun id holds => ?_, rfl⟩
      rw [held id holds]
      rfl
  have results : ScriptRun.resultsOf .resolver one.2 = [installed] := by decide +kernel
  have results' : ScriptRun.resultsOf .resolver other.2 = [installed] := by decide +kernel
  refine kinds_apart store .resolver r r' ends ends' (fun kind => by cases kind <;> rfl)
    (fun kind => by cases kind <;> rfl) ⟨rfl, rfl, rfl, rfl⟩ kept (by decide) (by decide)
    fun i run run' found found' _ => ?_
  have ran := List.mem_map_of_mem (f := ScriptRun.result) (List.mem_of_getElem? found)
  have ran' := List.mem_map_of_mem (f := ScriptRun.result) (List.mem_of_getElem? found')
  rw [← ScriptRun.resultsOf] at ran ran'
  rw [results, List.mem_singleton] at ran
  rw [results', List.mem_singleton] at ran'
  rw [ran, ran']

end Pass
end Leasehold
