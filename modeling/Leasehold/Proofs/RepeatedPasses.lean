import Leasehold.Proofs.EngineRuns
import Leasehold.Proofs.SourceCensus

/-! A pass over leases that have not changed. Taking stock again leaves the sources as they are, with their
places and weights, whatever they were before the first time. A kind whose turn was a success is settled:
another turn runs no script for it and changes nothing. -/

namespace Leasehold

def Store.lastOf? (s : Store) (ids : List LeaseId) (n : Int) : Option LeaseId :=
  (ids.filter fun id => (s.lease id).seqno = n).getLast?

theorem Store.lastOf?_append (s : Store) (ids : List LeaseId) (id : LeaseId) (n : Int) :
    s.lastOf? (ids ++ [id]) n = if (s.lease id).seqno = n then some id else s.lastOf? ids n := by
  unfold lastOf?
  by_cases same : (s.lease id).seqno = n <;> simp [same]

namespace Updater

def MarksFirst (sources : List Source) : Prop :=
  sources.Pairwise fun s t => s.seqno = t.seqno → t.seen = false

variable {u v : Updater} {store : Store} {ids : List LeaseId} {sources : List Source} {n : Int} {id : LeaseId}

theorem mem_markFirst (first : MarksFirst sources) (known : sources.any (fun s => s.seqno = n) = true)
    {t : Source} (member : t ∈ markFirst n id sources) (seen : t.seen = true) :
    t.seqno = n ∧ t.lease = some id ∨ t.seqno ≠ n ∧ t ∈ sources := by
  induction sources with
  | nil => cases member
  | cons s rest ih =>
    obtain ⟨alone, first⟩ := List.pairwise_cons.mp first
    unfold markFirst at member
    split at member
    next here =>
      obtain rfl | later := List.mem_cons.mp member
      · exact Or.inl ⟨here, rfl⟩
      · refine Or.inr ⟨fun same => ?_, List.mem_cons_of_mem s later⟩
        rw [alone t later (here.trans same.symm)] at seen
        cases seen
    next elsewhere =>
      obtain rfl | later := List.mem_cons.mp member
      · exact Or.inr ⟨elsewhere, List.mem_cons_self⟩
      · have known : rest.any (fun s => s.seqno = n) = true := by simpa [elsewhere] using known
        exact (ih first known later).imp_right fun old => ⟨old.1, List.mem_cons_of_mem s old.2⟩

theorem markFirst_first (first : MarksFirst sources) (known : sources.any (fun s => s.seqno = n) = true) :
    MarksFirst (markFirst n id sources) := by
  induction sources with
  | nil => exact first
  | cons s rest ih =>
    obtain ⟨alone, later⟩ := List.pairwise_cons.mp first
    unfold markFirst
    split
    next here => exact List.pairwise_cons.mpr ⟨alone, later⟩
    next elsewhere =>
      have known : rest.any (fun s => s.seqno = n) = true := by simpa [elsewhere] using known
      refine List.pairwise_cons.mpr ⟨fun t member same => ?_, ih later known⟩
      refine Bool.eq_false_iff.mpr fun seen => ?_
      obtain ⟨here, -⟩ | ⟨-, old⟩ := mem_markFirst later known member seen
      · exact elsewhere (same.trans here)
      · rw [alone t old same] at seen
        cases seen

/-- The marks after some leases have been found: each is on the first source of its number, and stands for the
last lease of that number. -/
structure Marked (u : Updater) (store : Store) (ids : List LeaseId) : Prop where
  first : MarksFirst u.sources
  latest : ∀ s ∈ u.sources, s.seen = true → s.lease = store.lastOf? ids s.seqno

theorem clearMarks_marked (u : Updater) (store : Store) : u.clearMarks.Marked store [] := by
  have unseen (s : Source) (member : s ∈ u.clearMarks.sources) : s.seen = false := by
    obtain ⟨old, -, rfl⟩ := List.mem_map.mp member
    rfl
  refine ⟨List.pairwise_of_forall_mem_list fun s _ t member _ => unseen t member, fun s member seen => ?_⟩
  rw [unseen s member] at seen
  cases seen

theorem Marked.addSource (marked : u.Marked store ids) (id : LeaseId) :
    (u.addSource store.table id).Marked store (ids ++ [id]) := by
  have content : store.table.get id = store.lease id := rfl
  unfold Updater.addSource
  simp only [content]
  split
  next known =>
    refine ⟨markFirst_first marked.first known, fun s member seen => ?_⟩
    rw [Store.lastOf?_append]
    obtain ⟨here, lease⟩ | ⟨elsewhere, old⟩ := mem_markFirst marked.first known member seen
    · rw [if_pos here.symm, lease]
    · rw [if_neg (Ne.symm elsewhere), marked.latest s old seen]
  next unknown =>
    have new (s : Source) (member : s ∈ u.sources) : s.seqno ≠ (store.lease id).seqno := by
      intro same
      exact knows_eq_false.mp (Bool.not_eq_true _ ▸ unknown) (same ▸ List.mem_map_of_mem member)
    constructor
    · refine List.pairwise_append.mpr ⟨marked.first, List.pairwise_singleton _ _, fun s member t last same => ?_⟩
      rw [List.mem_singleton.mp last] at same
      exact absurd same (new s member)
    · intro s member seen
      rw [Store.lastOf?_append]
      obtain old | rfl := List.mem_append.mp member |>.imp_right List.mem_singleton.mp
      · rw [if_neg (Ne.symm (new s old)), marked.latest s old seen]
      · rw [if_pos rfl]

theorem collect_marked (u : Updater) (store : Store) : (u.collect store).Marked store (store.qualifying u.kind) := by
  suffices fold : ∀ ids : List LeaseId,
      (ids.foldl (fun u id => u.addSource store.table id) u.clearMarks).Marked store ids from
    fold (store.qualifying u.kind)
  intro ids
  induction ids using List.reverseRecOn with
  | nil => exact u.clearMarks_marked store
  | append_singleton ids id ih =>
    rw [List.foldl_append]
    exact ih.addSource id

theorem Marked.apart (marked : u.Marked store ids) (pruned : u.Pruned) : u.KnownApart := by
  refine List.pairwise_map.mpr (marked.first.imp_of_mem fun _ member different same => ?_)
  have seen := pruned _ member
  rw [different same] at seen
  cases seen

/-- Finding leases that are all known marks their sources and changes nothing else. -/
theorem addSources_known (known : u.KnownApart) (all : ∀ id ∈ ids, u.knows (store.lease id).seqno = true) :
    (ids.foldl (fun u id => u.addSource store.table id) u.clearMarks).sources =
      u.sources.map fun s => { s with lease := store.lastOf? ids s.seqno } := by
  induction ids using List.reverseRecOn with
  | nil => rfl
  | append_singleton ids id ih =>
    have sources := ih fun other member => all other (List.mem_append_left _ member)
    have numbers : (ids.foldl (fun u id => u.addSource store.table id) u.clearMarks).sources.map Source.seqno =
        u.sources.map Source.seqno := by
      rw [sources, List.map_map]
      rfl
    have content : store.table.get id = store.lease id := rfl
    rw [List.foldl_append, List.foldl_cons, List.foldl_nil]
    generalize ids.foldl (fun u id => u.addSource store.table id) u.clearMarks = w at sources numbers ⊢
    have here : w.knows (store.lease id).seqno = true := by
      refine Bool.not_eq_false _ ▸ fun unknown => ?_
      have absent := knows_eq_false.mp unknown
      rw [numbers, ← knows_eq_false, all id (by simp)] at absent
      cases absent
    unfold addSource
    simp only [content, if_pos here]
    rw [markFirst_eq_map id (numbers ▸ known), sources, List.map_map]
    refine List.map_congr_left fun s _ => ?_
    rw [Function.comp_apply, Store.lastOf?_append]
    by_cases mine : s.seqno = (store.lease id).seqno
    · rw [if_pos mine, if_pos mine.symm]
    · rw [if_neg mine, if_neg (Ne.symm mine)]

/-- Taking stock of the same leases again changes nothing. -/
theorem recount (kind : v.kind = u.kind) (sources : v.sources = (u.collect store).pruneSources.sources) :
    (v.collect store).pruneSources = v := by
  have marked := u.collect_marked store
  have pruned : v.Pruned := fun s member => (u.collect store).pruneSources_pruned s (sources ▸ member)
  have kept (s : Source) (member : s ∈ v.sources) : s ∈ (u.collect store).sources := by
    rw [sources] at member
    exact (List.mem_filter.mp member).1
  have latest (s : Source) (member : s ∈ v.sources) : s.lease = store.lastOf? (store.qualifying u.kind) s.seqno :=
    marked.latest s (kept s member) (pruned s member)
  have first : MarksFirst v.sources := sources ▸ marked.first.sublist List.filter_sublist
  have apart : v.KnownApart := Marked.apart ⟨first, fun s member _ => latest s member⟩ pruned
  have known (id : LeaseId) (member : id ∈ store.qualifying u.kind) : v.knows (store.lease id).seqno = true := by
    have marks : (u.collect store).pruneSources.Marks (store.lease id).seqno := by
      rw [pruneSources_marks, collect, addSources_marks]
      exact Or.inr ⟨id, member, rfl⟩
    obtain ⟨s, present, -, same⟩ := marks
    refine Bool.not_eq_false _ ▸ fun unknown => knows_eq_false.mp unknown ?_
    rw [sources]
    exact List.mem_map.mpr ⟨s, present, same⟩
  have again : (v.collect store).sources = v.sources := by
    have marks : (v.collect store).sources =
        v.sources.map fun s => { s with lease := store.lastOf? (store.qualifying u.kind) s.seqno } := by
      rw [← kind] at known ⊢
      exact addSources_known apart known
    refine marks.trans ((List.map_congr_left fun s member => ?_).trans (List.map_id v.sources))
    rw [← latest s member, id]
  rw [pruneSources, collect_rest]
  simp only [again]
  rw [List.filter_eq_self.mpr pruned]

/-- Another turn has nothing to do: what is selected is installed, or nothing is selected and there is nothing to
bring back. -/
structure Settled (u : Updater) : Prop where
  standing : ∀ source, u.selectSource = some source → source.seqno = u.installedSeqno
  bare : u.selectSource = none → u.haveBackup = true → u.command? .restore = none

end Updater

namespace Pass

variable {origins : List (Int × Scalar)} {base u u' : Updater} {runs : List ScriptRun} {o : KindOutcome} {next : Next}

theorem Planned.idle {builders : Artifact.Builders} {table : LeaseTable}
    (planned : Planned builders table u next u') (settled : u.Settled) : next = .done (.untouched u) ∧ u' = u := by
  cases planned with
  | standing | bare => exact ⟨rfl, rfl⟩
  | restoring argv selected backed command =>
    rw [settled.bare selected backed] at command
    cases command
  | saving source artifact argv selected differs | installing source artifact selected differs
  | unbuilt source fault selected differs =>
    exact absurd (settled.standing source selected) differs

theorem Reached.idle (reached : Reached origins base runs u next) (settled : base.Settled) :
    runs = [] ∧ u = base ∧ next = .done (.untouched base) := by
  induction reached with
  | planned planned =>
    obtain ⟨nothing, same⟩ := planned.idle settled
    exact ⟨rfl, same, nothing⟩
  | concluded before concluded ih => cases ih.2.2

/-- A turn that was a success leaves its kind settled and in service. -/
theorem Reached.settled (reached : Reached origins base runs u (.done o)) (success : o.success = true) :
    u.Settled ∧ u.enabled = base.enabled := by
  cases reached with
  | planned planned =>
    cases planned with
    | standing source selected same =>
      refine ⟨⟨fun other selected' => ?_, fun none_selected => ?_⟩, rfl⟩
      · exact Option.some.inj (selected.symm.trans selected') ▸ same
      · rw [selected] at none_selected
        cases none_selected
    | bare selected nothing =>
      refine ⟨⟨fun source selected' => ?_, fun _ => nothing⟩, rfl⟩
      rw [selected] at selected'
      cases selected'
    | unbuilt => cases success
  | concluded before concluded =>
    have heading := before.heading _ rfl
    cases concluded with
    | crashed | unwritten | failed => cases success
    | restored output error work written =>
      cases heading with
      | saving | installing | saved => cases work
      | restoring argv selected backed command =>
        exact ⟨⟨fun source selected' => absurd (selected.symm.trans selected') (by simp), fun _ => nofun⟩, rfl⟩
    | installed output error source artifact work written =>
      cases heading with
      | restoring | saving => cases work
      | installing source artifact selected | saved run source artifact selected =>
        cases work
        refine ⟨⟨fun other selected' => ?_, fun none_selected => ?_⟩, rfl⟩
        · exact congrArg Source.seqno (Option.some.inj (selected'.symm.trans selected))
        · exact absurd (selected.symm.trans none_selected) (by simp)

theorem resume_settings (p : Pass) (table : LeaseTable) (r : Registry) (result : RunResult) :
    (p.resume table r result).registry.configured = r.configured := by
  match waiting : p.waiting with
  | none => simp [resume, waiting]
  | some (running, rest) => exact (resume_resumed waiting table r result).settings.1

theorem follow_settings (s : Stretch) (ends : List Ending) :
    (s.follow ends).1.registry.configured = s.registry.configured := by
  induction ends generalizing s with
  | nil => rfl
  | cons e rest ih =>
    simp only [Stretch.follow]
    rw [ih, resume_settings]

variable {store : Store} {r : Registry} {ends : List Ending} {result : PassResult}

theorem start_follow_halfway (label : ∀ kind, (r.updater kind).kind = kind) (ends : List Ending)
    (finished : ((start store r).follow ends).1.pass.result? = some result) :
    Halfway (baseOf store r) ((start store r).follow ends).1.pass.origins ((start store r).follow ends).2 Kind.all []
      result.outcomes ((start store r).follow ends).1.registry :=
  (follow_accounts ends (start_accounts store r label)).finished finished

/-- A pass over settled kinds reports that there was nothing to do for those in service, and has changed none. -/
theorem Halfway.rested {base : Kind → Updater} {outcomes : List KindOutcome}
    (half : Halfway base origins runs Kind.all [] outcomes r)
    (settled : ∀ kind, (base kind).enabled = true → (base kind).Settled) :
    outcomes = (Kind.all.filter fun kind => (base kind).enabled).map (fun kind => .untouched (base kind)) ∧
      ∀ kind, r.updater kind = base kind := by
  have idle (o : KindOutcome) (member : o ∈ outcomes) :
      r.updater o.kind = base o.kind ∧ o = .untouched (base o.kind) := by
    obtain ⟨-, same, nothing⟩ := (half.done o member).idle (settled o.kind (half.enabled_of_outcome member))
    exact ⟨same, Next.done.inj nothing⟩
  constructor
  · rw [← half.order, List.map_map]
    refine ((List.map_congr_left fun o member => ?_).trans (List.map_id outcomes)).symm
    exact (idle o member).2.symm
  · intro kind
    cases enabled : (base kind).enabled with
    | false => exact (half.skipped kind kind.mem_all enabled).1
    | true =>
      obtain ⟨o, member, rfl⟩ := half.outcome_of_enabled kind.mem_all enabled
      exact (idle o member).1

/-- A kind begins its next turn in the state in which the pass has left it, if the leases are the same. -/
theorem baseOf_follow (label : ∀ kind, (r.updater kind).kind = kind)
    (finished : ((start store r).follow ends).1.pass.result? = some result) :
    baseOf store ((start store r).follow ends).1.registry = ((start store r).follow ends).1.registry.updater := by
  funext kind
  have configured : ((start store r).follow ends).1.registry.configured = true :=
    (follow_settings _ ends).trans (start_settings store r).1
  obtain ⟨same, sources⟩ := (start_follow_halfway label ends finished).kept kind
  generalize ((start store r).follow ends).1.registry = first at configured same sources ⊢
  have again : first.configure.1.updater kind = first.updater kind := by
    rw [Registry.configure_updater, if_pos configured]
  rw [baseOf, again]
  exact Updater.recount (same.trans ((r.configure_identity kind).1.trans (label kind)).symm) sources

/-- The kinds whose outcome was a success are settled, and in service still. -/
theorem start_follow_settled (label : ∀ kind, (r.updater kind).kind = kind)
    (finished : ((start store r).follow ends).1.pass.result? = some result) {o : KindOutcome}
    (member : o ∈ result.outcomes) (success : o.success = true) :
    (((start store r).follow ends).1.registry.updater o.kind).Settled ∧
      (((start store r).follow ends).1.registry.updater o.kind).enabled = true := by
  have half := start_follow_halfway label ends finished
  obtain ⟨settled, enabled⟩ := (half.done o member).settled success
  exact ⟨settled, enabled.trans (half.enabled_of_outcome member)⟩

/-- A pass over settled kinds that have taken stock is over at once, and has changed no kind. -/
theorem start_rested (label : ∀ kind, (r.updater kind).kind = kind) (stocked : baseOf store r = r.updater)
    (settled : ∀ kind, (r.updater kind).enabled = true → (r.updater kind).Settled) :
    (start store r).pass.result? = some ⟨r.enabled.map fun kind => .untouched (r.updater kind)⟩ ∧
      ∀ kind, (start store r).registry.updater kind = r.updater kind := by
  have accounts := start_accounts store r label
  rw [stocked] at accounts
  unfold Accounts at accounts
  split at accounts
  next waiting =>
    obtain ⟨outcomes, same⟩ := accounts.rested settled
    exact ⟨by rw [result?, waiting, outcomes]; rfl, same⟩
  next running rest waiting =>
    -- No script can be running: the kind whose script it was would have something to do.
    obtain ⟨dealt, -, -, enabled, reached⟩ := accounts
    cases (reached.idle (settled _ enabled)).2.2

/-- A pass leaves alone each kind in service that is settled when it has taken stock. -/
theorem start_follow_idle (label : ∀ kind, (r.updater kind).kind = kind) {kind : Kind}
    (settled : (baseOf store r kind).Settled) (enabled : (baseOf store r kind).enabled = true)
    (finished : ((start store r).follow ends).1.pass.result? = some result) :
    ScriptRun.ofKind kind ((start store r).follow ends).2 = [] ∧
      ((start store r).follow ends).1.registry.updater kind = baseOf store r kind ∧
      result.outcome? kind = some (.untouched (baseOf store r kind)) := by
  have half := start_follow_halfway label ends finished
  obtain ⟨o, found⟩ : ∃ o, result.outcome? kind = some o := by
    obtain ⟨o, member, same⟩ := half.outcome_of_enabled kind.mem_all enabled
    exact Option.isSome_iff_exists.mp (List.find?_isSome.mpr ⟨o, member, by simpa using same⟩)
  have same : o.kind = kind := by simpa using List.find?_some found
  have reached := half.done o (List.mem_of_find?_eq_some found)
  rw [same] at reached
  obtain ⟨silent, kept, idle⟩ := reached.idle settled
  cases idle
  exact ⟨silent, kept, found⟩

/-- Whatever the kinds were and whatever became of the scripts of a pass, a pass over the same leases after it leaves
each kind alone whose outcome was a success: it runs no script for it, reports that there was nothing to do, and
changes nothing. If every outcome was a success, it is over at once and has changed no kind. -/
theorem repeated_pass_idle (store : Store) (r : Registry) (ends : List Ending)
    (label : ∀ kind, (r.updater kind).kind = kind) (result : PassResult)
    (finished : ((start store r).follow ends).1.pass.result? = some result) :
    let first := ((start store r).follow ends).1.registry
    (result.success = true →
      (start store first).pass.result? =
        some ⟨first.enabled.map fun kind => .untouched (first.updater kind)⟩ ∧
      ∀ kind, (start store first).registry.updater kind = first.updater kind) ∧
    ∀ again : List Ending,
      let second := (start store first).follow again
      (2 * Kind.all.length ≤ again.length → second.1.pass.result?.isSome) ∧
      ∀ result', second.1.pass.result? = some result' → ∀ o ∈ result.outcomes, o.success = true →
        ScriptRun.ofKind o.kind second.2 = [] ∧
        second.1.registry.updater o.kind = first.updater o.kind ∧
        result'.outcome? o.kind = some (.untouched (first.updater o.kind)) := by
  intro first
  have half := start_follow_halfway label ends finished
  have stocked : baseOf store first = first.updater := baseOf_follow label finished
  have label' (kind : Kind) : (first.updater kind).kind = kind := (half.kept kind).1
  constructor
  · intro success
    refine start_rested label' stocked fun kind enabled => ?_
    cases before : (baseOf store r kind).enabled with
    | false =>
      have same : first.updater kind = baseOf store r kind := (half.skipped kind kind.mem_all before).1
      rw [same, before] at enabled
      cases enabled
    | true =>
      obtain ⟨o, member, rfl⟩ := half.outcome_of_enabled kind.mem_all before
      exact (start_follow_settled label finished member (List.all_eq_true.mp success o member)).1
  · intro again second
    refine ⟨fun enough => follow_over (Nat.le_trans (start_remaining store first) enough), ?_⟩
    intro result' finished' o member success
    obtain ⟨settled, enabled⟩ := start_follow_settled label finished member success
    rw [← stocked] at settled enabled ⊢
    exact start_follow_idle label' settled enabled finished'

/-- Of two leases that weigh the same the known one is installed as host name, while the resolver's script fails; the
next pass tries that one again and leaves the host name alone. -/
theorem failed_kind_retried_alone :
    let lease (seqno : Int) : Lease :=
      { Lease.blank .dhcp with seqno := seqno, hostname := some "a", resolver := some ⟨some "b", [], []⟩ }
    let store : Store := ⟨[lease 3, lease 7], [⟨.str "eth0", 1, [1]⟩, ⟨.str "eth1", 2, [0]⟩], 7⟩
    let old : Updater := { Updater.blank .hostname with
      sources := [⟨5, 51, none⟩, ⟨3, 51, none⟩], installedSeqno := 5 }
    let set : Scripts := ⟨some ["set"], none, none, none⟩
    let r : Registry := { Registry.ofScripts ⟨some set, some set, none, none⟩ .standard with
      updaters := (PerKind.ofFn Updater.blank).set .hostname old }
    let ending (success : Bool) : Ending := ⟨.standard, store.table, .ended success "" none⟩
    ((start store ((start store r).follow [ending true, ending false]).1.registry).follow [ending true]).1.pass.result? =
      some ⟨[⟨.hostname, .none, true, 3, [], none⟩, ⟨.resolver, .install, true, 7, [.install], none⟩]⟩ ∧
    ScriptRun.ofKind .hostname
      ((start store ((start store r).follow [ending true, ending false]).1.registry).follow [ending true]).2 = [] := by
  intro lease store old set r ending
  have failed : ((start store r).follow [ending true, ending false]).1.pass.result? =
      some ⟨[⟨.hostname, .install, true, 3, [.install], none⟩, ⟨.resolver, .install, false, 0, [.install],
        some "failed to install new resolver settings: None"⟩]⟩ := by
    decide +kernel
  have retried : ((start store ((start store r).follow [ending true, ending false]).1.registry).follow
      [ending true]).1.pass.result? =
        some ⟨[⟨.hostname, .none, true, 3, [], none⟩, ⟨.resolver, .install, true, 7, [.install], none⟩]⟩ := by
    decide +kernel
  have idle := (repeated_pass_idle store r _ (fun kind => by cases kind <;> rfl) _ failed).2 [ending true]
  exact ⟨retried, (idle.2 _ retried _ List.mem_cons_self rfl).1⟩

end Pass
end Leasehold
