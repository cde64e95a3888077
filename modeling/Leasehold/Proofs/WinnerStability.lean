import Leasehold.Proofs.RepeatedPasses
import Mathlib.Data.List.Nodup

/-! The winner stays. What was selected in a pass is selected again in the next one, as long as its lease qualifies
and none that qualifies is heavier: the known sources keep their order and new ones come after them, so whatever
leases come and go beside it, those before the winner stay lighter and those after it no heavier. A winner that is
installed is then left alone. -/

namespace Leasehold

/-- The leases of one number that qualify in two stores have one protocol and one family. -/
def Store.Agrees (s s' : Store) (kind : Kind) : Prop :=
  ∀ i ∈ s.qualifying kind, ∀ j ∈ s'.qualifying kind, (s.lease i).seqno = (s'.lease j).seqno →
    (s.lease i).mode = (s'.lease j).mode ∧ (s.lease i).family = (s'.lease j).family

/-- In two stores a number stands for one lease that qualifies, as far as protocol and family tell. -/
structure Store.Identifies (s s' : Store) (kind : Kind) : Prop where
  first : s.Agrees s kind
  across : s.Agrees s' kind
  second : s'.Agrees s' kind

theorem Store.Agrees.weight {s s' : Store} {kind : Kind} {i j : LeaseId} (agrees : s.Agrees s' kind)
    (first : i ∈ s.qualifying kind) (second : j ∈ s'.qualifying kind)
    (same : (s.lease i).seqno = (s'.lease j).seqno) : (s.lease i).weight = (s'.lease j).weight := by
  obtain ⟨mode, family⟩ := agrees i first j second same
  rw [Lease.weight, Lease.weight, mode, family]

namespace Updater

/-- The sources weigh what the leases of their numbers weigh that qualify. -/
def Fits (u : Updater) (store : Store) : Prop :=
  ∀ source ∈ u.sources, ∀ id ∈ store.qualifying u.kind, (store.lease id).seqno = source.seqno →
    source.weight = (store.lease id).weight

variable {u v : Updater} {store store' : Store} {winner : Source}

theorem Fits.of_sources (fits : u.Fits store) (kind : v.kind = u.kind) (sources : v.sources = u.sources) :
    v.Fits store := by
  intro source member id qualifies same
  rw [sources] at member
  rw [kind] at qualifies
  exact fits source member id qualifies same

theorem entries_numbers (u : Updater) : u.entries.map Prod.fst = u.sources.map Source.seqno := by
  simp [entries]

theorem addSource_apart (apart : u.KnownApart) (table : LeaseTable) (id : LeaseId) :
    (u.addSource table id).KnownApart := by
  rw [KnownApart, ← entries_numbers, addSource_entries]
  split
  next =>
    rw [entries_numbers]
    exact apart
  next unknown =>
    rw [knows_iff] at unknown
    rw [List.map_append, List.nodup_append]
    refine ⟨entries_numbers u ▸ apart, by simp, ?_⟩
    rintro n member m last rfl
    obtain rfl : n = (table.get id).seqno := by simpa using last
    exact unknown member

theorem addSources_apart (ids : List LeaseId) (apart : u.KnownApart) :
    (ids.foldl (fun u id => u.addSource store.table id) u).KnownApart := by
  induction ids generalizing u with
  | nil => exact apart
  | cons id rest ih => exact ih (addSource_apart apart store.table id)

/-- The sources that were known keep their places, and the others come after them. -/
theorem addSources_entries (store : Store) (ids : List LeaseId) (u : Updater) :
    ∃ added, (ids.foldl (fun u id => u.addSource store.table id) u).entries = u.entries ++ added ∧
      ∀ e ∈ added, ∃ id ∈ ids, e = ((store.lease id).seqno, (store.lease id).weight) := by
  induction ids generalizing u with
  | nil => exact ⟨[], (List.append_nil _).symm, by simp⟩
  | cons id rest ih =>
    obtain ⟨added, entries, each⟩ := ih (u.addSource store.table id)
    rw [addSource_entries] at entries
    have later : ∀ e ∈ added, ∃ other ∈ id :: rest, e = ((store.lease other).seqno, (store.lease other).weight) := by
      intro e member
      obtain ⟨other, listed, same⟩ := each e member
      exact ⟨other, List.mem_cons_of_mem id listed, same⟩
    split at entries
    next => exact ⟨added, entries, later⟩
    next =>
      refine ⟨((store.lease id).seqno, (store.lease id).weight) :: added, ?_, ?_⟩
      · rw [List.foldl_cons, entries, List.append_assoc]
        rfl
      · intro e member
        obtain rfl | member := List.mem_cons.mp member
        · exact ⟨id, List.mem_cons_self, rfl⟩
        · exact later e member

theorem collect_apart (apart : u.KnownApart) (store : Store) : (u.collect store).KnownApart := by
  refine addSources_apart _ ?_
  rw [KnownApart, ← entries_numbers, clearMarks_entries, entries_numbers]
  exact apart

theorem collect_entries (u : Updater) (store : Store) :
    ∃ added, (u.collect store).entries = u.entries ++ added ∧
      ∀ e ∈ added, ∃ id ∈ store.qualifying u.kind, e = ((store.lease id).seqno, (store.lease id).weight) := by
  rw [← u.clearMarks_entries]
  exact addSources_entries store _ u.clearMarks

theorem mem_entries {source : Source} (member : source ∈ u.sources) : (source.seqno, source.weight) ∈ u.entries :=
  List.mem_map_of_mem (f := fun source => (source.seqno, source.weight)) member

theorem collect_kind (u : Updater) (store : Store) : (u.collect store).kind = u.kind := by
  rw [collect_rest]

theorem collect_fits (fits : u.Fits store) (agrees : store.Agrees store u.kind) : (u.collect store).Fits store := by
  intro source member id qualifies same
  rw [collect_kind] at qualifies
  obtain ⟨added, entries, each⟩ := u.collect_entries store
  have listed := mem_entries member
  rw [entries] at listed
  obtain old | new := List.mem_append.mp listed
  · obtain ⟨known, member, here⟩ := List.mem_map.mp old
    obtain ⟨number, weight⟩ := Prod.mk.inj here
    rw [← weight]
    exact fits known member id qualifies (same.trans number.symm)
  · obtain ⟨other, listed, here⟩ := each _ new
    obtain ⟨number, weight⟩ := Prod.mk.inj here
    rw [weight]
    exact agrees.weight listed qualifies (number.symm.trans same.symm)

/-- A marked source has a lease that qualifies, and one that qualifies marks a source. -/
theorem collect_marks (u : Updater) (store : Store) (n : Int) :
    (u.collect store).Marks n ↔ ∃ id ∈ store.qualifying u.kind, (store.lease id).seqno = n := by
  rw [u.collect_reflects store n, collect_kind]
  simp only [Store.mem_qualifying]

/-- The sources that a pass keeps fit the leases of the next one. -/
theorem pruned_fits (fits : (u.collect store).Fits store) (agrees : store.Agrees store' u.kind) :
    (u.collect store).pruneSources.Fits store' := by
  intro source member id qualifies same
  have kind : (u.collect store).pruneSources.kind = u.kind := collect_kind u store
  rw [kind] at qualifies
  obtain ⟨member, seen⟩ := List.mem_filter.mp member
  obtain ⟨own, listed, number⟩ := (u.collect_marks store source.seqno).mp ⟨source, member, seen, rfl⟩
  rw [fits source member own (collect_kind u store ▸ listed) number]
  exact agrees.weight listed qualifies (number.trans same.symm)

theorem selectSource_pruneSources (u : Updater) : u.pruneSources.selectSource = u.selectSource := by
  simp [selectSource, pruneSources, List.filter_filter]

/-- A winner whose lease qualifies again is selected again, if no lease that qualifies weighs more. -/
theorem select_again (apart : v.KnownApart) (leads : Leads v.sources winner)
    (stays : ∃ id ∈ store.qualifying v.kind, (store.lease id).seqno = winner.seqno)
    (lighter : ∀ id ∈ store.qualifying v.kind, (store.lease id).weight ≤ winner.weight) :
    ∃ source, (v.collect store).selectSource = some source ∧ source.seqno = winner.seqno ∧
      source.weight = winner.weight := by
  obtain ⟨before, after, split, ahead, behind⟩ := leads
  obtain ⟨added, entries, each⟩ := v.collect_entries store
  -- The winner's place among the sources: those before it and those after it are the old ones, and then the new.
  simp only [Updater.entries, split, List.map_append, List.append_assoc] at entries
  obtain ⟨front, rest, here, earlier, later⟩ := List.map_eq_append_iff.mp entries
  obtain ⟨source, back, rfl, same, later⟩ := List.map_eq_cons_iff.mp later
  obtain ⟨number, weight⟩ := Prod.mk.inj same
  have seen : source.seen = true := by
    obtain ⟨marked, member, seen, number'⟩ := (v.collect_marks store winner.seqno).mpr stays
    have listed : source ∈ (v.collect store).sources := here ▸ by simp
    have one := List.inj_on_of_nodup_map (collect_apart apart store) member listed (number'.trans number.symm)
    rwa [one] at seen
  refine ⟨source, (selectSource_iff source).mpr ⟨front.filter Source.seen, back.filter Source.seen, ?_, ?_, ?_⟩,
    number, weight⟩
  · rw [here, List.filter_append, List.filter_cons_of_pos seen]
  · intro other member
    have listed := List.mem_map_of_mem (f := fun source : Source => (source.seqno, source.weight))
      (List.mem_filter.mp member).1
    rw [earlier] at listed
    obtain ⟨old, member, same⟩ := List.mem_map.mp listed
    rw [weight, ← (Prod.mk.inj same).2]
    exact ahead old member
  · intro other member
    have listed := List.mem_map_of_mem (f := fun source : Source => (source.seqno, source.weight))
      (List.mem_filter.mp member).1
    rw [later] at listed
    obtain old | new := List.mem_append.mp listed
    · obtain ⟨old, member, same⟩ := List.mem_map.mp old
      rw [weight, ← (Prod.mk.inj same).2]
      exact behind old member
    · obtain ⟨id, qualifies, same⟩ := each _ new
      rw [weight, (Prod.mk.inj same).2]
      exact lighter id qualifies

/-- Whatever is selected weighs at least as much as every lease that qualifies. -/
theorem le_selected (fits : (v.collect store).Fits store) {id : LeaseId} (qualifies : id ∈ store.qualifying v.kind)
    {source : Source} (selected : (v.collect store).selectSource = some source) :
    (store.lease id).weight ≤ source.weight := by
  obtain ⟨own, member, seen, number⟩ := (v.collect_marks store (store.lease id).seqno).mpr ⟨id, qualifies, rfl⟩
  rw [← fits own member id (v.collect_kind store ▸ qualifies) number.symm]
  exact (selectSource_some selected).2 own member seen

end Updater

namespace Pass

variable {base : Kind → Updater} {origins : List (Int × Scalar)} {runs : List ScriptRun} {dealt later : List Kind}
  {outcomes : List KindOutcome} {p : Pass} {r r' : Registry} {kind : Kind}

theorem Halfway.idle (half : Halfway base origins runs dealt later outcomes r) (member : kind ∈ dealt)
    (settled : (base kind).Settled) : ScriptRun.ofKind kind runs = [] := by
  cases enabled : (base kind).enabled with
  | false => exact (half.skipped kind member enabled).2
  | true =>
    obtain ⟨o, listed, rfl⟩ := half.outcome_of_enabled member enabled
    exact ((half.done o listed).idle settled).1

/-- However far a pass has come, it has run no script of a settled kind and waits for none. -/
theorem Accounts.idle (accounts : p.Accounts base runs r) (settled : (base kind).Settled) :
    ScriptRun.ofKind kind runs = [] ∧ ∀ call, p.call? = some call → call.kind ≠ kind := by
  unfold Accounts at accounts
  split at accounts
  next waiting =>
    refine ⟨accounts.idle kind.mem_all settled, ?_⟩
    intro call asked
    rw [call?, waiting] at asked
    cases asked
  next running rest waiting =>
    obtain ⟨dealt, whole, half, -, reached⟩ := accounts
    have other : running.call.kind ≠ kind := by
      rintro rfl
      cases (reached.idle settled).2.2
    constructor
    · have listed : kind ∈ dealt ++ running.call.kind :: rest := whole ▸ kind.mem_all
      obtain member | member := List.mem_append.mp listed
      · exact half.idle member settled
      · obtain same | member := List.mem_cons.mp member
        · exact absurd same.symm other
        · exact (half.ahead kind member).2
    · intro call asked
      rw [call?, waiting] at asked
      cases asked
      exact other

variable {store store' : Store} {winner : Source} {own : LeaseId}

theorem baseOf_installed (store : Store) (r : Registry) (kind : Kind) :
    (baseOf store r kind).installedSeqno = (r.updater kind).installedSeqno := by
  have same : (r.configure.1.updater kind).installedSeqno = (r.updater kind).installedSeqno := by
    rw [Registry.configure_updater]
    split
    next => rfl
    next => exact (Registry.configureKind_keeps r.builders (r.updater kind) (r.scripts.get kind)).2.2
  rw [baseOf, Updater.collect_rest]
  exact same

/-- The source that a pass has selected is selected again in the next pass, as long as its lease qualifies, if and only
if no lease that qualifies then weighs more; whatever other leases have come or gone, on whichever devices. If it is
installed, that pass neither runs nor asks for a script of the kind, and reports that there was nothing to do. -/
theorem winner_stays (store store' : Store) (r r' : Registry) (ends : List Ending) (result : PassResult) (kind : Kind)
    (winner : Source) (own : LeaseId)
    (label : ∀ kind, (r.updater kind).kind = kind) (label' : ∀ kind, (r'.updater kind).kind = kind)
    (apart : (r.updater kind).KnownApart) (fits : (r.updater kind).Fits store)
    (identified : store.Identifies store' kind)
    (finished : ((start store r).follow ends).1.pass.result? = some result)
    (selected : (baseOf store r kind).selectSource = some winner)
    (left : (r'.updater kind).sources = (((start store r).follow ends).1.registry.updater kind).sources)
    (stays : own ∈ store'.qualifying kind) (mine : (store'.lease own).seqno = winner.seqno) :
    ((∃ source, (baseOf store' r' kind).selectSource = some source ∧ source.seqno = winner.seqno) ↔
      ∀ id ∈ store'.qualifying kind, (store'.lease id).weight ≤ (store'.lease own).weight) ∧
    ((r'.updater kind).installedSeqno = winner.seqno →
      (∀ id ∈ store'.qualifying kind, (store'.lease id).weight ≤ (store'.lease own).weight) →
      ∀ ends' : List Ending, let next := (start store' r').follow ends'
        ScriptRun.ofKind kind next.2 = [] ∧ (∀ call, next.1.pass.call? = some call → call.kind ≠ kind) ∧
        ∀ result', next.1.pass.result? = some result' → (baseOf store' r' kind).enabled = true →
          next.1.registry.updater kind = baseOf store' r' kind ∧
          result'.outcome? kind = some (.untouched (baseOf store' r' kind))) := by
  obtain ⟨kept, known⟩ := r.configure_identity kind
  obtain ⟨kept', known'⟩ := r'.configure_identity kind
  have half := start_follow_halfway label ends finished
  have sources : (r'.configure.1.updater kind).sources = (baseOf store r kind).sources :=
    known'.trans (left.trans (half.kept kind).2)
  have here : (r.configure.1.updater kind).kind = kind := kept.trans (label kind)
  have here' : (r'.configure.1.updater kind).kind = kind := kept'.trans (label' kind)
  -- What the first pass leaves fits the leases of the second one, and so does what that one finds.
  have fitsBefore : (r'.configure.1.updater kind).Fits store' := by
    have collected := Updater.collect_fits (fits.of_sources kept known) (here.symm ▸ identified.first)
    refine (Updater.pruned_fits collected (here.symm ▸ identified.across)).of_sources ?_ sources
    exact here'.trans (baseOf_kind label kind).symm
  have fitsAfter := Updater.collect_fits fitsBefore (here'.symm ▸ identified.second)
  have apartBefore : (r'.configure.1.updater kind).KnownApart := by
    have apart : (r.configure.1.updater kind).KnownApart := by rwa [Updater.KnownApart, known]
    rw [Updater.KnownApart, sources]
    exact (Updater.collect_apart apart store).sublist (List.filter_sublist.map _)
  have leads : Updater.Leads (r'.configure.1.updater kind).sources winner := by
    have pruned : (baseOf store r kind).Pruned := Updater.pruneSources_pruned _
    have leads := (Updater.selectSource_iff winner).mp selected
    rwa [List.filter_eq_self.mpr pruned, ← sources] at leads
  have weight : winner.weight = (store'.lease own).weight :=
    fitsBefore winner leads.mem own (here'.symm ▸ stays) mine
  have choice : (baseOf store' r' kind).selectSource = ((r'.configure.1.updater kind).collect store').selectSource :=
    Updater.selectSource_pruneSources _
  have again (lighter : ∀ id ∈ store'.qualifying kind, (store'.lease id).weight ≤ (store'.lease own).weight) :
      ∃ source, (baseOf store' r' kind).selectSource = some source ∧ source.seqno = winner.seqno := by
    rw [choice]
    obtain ⟨source, selected, same, -⟩ := Updater.select_again apartBefore leads
      ⟨own, here'.symm ▸ stays, mine⟩ (by rwa [here', weight])
    exact ⟨source, selected, same⟩
  refine ⟨⟨?_, again⟩, ?_⟩
  · rintro ⟨source, selected, same⟩ id qualifies
    rw [choice] at selected
    have member := (Updater.selectSource_some selected).1.1
    have own_kind := Updater.collect_kind (r'.configure.1.updater kind) store'
    rw [← fitsAfter source member own (by rwa [own_kind, here']) (mine.trans same.symm)]
    exact Updater.le_selected fitsAfter (by rwa [here']) selected
  · intro installed lighter ends' next
    obtain ⟨source, selected, same⟩ := again lighter
    have settled : (baseOf store' r' kind).Settled := by
      constructor
      · intro other selected'
        obtain rfl : source = other := Option.some.inj (selected.symm.trans selected')
        rw [same, baseOf_installed, installed]
      · intro nothing
        rw [selected] at nothing
        cases nothing
    have idle := (follow_accounts ends' (start_accounts store' r' label')).idle settled
    refine ⟨idle.1, idle.2, ?_⟩
    intro result' finished' enabled
    exact (start_follow_idle label' settled enabled finished').2

/-- Of three leases that weigh the same the one of number 5 is installed. Then the one before it in the store is gone,
one on another device comes before it, and the known one behind it stays: it is installed still. -/
theorem installed_among_equals_stays :
    let lease (seqno : Int) : Lease := { Lease.blank .dhcp with seqno := seqno, hostname := some "a" }
    let table : LeaseTable := [lease 3, lease 5, lease 7, lease 9]
    let store : Store := ⟨table, [⟨.str "eth0", 1, [0, 1]⟩, ⟨.str "eth1", 2, [2]⟩], 9⟩
    let store' : Store := ⟨table, [⟨.str "eth0", 1, [3, 2]⟩, ⟨.str "eth1", 2, [1]⟩], 9⟩
    let old : Updater := { Updater.blank .hostname with sources := [⟨5, 51, none⟩] }
    let r : Registry := { Registry.ofScripts ⟨some ⟨some ["set"], none, none, none⟩, none, none, none⟩ .standard with
      updaters := (PerKind.ofFn Updater.blank).set .hostname old }
    let ends : List Ending := [⟨.standard, table, .ended true "" none⟩]
    let first := ((start store r).follow ends).1
    (first.registry.updater .hostname).installedSeqno = 5 ∧
      (∃ source, (baseOf store' first.registry .hostname).selectSource = some source ∧ source.seqno = 5) ∧
      ScriptRun.ofKind .hostname ((start store' first.registry).follow ends).2 = [] := by
  intro lease table store store' old r ends first
  have label (kind : Kind) : (r.updater kind).kind = kind := by cases kind <;> rfl
  have finished : first.pass.result? = some ⟨[⟨.hostname, .install, true, 5, [.install], none⟩]⟩ := by
    decide +kernel
  have installed : (first.registry.updater .hostname).installedSeqno = 5 := by decide +kernel
  have lighter : ∀ id ∈ store'.qualifying .hostname, (store'.lease id).weight ≤ (store'.lease 1).weight := by decide
  have fits : (r.updater .hostname).Fits store := by
    unfold Updater.Fits
    decide
  have identified : store.Identifies store' .hostname := by
    constructor
    all_goals
      unfold Store.Agrees
      decide
  obtain ⟨again, idle⟩ := winner_stays store store' r first.registry ends _ .hostname ⟨5, 51, some 1⟩ 1 label
    (fun kind => ((start_follow_halfway label ends finished).kept kind).1) (by decide) fits identified finished
    (by decide) rfl (by decide) rfl
  exact ⟨installed, again.mpr lighter, (idle installed lighter ends).1⟩

end Pass
end Leasehold
