import Leasehold.Proofs.SourceCollection
import Mathlib.Data.List.Induction

/-! The sources that taking stock leaves. The known ones whose leases still qualify keep their places and
weights, the leases that were not known follow in the order in which they are held, and all others are gone.
Of them the first among the heaviest is selected. -/

namespace Leasehold

namespace Store

/-- The leases that may and can drive a kind, in the order in which they are held. -/
def qualifying (s : Store) (kind : Kind) : List LeaseId :=
  (s.held.map (·.2)).filter fun id => (s.lease id).canUpdate kind

def numbers (s : Store) (ids : List LeaseId) : List Int :=
  ids.map fun id => (s.lease id).seqno

def asSource (s : Store) (id : LeaseId) : Source :=
  ⟨(s.lease id).seqno, (s.lease id).weight, some id⟩

def leaseOf? (s : Store) (ids : List LeaseId) (source : Source) : Option LeaseId :=
  ids.find? fun id => (s.lease id).seqno = source.seqno

variable {s : Store} {ids : List LeaseId} {source : Source}

theorem mem_qualifying {kind : Kind} {id : LeaseId} : id ∈ s.qualifying kind ↔ s.Drives kind id := by
  rw [qualifying, List.mem_filter, mem_held, Drives]

theorem leaseOf?_eq_none (absent : source.seqno ∉ s.numbers ids) : s.leaseOf? ids source = none := by
  refine List.find?_eq_none.mpr fun id member same => absent ?_
  exact List.mem_map.mpr ⟨id, member, by simpa using same⟩

theorem leaseOf?_append (s : Store) (ids : List LeaseId) (id : LeaseId) (source : Source) :
    s.leaseOf? (ids ++ [id]) source =
      (s.leaseOf? ids source).or (if (s.lease id).seqno = source.seqno then some id else none) := by
  simp only [leaseOf?, List.find?_append, List.find?_singleton, decide_eq_true_eq]

end Store

namespace Updater

def newcomers (u : Updater) (store : Store) (ids : List LeaseId) : List LeaseId :=
  ids.filter fun id => !u.knows (store.lease id).seqno

/-- The sources that are left when a kind has taken stock of the leases. -/
def census (u : Updater) (store : Store) : List Source :=
  let ids := store.qualifying u.kind
  (u.sources.filterMap fun source =>
    (store.leaseOf? ids source).map fun id => { source with lease := some id }) ++
  (u.newcomers store ids).map store.asSource

def KnownApart (u : Updater) : Prop := (u.sources.map Source.seqno).Nodup

instance (u : Updater) : Decidable u.KnownApart :=
  inferInstanceAs (Decidable (u.sources.map Source.seqno).Nodup)

private theorem map_elsewhere {n : Int} {sources : List Source} (change : Source → Source)
    (absent : n ∉ sources.map Source.seqno) :
    sources.map (fun s => if s.seqno = n then change s else s) = sources := by
  have same (s : Source) (member : s ∈ sources) : (if s.seqno = n then change s else s) = s :=
    if_neg fun here : s.seqno = n => absent (here ▸ List.mem_map_of_mem member)
  simpa using List.map_congr_left same

theorem markFirst_eq_map {n : Int} {sources : List Source} (id : LeaseId)
    (apart : (sources.map Source.seqno).Nodup) :
    markFirst n id sources = sources.map fun s => if s.seqno = n then { s with lease := some id } else s := by
  induction sources with
  | nil => rfl
  | cons first rest ih =>
    obtain ⟨absent, apart⟩ := List.nodup_cons.mp apart
    unfold markFirst
    split
    next here => rw [List.map_cons, if_pos here, map_elsewhere _ (here ▸ absent)]
    next elsewhere => rw [List.map_cons, if_neg elsewhere, ih apart]

variable {u : Updater} {store : Store} {ids : List LeaseId}

theorem knows_eq_false {n : Int} : u.knows n = false ↔ n ∉ u.sources.map Source.seqno := by
  simp [knows]

/-- The sources while leases are being found: the known ones with the leases found for them, then those that
are new. -/
private def tally (u : Updater) (store : Store) (ids : List LeaseId) : List Source :=
  (u.sources.map fun source => { source with lease := store.leaseOf? ids source }) ++
    (u.newcomers store ids).map store.asSource

private theorem newcomers_append (u : Updater) (store : Store) (ids : List LeaseId) (id : LeaseId) :
    u.newcomers store (ids ++ [id]) =
      u.newcomers store ids ++ if u.knows (store.lease id).seqno then [] else [id] := by
  simp only [newcomers, List.filter_append, List.filter_cons, List.filter_nil]
  cases u.knows (store.lease id).seqno <;> rfl

private theorem tally_numbers (u : Updater) (store : Store) (ids : List LeaseId) :
    (u.tally store ids).map Source.seqno =
      u.sources.map Source.seqno ++ store.numbers (u.newcomers store ids) := by
  simp [tally, Store.numbers, Store.asSource, Function.comp_def]

private theorem tally_apart (known : u.KnownApart) (apart : (store.numbers ids).Nodup) :
    ((u.tally store ids).map Source.seqno).Nodup := by
  rw [tally_numbers, List.nodup_append]
  refine ⟨known, apart.sublist (List.filter_sublist.map _), ?_⟩
  rintro n old m new rfl
  obtain ⟨id, member, rfl⟩ := List.mem_map.mp new
  have unknown := (List.mem_filter.mp member).2
  exact knows_eq_false.mp (by simpa using unknown) old

private theorem addSource_tally {id : LeaseId} (known : u.KnownApart) (apart : (store.numbers (ids ++ [id])).Nodup)
    {w : Updater} (sources : w.sources = u.tally store ids) :
    (w.addSource store.table id).sources = u.tally store (ids ++ [id]) := by
  have numbers : store.numbers (ids ++ [id]) = store.numbers ids ++ [(store.lease id).seqno] :=
    List.map_append
  rw [numbers, List.nodup_append] at apart
  obtain ⟨apart, -, before⟩ := apart
  have absent : (store.lease id).seqno ∉ store.numbers ids :=
    fun member => before _ member _ List.mem_cons_self rfl
  have unknown : (store.lease id).seqno ∉ store.numbers (u.newcomers store ids) :=
    fun member => absent ((List.filter_sublist.map _).mem member)
  have same : w.knows (store.lease id).seqno = u.knows (store.lease id).seqno := by
    have listed : (store.lease id).seqno ∈ w.sources.map Source.seqno ↔
        (store.lease id).seqno ∈ u.sources.map Source.seqno := by
      rw [sources, tally_numbers, List.mem_append]
      exact or_iff_left unknown
    rw [Bool.eq_iff_iff, knows_iff, knows_iff, entries, entries]
    simpa [Function.comp_def] using listed
  have content : store.table.get id = store.lease id := rfl
  unfold addSource
  simp only [content, same]
  split
  next here =>
    -- A known source: it is marked in its place, and none is new.
    have others : ((u.newcomers store ids).map store.asSource).map
        (fun s => if s.seqno = (store.lease id).seqno then { s with lease := some id } else s) =
        (u.newcomers store ids).map store.asSource :=
      map_elsewhere _ (by rw [List.map_map]; exact unknown)
    rw [markFirst_eq_map id (sources ▸ tally_apart known apart), sources, tally, List.map_append, others, tally,
      newcomers_append, if_pos here, List.append_nil, List.map_map]
    refine congrArg (· ++ _) (List.map_congr_left fun source _ => ?_)
    rw [Function.comp_apply, Store.leaseOf?_append]
    by_cases mine : source.seqno = (store.lease id).seqno
    · rw [if_pos mine, if_pos mine.symm, Store.leaseOf?_eq_none (mine ▸ absent)]
      rfl
    · rw [if_neg mine, if_neg (Ne.symm mine), Option.or_none]
  next new =>
    rw [sources, tally, tally, newcomers_append, if_neg new, List.map_append, List.append_assoc]
    refine congrArg (· ++ _) (List.map_congr_left fun source member => ?_)
    have mine : (store.lease id).seqno ≠ source.seqno := by
      intro same
      exact knows_eq_false.mp (Bool.not_eq_true _ ▸ new) (same ▸ List.mem_map_of_mem member)
    rw [Store.leaseOf?_append, if_neg mine, Option.or_none]

private theorem addSources_tally (known : u.KnownApart) (apart : (store.numbers ids).Nodup) :
    (ids.foldl (fun u id => u.addSource store.table id) u.clearMarks).sources = u.tally store ids := by
  induction ids using List.reverseRecOn with
  | nil => simp [tally, newcomers, clearMarks, Store.leaseOf?]
  | append_singleton ids id ih =>
    rw [List.foldl_append]
    refine addSource_tally known apart (ih (apart.sublist ?_))
    exact (List.sublist_append_left ids [id]).map _

private theorem filter_seen_marked (sources : List Source) (lease : Source → Option LeaseId) :
    (sources.map fun s => { s with lease := lease s }).filter Source.seen =
      sources.filterMap fun s => (lease s).map fun id => { s with lease := some id } := by
  induction sources with
  | nil => rfl
  | cons first rest ih =>
    rw [List.map_cons]
    cases found : lease first with
    | none => rw [List.filter_cons_of_neg (by simp [Source.seen]), ih, List.filterMap_cons_none (by simp [found])]
    | some id => rw [List.filter_cons_of_pos rfl, ih, List.filterMap_cons_some (by simp [found]; rfl)]

private theorem collect_tally (known : u.KnownApart) (apart : (store.numbers (store.held.map (·.2))).Nodup) :
    (u.collect store).sources = u.tally store (store.qualifying u.kind) ∧
      ((u.tally store (store.qualifying u.kind)).map Source.seqno).Nodup := by
  have qualified : (store.numbers (store.qualifying u.kind)).Nodup :=
    apart.sublist (List.filter_sublist.map _)
  exact ⟨addSources_tally known qualified, tally_apart known qualified⟩

/-- Taking stock and forgetting the rest leaves the census, and nothing but the sources is different. -/
theorem pruned_collect_eq (known : u.KnownApart) (apart : (store.numbers (store.held.map (·.2))).Nodup) :
    (u.collect store).pruneSources = { u with sources := u.census store } := by
  have marked : ((u.newcomers store (store.qualifying u.kind)).map store.asSource).filter Source.seen =
      (u.newcomers store (store.qualifying u.kind)).map store.asSource := by
    refine List.filter_eq_self.mpr fun source member => ?_
    obtain ⟨id, -, rfl⟩ := List.mem_map.mp member
    rfl
  rw [pruneSources, collect_rest]
  simp only [(collect_tally known apart).1, tally, List.filter_append, filter_seen_marked, marked, census]

theorem census_apart (known : u.KnownApart) (apart : (store.numbers (store.held.map (·.2))).Nodup) :
    ((u.census store).map Source.seqno).Nodup := by
  obtain ⟨sources, nodup⟩ := collect_tally known apart
  have same : (u.collect store).sources.filter Source.seen = u.census store :=
    congrArg Updater.sources (pruned_collect_eq known apart)
  rw [← same, sources]
  exact nodup.sublist (List.filter_sublist.map _)

theorem pruned_collect_nil : (u.collect store).pruneSources.sources = [] ↔ store.qualifying u.kind = [] := by
  have reflects := u.collect_reflects store
  have kind : (u.collect store).kind = u.kind := by rw [collect_rest]
  constructor
  · intro none_left
    refine List.eq_nil_iff_forall_not_mem.mpr fun id member => ?_
    have marks := (reflects (store.lease id).seqno).mpr ⟨id, kind ▸ Store.mem_qualifying.mp member, rfl⟩
    obtain ⟨source, present, -⟩ := (pruneSources_marks _ _).mpr marks
    rw [none_left] at present
    cases present
  · intro none_qualifies
    refine List.eq_nil_iff_forall_not_mem.mpr fun source member => ?_
    obtain ⟨present, seen⟩ := List.mem_filter.mp member
    obtain ⟨id, driving, -⟩ := (reflects source.seqno).mp ⟨source, present, seen, rfl⟩
    have listed := Store.mem_qualifying.mpr (kind ▸ driving)
    rw [none_qualifies] at listed
    cases listed

/-- A source is the first of the heaviest. -/
def Leads (sources : List Source) (source : Source) : Prop :=
  ∃ before after, sources = before ++ source :: after ∧ (∀ other ∈ before, other.weight < source.weight) ∧
    ∀ other ∈ after, other.weight ≤ source.weight

private theorem foldl_better_leads (sources : List Source) :
    sources = [] ∧ sources.foldl better none = none ∨
      ∃ best, sources.foldl better none = some best ∧ Leads sources best := by
  induction sources using List.reverseRecOn with
  | nil => exact Or.inl ⟨rfl, rfl⟩
  | append_singleton sources last ih =>
    right
    rw [List.foldl_append, List.foldl_cons, List.foldl_nil]
    obtain ⟨rfl, found⟩ | ⟨old, found, before, after, rfl, lighter, below⟩ := ih
    · exact ⟨last, by rw [found, better], [], [], rfl, by simp, by simp⟩
    · rw [found, better]
      split
      next overtaken =>
        refine ⟨last, rfl, before ++ old :: after, [], rfl, fun other member => ?_, by simp⟩
        obtain member | member := List.mem_append.mp member
        · exact Nat.lt_trans (lighter other member) overtaken
        · obtain rfl | member := List.mem_cons.mp member
          · exact overtaken
          · exact Nat.lt_of_le_of_lt (below other member) overtaken
      next kept =>
        refine ⟨old, rfl, before, after ++ [last], by simp, lighter, fun other member => ?_⟩
        obtain member | rfl := List.mem_append.mp member |>.imp_right List.mem_singleton.mp
        · exact below other member
        · exact Nat.le_of_not_lt kept

theorem Leads.mem {sources : List Source} {source : Source} (leads : Leads sources source) : source ∈ sources := by
  obtain ⟨before, after, rfl, -⟩ := leads
  exact List.mem_append_right before List.mem_cons_self

theorem Leads.unique {sources : List Source} {first other : Source} (leads : Leads sources first)
    (leads' : Leads sources other) : first = other := by
  obtain ⟨before, after, rfl, lighter, below⟩ := leads
  obtain ⟨before', after', split, lighter', below'⟩ := leads'
  obtain ⟨between, rfl, rest⟩ | ⟨between, rfl, rest⟩ := List.append_eq_append_iff.mp split
  · cases between with
    | nil => exact (List.cons.inj rest).1
    | cons next between =>
      obtain ⟨rfl, rfl⟩ := List.cons.inj rest
      have above : first.weight < other.weight := lighter' first (by simp)
      have under : other.weight ≤ first.weight := below other (by simp)
      omega
  · cases between with
    | nil => exact (List.cons.inj rest).1.symm
    | cons next between =>
      obtain ⟨rfl, rfl⟩ := List.cons.inj rest
      have above : other.weight < first.weight := lighter other (by simp)
      have under : first.weight ≤ other.weight := below' first (by simp)
      omega

/-- The first of the heaviest marked sources is selected, and one is selected if any source is marked. -/
theorem selectSource_iff (source : Source) :
    u.selectSource = some source ↔ Leads (u.sources.filter Source.seen) source := by
  unfold selectSource
  obtain ⟨empty, none_selected⟩ | ⟨best, selected, leads⟩ := foldl_better_leads (u.sources.filter Source.seen)
  · rw [none_selected, empty]
    constructor
    · intro impossible
      cases impossible
    · intro leads
      cases leads.mem
  · rw [selected, Option.some.injEq]
    constructor
    · rintro rfl
      exact leads
    · intro leads'
      exact leads.unique leads'

theorem selectSource_eq_none : u.selectSource = none ↔ ∀ source ∈ u.sources, source.seen = false := by
  constructor
  · exact selectSource_none
  · intro unseen
    cases selected : u.selectSource with
    | none => rfl
    | some source =>
      obtain ⟨⟨member, seen⟩, -⟩ := selectSource_some selected
      rw [unseen source member] at seen
      cases seen

/-- Among marked sources the first of the heaviest is selected, and one is selected if there are any. -/
theorem selectSource_leads (pruned : u.Pruned) :
    u.sources = [] ∧ u.selectSource = none ∨ ∃ source, u.selectSource = some source ∧ Leads u.sources source := by
  have all : u.sources.filter Source.seen = u.sources := List.filter_eq_self.mpr pruned
  cases selected : u.selectSource with
  | none =>
    refine Or.inl ⟨List.eq_nil_iff_forall_not_mem.mpr fun source member => ?_, rfl⟩
    have unseen := selectSource_eq_none.mp selected source member
    rw [pruned source member] at unseen
    cases unseen
  | some source => exact Or.inr ⟨source, rfl, all ▸ (selectSource_iff source).mp selected⟩

end Updater

end Leasehold
