import Leasehold.Proofs.LeaseOwnership
import Leasehold.Reconciliation.Pass

/-! What an updater knows of the leases. After taking stock its marked sources are those leases in the store
that may and can drive its kind, each with its number and its weight, and the selected one is a heaviest. -/

namespace Leasehold

def Store.Drives (s : Store) (kind : Kind) (id : LeaseId) : Prop :=
  s.Holds id ∧ (s.lease id).canUpdate kind = true

theorem Store.mem_held {s : Store} {id : LeaseId} : id ∈ s.held.map (·.2) ↔ s.Holds id := by
  simp only [held, Holds, List.mem_map, List.mem_flatMap]
  constructor
  · rintro ⟨_, ⟨d, member, other, held, rfl⟩, rfl⟩
    exact ⟨d, member, held⟩
  · rintro ⟨d, member, held⟩
    exact ⟨(d.name, id), ⟨d, member, id, held, rfl⟩, rfl⟩

structure Store.Numbered (s : Store) : Prop where
  issued : ∀ id, s.Holds id → (s.lease id).seqno ≤ s.lastSeqno
  distinct : ∀ i j, s.Holds i → s.Holds j → (s.lease i).seqno = (s.lease j).seqno → i = j

theorem Service.Owned.numbered {s : Service} (owned : s.Owned) : s.store.Numbered :=
  ⟨fun id held => (owned.stamped id held).2,
    fun i j ⟨d, member, first⟩ ⟨e, other, last⟩ same => (owned.distinct d member e other i first j last same).1⟩

namespace Updater

def Marks (u : Updater) (n : Int) : Prop :=
  ∃ source ∈ u.sources, source.seen = true ∧ source.seqno = n

def Reflects (u : Updater) (store : Store) : Prop :=
  ∀ n, u.Marks n ↔ ∃ id, store.Drives u.kind id ∧ (store.lease id).seqno = n

def Pruned (u : Updater) : Prop := ∀ source ∈ u.sources, source.seen = true

def entries (u : Updater) : List (Int × Nat) :=
  u.sources.map fun source => (source.seqno, source.weight)

/-- The sources have numbers of their own, and weigh what the leases of those numbers weigh. -/
structure Weighed (u : Updater) (store : Store) : Prop where
  known : (u.entries.map Prod.fst).Nodup
  issued : ∀ e ∈ u.entries, e.1 ≤ store.lastSeqno
  weight : ∀ e ∈ u.entries, ∀ id, store.Holds id → (store.lease id).seqno = e.1 → (store.lease id).weight = e.2

theorem clearMarks_marks (u : Updater) (n : Int) : ¬ u.clearMarks.Marks n := by
  simp [Marks, clearMarks, Source.seen]

theorem pruneSources_marks (u : Updater) (n : Int) : u.pruneSources.Marks n ↔ u.Marks n := by
  simp only [Marks, pruneSources, List.mem_filter]
  constructor
  · rintro ⟨source, ⟨member, seen⟩, -, same⟩
    exact ⟨source, member, seen, same⟩
  · rintro ⟨source, member, seen, same⟩
    exact ⟨source, ⟨member, seen⟩, seen, same⟩

theorem pruneSources_pruned (u : Updater) : u.pruneSources.Pruned :=
  fun _ member => (List.mem_filter.mp member).2

theorem clearMarks_entries (u : Updater) : u.clearMarks.entries = u.entries := by
  simp [entries, clearMarks]

theorem pruneSources_entries (u : Updater) : u.pruneSources.entries.Sublist u.entries :=
  List.filter_sublist.map _

theorem markFirst_entries (n : Int) (id : LeaseId) (sources : List Source) :
    (markFirst n id sources).map (fun source => (source.seqno, source.weight)) =
      sources.map fun source => (source.seqno, source.weight) := by
  induction sources with
  | nil => rfl
  | cons first rest ih =>
    unfold markFirst
    split <;> simp [ih]

theorem markFirst_marks {n : Int} {sources : List Source} (id : LeaseId)
    (known : sources.any (fun source => source.seqno = n) = true) (other : Int) :
    (∃ source ∈ markFirst n id sources, source.seen = true ∧ source.seqno = other) ↔
      (∃ source ∈ sources, source.seen = true ∧ source.seqno = other) ∨ n = other := by
  induction sources with
  | nil => simp at known
  | cons first rest ih =>
    unfold markFirst
    split
    next here =>
      subst here
      simp only [List.mem_cons, or_and_right, exists_or, exists_eq_left, Source.seen, Option.isSome_some, true_and]
      constructor
      · rintro (same | later)
        · exact Or.inr same
        · exact Or.inl (Or.inr later)
      · rintro ((here | later) | same)
        · exact Or.inl here.2
        · exact Or.inr later
        · exact Or.inl same
    next elsewhere =>
      have known : rest.any (fun source => source.seqno = n) = true := by simpa [elsewhere] using known
      simp only [List.mem_cons, or_and_right, exists_or, exists_eq_left, ih known, or_assoc]

theorem addSource_marks (u : Updater) (table : LeaseTable) (id : LeaseId) (n : Int) :
    (u.addSource table id).Marks n ↔ u.Marks n ∨ (table.get id).seqno = n := by
  unfold addSource
  simp only
  split
  next known => exact markFirst_marks id known n
  next => simp [Marks, Source.seen, or_and_right, exists_or]

theorem addSource_entries (u : Updater) (table : LeaseTable) (id : LeaseId) :
    (u.addSource table id).entries = if u.knows (table.get id).seqno then u.entries
      else u.entries ++ [((table.get id).seqno, (table.get id).weight)] := by
  unfold addSource
  simp only
  split
  · exact markFirst_entries _ id u.sources
  · simp [entries]

theorem knows_iff {u : Updater} {n : Int} : u.knows n = true ↔ n ∈ u.entries.map Prod.fst := by
  simp [knows, entries]

theorem addSource_weighed {u : Updater} {store : Store} (weighed : u.Weighed store) (numbered : store.Numbered)
    {id : LeaseId} (held : store.Holds id) : (u.addSource store.table id).Weighed store := by
  have content : store.table.get id = store.lease id := rfl
  by_cases known : u.knows (store.lease id).seqno
  · have same : (u.addSource store.table id).entries = u.entries := by
      rw [addSource_entries, content, if_pos known]
    exact ⟨same ▸ weighed.known, same ▸ weighed.issued, same ▸ weighed.weight⟩
  · have added : (u.addSource store.table id).entries =
        u.entries ++ [((store.lease id).seqno, (store.lease id).weight)] := by
      rw [addSource_entries, content, if_neg known]
    refine ⟨?_, ?_, ?_⟩
    · rw [added, List.map_append, List.nodup_append]
      refine ⟨weighed.known, by simp, ?_⟩
      rintro n member m new rfl
      obtain rfl : n = (store.lease id).seqno := by simpa using new
      exact known (knows_iff.mpr member)
    · intro e member
      rw [added] at member
      obtain member | rfl := List.mem_append.mp member |>.imp_right List.mem_singleton.mp
      · exact weighed.issued e member
      · exact numbered.issued id held
    · intro e member other present same
      rw [added] at member
      obtain member | rfl := List.mem_append.mp member |>.imp_right List.mem_singleton.mp
      · exact weighed.weight e member other present same
      · rw [numbered.distinct other id present held same]

theorem addSource_rest (u : Updater) (table : LeaseTable) (id : LeaseId) :
    u.addSource table id = { u with sources := (u.addSource table id).sources } := by
  unfold addSource
  simp only
  split <;> rfl

section Collect

variable (store : Store)

theorem addSources_marks (ids : List LeaseId) (u : Updater) (n : Int) :
    (ids.foldl (fun u id => u.addSource store.table id) u).Marks n ↔
      u.Marks n ∨ ∃ id ∈ ids, (store.lease id).seqno = n := by
  induction ids generalizing u with
  | nil => simp
  | cons id rest ih =>
    simp only [List.foldl_cons, ih, addSource_marks, List.mem_cons, or_and_right, exists_or, exists_eq_left,
      or_assoc, Store.lease]

theorem addSources_weighed (ids : List LeaseId) {u : Updater} (weighed : u.Weighed store)
    (numbered : store.Numbered) (held : ∀ id ∈ ids, store.Holds id) :
    (ids.foldl (fun u id => u.addSource store.table id) u).Weighed store := by
  induction ids generalizing u with
  | nil => exact weighed
  | cons id rest ih =>
    exact ih (addSource_weighed weighed numbered (held id (by simp))) fun other member =>
      held other (List.mem_cons_of_mem id member)

theorem addSources_rest (ids : List LeaseId) (u : Updater) :
    ids.foldl (fun u id => u.addSource store.table id) u =
      { u with sources := (ids.foldl (fun u id => u.addSource store.table id) u).sources } := by
  induction ids generalizing u with
  | nil => rfl
  | cons id rest ih =>
    simp only [List.foldl_cons]
    rw [ih, addSource_rest]

theorem collect_rest (u : Updater) : u.collect store = { u with sources := (u.collect store).sources } :=
  addSources_rest store _ u.clearMarks

/-- After taking stock the marked sources are the leases that drive the kind. -/
theorem collect_reflects (u : Updater) : (u.collect store).Reflects store := by
  intro n
  have kind : (u.collect store).kind = u.kind := by rw [collect_rest]
  rw [kind]
  unfold collect
  rw [addSources_marks]
  simp only [clearMarks_marks, false_or, List.mem_filter, Store.mem_held, Store.Drives]

theorem collect_weighed {u : Updater} (weighed : u.Weighed store) (numbered : store.Numbered) :
    (u.collect store).Weighed store := by
  refine addSources_weighed store _ ?_ numbered fun id member => Store.mem_held.mp (List.mem_filter.mp member).1
  exact ⟨u.clearMarks_entries ▸ weighed.known, u.clearMarks_entries ▸ weighed.issued,
    u.clearMarks_entries ▸ weighed.weight⟩

end Collect

private theorem better_some (sources : List Source) {best : Option Source} {selected : Source}
    (result : sources.foldl better best = some selected) :
    (selected ∈ sources ∨ best = some selected) ∧ (∀ source ∈ sources, source.weight ≤ selected.weight) ∧
      ∀ source, best = some source → source.weight ≤ selected.weight := by
  -- The best so far is weighed like the sources that come, and may itself be none.
  induction sources generalizing best with
  | nil =>
    have same : best = some selected := result
    exact ⟨Or.inr same, by simp, fun source other => Nat.le_of_eq (by rw [Option.some.inj (other.symm.trans same)])⟩
  | cons first rest ih =>
    obtain ⟨member, above, chosen⟩ := @ih (better best first) result
    have first_below : first.weight ≤ selected.weight ∧ ∀ source, best = some source →
        source.weight ≤ selected.weight := by
      match best with
      | none => exact ⟨chosen first rfl, by simp⟩
      | some old =>
        by_cases lighter : old.weight < first.weight
        · have below := chosen first (by simp [better, lighter])
          refine ⟨below, ?_⟩
          rintro source ⟨⟩
          exact Nat.le_trans (Nat.le_of_lt lighter) below
        · have below := chosen old (by simp [better, lighter])
          refine ⟨Nat.le_trans (Nat.le_of_not_lt lighter) below, ?_⟩
          rintro source ⟨⟩
          exact below
    refine ⟨?_, ?_, first_below.2⟩
    · obtain later | now := member
      · exact Or.inl (List.mem_cons_of_mem first later)
      · match best with
        | none => exact Or.inl (Option.some.inj now ▸ List.mem_cons_self)
        | some old =>
          by_cases lighter : old.weight < first.weight
          · have same : first = selected := by simpa [better, lighter] using now
            exact Or.inl (same ▸ List.mem_cons_self)
          · have same : old = selected := by simpa [better, lighter] using now
            exact Or.inr (congrArg some same)
    · intro source present
      obtain rfl | later := List.mem_cons.mp present
      · exact first_below.1
      · exact above source later

theorem selectSource_some {u : Updater} {selected : Source} (result : u.selectSource = some selected) :
    (selected ∈ u.sources ∧ selected.seen = true) ∧
      ∀ source ∈ u.sources, source.seen = true → source.weight ≤ selected.weight := by
  obtain ⟨member, above, -⟩ := better_some _ result
  refine ⟨?_, fun source present seen => above source (List.mem_filter.mpr ⟨present, seen⟩)⟩
  obtain member | impossible := member
  · exact List.mem_filter.mp member
  · cases impossible

theorem selectSource_none {u : Updater} (result : u.selectSource = none) :
    ∀ source ∈ u.sources, source.seen = false := by
  have stays (sources : List Source) (best : Source) : (sources.foldl better (some best)).isSome := by
    induction sources generalizing best with
    | nil => rfl
    | cons first rest ih =>
      simp only [List.foldl_cons, better]
      split <;> exact ih _
  unfold selectSource at result
  match marked : u.sources.filter Source.seen with
  | [] => exact fun source present => by simpa using List.filter_eq_nil_iff.mp marked source present
  | first :: rest =>
    rw [marked] at result
    have some := stays rest first
    simp only [List.foldl_cons, better] at result
    rw [result] at some
    cases some

end Updater

end Leasehold
