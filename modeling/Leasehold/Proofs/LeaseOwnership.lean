import Leasehold.Proofs.SessionPhases

/-! Who holds which lease. A device holds its session's lease and no other, and the leases that are held
have numbers of their own, which the counter gave. -/

namespace Leasehold

namespace Store

theorem lease_setLease (s : Store) (id other : LeaseId) (lease : Lease) :
    (s.setLease id lease).lease other = if id = other ∧ id < s.table.length then lease else s.lease other := by
  simp only [setLease, Store.lease, LeaseTable.get, List.getElem?_set]
  by_cases same : id = other
  · subst other
    by_cases inside : id < s.table.length
    · simp [inside]
    · simp [inside]
  · simp [same]

theorem lease_draft (s : Store) {id other : LeaseId} (lease : Lease) (different : other ≠ id)
    (inside : other < s.table.length) : (s.draft id lease).lease other = s.lease other := by
  unfold draft
  split
  · rw [lease_setLease, if_neg (fun same => different same.1.symm)]
  · simp [Store.lease, LeaseTable.get, makeLease, List.getElem?_append_left inside]

theorem length_draft (s : Store) (id : LeaseId) (lease : Lease) :
    s.table.length ≤ (s.draft id lease).table.length := by
  unfold draft
  split <;> simp [setLease, makeLease]

theorem draft_devices (s : Store) (id : LeaseId) (lease : Lease) : (s.draft id lease).devices = s.devices := by
  unfold draft
  split <;> rfl

theorem draft_lastSeqno (s : Store) (id : LeaseId) (lease : Lease) :
    (s.draft id lease).lastSeqno = s.lastSeqno := by
  unfold draft
  split <;> rfl

theorem without_table (s : Store) (name : Scalar) (lease : Option LeaseId) :
    (s.without name lease).table = s.table := by
  cases lease <;> rfl

theorem without_lease (s : Store) (name : Scalar) (lease : Option LeaseId) (id : LeaseId) :
    (s.without name lease).lease id = s.lease id := by
  cases lease <;> rfl

theorem without_lastSeqno (s : Store) (name : Scalar) (lease : Option LeaseId) :
    (s.without name lease).lastSeqno = s.lastSeqno := by
  cases lease <;> rfl

theorem mem_modifyDevice {s : Store} {name : Scalar} {change : Device → Device} {d : Device}
    (member : d ∈ (s.modifyDevice name change).devices) :
    ∃ old ∈ s.devices, old.name.key = name.key ∧ d = change old ∨ old.name.key ≠ name.key ∧ d = old := by
  obtain ⟨old, present, rfl⟩ := List.mem_map.mp member
  refine ⟨old, present, ?_⟩
  by_cases same : old.name.key = name.key <;> simp [Scalar.isKey, same]

theorem mem_without {s : Store} {name : Scalar} {lease : Option LeaseId} {d : Device}
    (only : ∀ old ∈ s.devices, old.name.key = name.key → old.leases = lease.toList)
    (member : d ∈ (s.without name lease).devices) :
    ∃ old ∈ s.devices, d.name = old.name ∧
      d.leases = if old.name.key = name.key then [] else old.leases := by
  cases lease with
  | none =>
    refine ⟨d, member, rfl, ?_⟩
    split
    next same => exact only d member same
    next => rfl
  | some id =>
    obtain ⟨old, present, ⟨same, rfl⟩ | ⟨different, rfl⟩⟩ := mem_modifyDevice member
    · exact ⟨old, present, rfl, by simp [Device.removeLease, only old present same, same]⟩
    · exact ⟨_, present, rfl, by simp [different]⟩

/-- Whatever is held was held by the same device and is as it was, but for the one lease that the device of
a name may have got, which has a new number. -/
structure Succeeds (s s' : Store) (name : Scalar) (new : Option LeaseId) : Prop where
  length : s.table.length ≤ s'.table.length
  counter : s.lastSeqno ≤ s'.lastSeqno
  held : ∀ d ∈ s'.devices, ∀ i ∈ d.leases,
    (new = some i ∧ d.name.key = name.key ∧ i < s'.table.length ∧
      s.lastSeqno < (s'.lease i).seqno ∧ (s'.lease i).seqno ≤ s'.lastSeqno) ∨
    (∃ before ∈ s.devices, d.name = before.name ∧ i ∈ before.leases) ∧ s'.lease i = s.lease i

theorem Succeeds.refl (s : Store) (name : Scalar) : s.Succeeds s name none :=
  ⟨Nat.le_refl _, Int.le_refl _, fun d member _ held => Or.inr ⟨⟨d, member, rfl, held⟩, rfl⟩⟩

theorem succeeds_without (s : Store) (device name : Scalar) (lease : Option LeaseId) :
    s.Succeeds (s.without device lease) name none := by
  cases lease with
  | none => exact .refl s name
  | some id =>
    refine ⟨Nat.le_refl _, Int.le_refl _, fun d member i held => Or.inr ⟨?_, rfl⟩⟩
    obtain ⟨before, present, ⟨-, rfl⟩ | ⟨-, rfl⟩⟩ := mem_modifyDevice member
    · exact ⟨before, present, rfl, List.mem_of_mem_erase held⟩
    · exact ⟨_, present, rfl, held⟩

theorem succeeds_draft (s : Store) (name : Scalar) {id : LeaseId} (lease : Lease) (free : ¬ s.Holds id)
    (named : ∀ i, s.Holds i → i < s.table.length) : s.Succeeds (s.draft id lease) name none := by
  refine ⟨s.length_draft id lease, Int.le_of_eq (s.draft_lastSeqno id lease).symm, fun d member i held => Or.inr ?_⟩
  rw [draft_devices] at member
  have holds : s.Holds i := ⟨d, member, held⟩
  exact ⟨⟨d, member, rfl, held⟩, s.lease_draft lease (fun same => free (same ▸ holds)) (named i holds)⟩

theorem ofDevices_empty (devices : List (Scalar × Int)) :
    (∀ d ∈ (ofDevices devices).devices, d.leases = []) ∧ (ofDevices devices).lastSeqno = 0 := by
  suffices keeps : ∀ s : Store, ((∀ d ∈ s.devices, d.leases = []) ∧ s.lastSeqno = 0) →
      (∀ d ∈ (devices.foldl (fun s d => s.addDevice d.1 d.2) s).devices, d.leases = []) ∧
        (devices.foldl (fun s d => s.addDevice d.1 d.2) s).lastSeqno = 0 from
    keeps empty ⟨by simp [empty], rfl⟩
  induction devices with
  | nil => exact fun s holds => holds
  | cons first rest ih =>
    intro s ⟨leases, counter⟩
    refine ih (s.addDevice first.1 first.2) ?_
    unfold addDevice
    split
    · exact ⟨leases, counter⟩
    · refine ⟨fun d member => ?_, counter⟩
      obtain present | rfl := List.mem_append.mp member |>.imp_right List.mem_singleton.mp
      · exact leases d present
      · rfl

end Store

namespace Device

theorem addLease_leases (d : Device) (table : LeaseTable) (id : LeaseId)
    (only : ∀ other ∈ d.leases, other = id) (once : d.leases.length ≤ 1) :
    (d.addLease table id).leases = [id] := by
  match held : d.leases with
  | [] => simp [addLease, replaced?, findLease?, held]
  | [other] =>
    have same : other = id := only other (by simp [held])
    subst other
    simp [addLease, replaced?, findLease?, held]
  | _ :: _ :: _ => simp [held] at once

end Device

namespace Service

variable {s s' : Service} {m : Move} {name : Scalar} {x next : Session} {store : Store} {es : List Effect}

private theorem released_changes (s : Service) (name : Scalar) {lease : Option LeaseId} (reason : Option String)
    (held : lease.isSome) : (s.released name lease reason).changesLeases = true := by
  simpa [released, Event.changesLeases] using held

/-- What a turn does to the store follows from what it does to the session's lease, and is told. -/
theorem Turn.store_cases (turn : s.Turn m name x next store es) :
    store = s.store ∧ next.lease = x.lease ∨
    (store = s.store.without x.device x.lease ∧ next.lease = none ∧ (x.lease.isSome → Announces es)) ∨
    ∃ id t now, m = .completeAcquire t id now ∧ t.device = name ∧
      store = s.storeObtained t x.lease id now ∧ next.lease = some id ∧ Announces es := by
  cases turn with
  | kept | refused | started | releasing | cancelled | failed => exact Or.inl ⟨rfl, rfl⟩
  | finished | expired =>
    exact Or.inr (Or.inl ⟨rfl, rfl, fun held =>
      ⟨_, List.mem_append_right _ (.head _), released_changes s name _ held⟩⟩)
  | outlived | returned =>
    exact Or.inr (Or.inl ⟨rfl, rfl, fun held => ⟨_, .head _, released_changes s name _ held⟩⟩)
  | obtained id t now handed device current =>
    exact Or.inr (Or.inr ⟨id, t, now, handed, device, rfl, rfl, _, .head _, rfl⟩)

/-- The devices hold the sessions' leases, and every lease that is held has a number of its own. -/
structure Owned (s : Service) : Prop where
  leases : ∀ d ∈ s.store.devices, d.leases = (s.sessionOf d.name).lease.toList
  named : ∀ id, s.store.Holds id → id < s.store.table.length
  counter : 0 ≤ s.store.lastSeqno
  stamped : ∀ id, s.store.Holds id → 0 < (s.store.lease id).seqno ∧ (s.store.lease id).seqno ≤ s.store.lastSeqno
  distinct : ∀ d ∈ s.store.devices, ∀ e ∈ s.store.devices, ∀ i ∈ d.leases, ∀ j ∈ e.leases,
    (s.store.lease i).seqno = (s.store.lease j).seqno → i = j ∧ d.name.key = e.name.key

theorem Owned.of_key (owned : s.Owned) {d : Device} (member : d ∈ s.store.devices) (same : d.name.key = name.key) :
    d.leases = (s.sessionOf name).lease.toList := by
  rw [owned.leases d member, s.sessionOf_congr same]

/-- The numbers stay apart, whatever the store that succeeds. -/
theorem Owned.succeeds {new : Option LeaseId} (owned : s.Owned) (succeeds : s.store.Succeeds s'.store name new)
    (leases : ∀ d ∈ s'.store.devices, d.leases = (s'.sessionOf d.name).lease.toList) : s'.Owned := by
  have old {d : Device} {i : LeaseId} (member : d ∈ s.store.devices) (held : i ∈ d.leases) :
      0 < (s.store.lease i).seqno ∧ (s.store.lease i).seqno ≤ s.store.lastSeqno :=
    owned.stamped i ⟨d, member, held⟩
  refine ⟨leases, ?_, Int.le_trans owned.counter succeeds.counter, ?_, ?_⟩
  · rintro i ⟨d, member, held⟩
    rcases succeeds.held d member i held with ⟨-, -, inside, -⟩ | ⟨⟨before, present, -, held⟩, -⟩
    · exact inside
    · exact Nat.lt_of_lt_of_le (owned.named i ⟨before, present, held⟩) succeeds.length
  · rintro i ⟨d, member, held⟩
    rcases succeeds.held d member i held with ⟨-, -, -, above, below⟩ | ⟨⟨before, present, -, held⟩, content⟩
    · exact ⟨Int.lt_of_le_of_lt owned.counter above, below⟩
    · rw [content]
      exact ⟨(old present held).1, Int.le_trans (old present held).2 succeeds.counter⟩
  · -- The new number is above all others, so that two leases of one number are both new or both old.
    intro d member e other i first j last equal
    rcases succeeds.held d member i first with ⟨new, sameD, -, above, -⟩ | ⟨⟨d', present, sameD, first⟩, content⟩ <;>
      rcases succeeds.held e other j last with ⟨new', sameE, -, above', -⟩ | ⟨⟨e', present', sameE, last⟩, content'⟩
    · exact ⟨Option.some.inj (new.symm.trans new'), sameD.trans sameE.symm⟩
    · rw [equal, content'] at above
      exact absurd above (Int.not_lt.mpr (old present' last).2)
    · rw [← equal, content] at above'
      exact absurd above' (Int.not_lt.mpr (old present first).2)
    · rw [content, content'] at equal
      rw [sameD, sameE]
      exact owned.distinct d' present e' present' i first j last equal

/-- A turn leaves the devices with their sessions' leases, if it gives its own device that of its session. -/
private theorem leases_after (owned : s.Owned) (b : s.Becomes name next store s')
    (changed : ∀ d ∈ store.devices, ∃ before ∈ s.store.devices, d.name = before.name ∧
      d.leases = if before.name.key = name.key then next.lease.toList else before.leases) :
    ∀ d ∈ s'.store.devices, d.leases = (s'.sessionOf d.name).lease.toList := by
  intro d member
  rw [b.store] at member
  obtain ⟨before, present, same, leases⟩ := changed d member
  rw [leases, same]
  split
  next here => rw [b.sessionOf_here here]
  next elsewhere =>
    rw [b.sessionOf_elsewhere elsewhere]
    exact owned.leases before present

theorem storeObtained_lease (s : Service) (t : Ticket) (old : Option LeaseId) (id other : LeaseId) (now : Moment) :
    (s.storeObtained t old id now).lease other = if id = other ∧ id < s.store.table.length then
        stamp (s.store.lease id) s.mode (s.store.lastSeqno + 1) now t.request
      else s.store.lease other :=
  (Store.without_lease _ t.device (old.filter fun old => old ≠ id) other).trans
    (Store.lease_setLease s.store.nextSeqno.2 id other _)

theorem storeObtained_lastSeqno (s : Service) (t : Ticket) (old : Option LeaseId) (id : LeaseId) (now : Moment) :
    (s.storeObtained t old id now).lastSeqno = s.store.lastSeqno + 1 :=
  Store.without_lastSeqno _ t.device (old.filter fun old => old ≠ id)

theorem storeObtained_length (s : Service) (t : Ticket) (old : Option LeaseId) (id : LeaseId) (now : Moment) :
    (s.storeObtained t old id now).table.length = s.store.table.length := by
  have kept : (s.storeObtained t old id now).table =
      s.store.table.set id (stamp (s.store.lease id) s.mode (s.store.lastSeqno + 1) now t.request) :=
    Store.without_table _ t.device (old.filter fun old => old ≠ id)
  rw [kept, List.length_set]

/-- What a move makes of the store: nothing, the session's lease is taken away, a lease is written, or one is
obtained. -/
theorem step_store (s : Service) (m : Move) :
    (s.step m).1.store = s.store ∨
    (∃ name, (s.step m).1.store = s.store.without (s.sessionOf name).device (s.sessionOf name).lease) ∨
    (∃ id lease, m = .draft id lease ∧ (s.step m).1.store = s.store.draft id lease) ∨
    ∃ t id now x, m = .completeAcquire t id now ∧ s.currentSession? t = some x ∧
      (s.step m).1.store = s.storeObtained t x.lease id now := by
  by_cases handing : ∃ t id now, m = .completeAcquire t id now
  · obtain ⟨t, id, now, rfl⟩ := handing
    cases current : s.currentSession? t with
    | none => exact Or.inl (by simp only [step, completeAcquire, current])
    | some x =>
      refine Or.inr (Or.inr (Or.inr ⟨t, id, now, x, rfl, current, ?_⟩))
      rw [step, completeAcquire_current t id now current]
      rfl
  · have moved := s.step_moved m
    generalize (s.step m).1 = s', (s.step m).2 = es at moved ⊢
    cases moved with
    | still => exact Or.inl rfl
    | drafted id lease same => exact Or.inr (Or.inr (Or.inl ⟨id, lease, same, rfl⟩))
    | turn name turned =>
      obtain ⟨next, store, turn, b⟩ := turned
      rw [b.store]
      rcases turn.store_cases with ⟨rfl, -⟩ | ⟨rfl, -⟩ | ⟨id, t, now, same, -⟩
      · exact Or.inl rfl
      · exact Or.inr (Or.inl ⟨name, rfl⟩)
      · exact absurd ⟨t, id, now, same⟩ handing
    | turns name free phase ended last =>
      obtain ⟨next, store, turn, b⟩ := last
      rw [b.store]
      rw [ended.sessionOf_here rfl] at turn
      rcases turn.store_cases with ⟨rfl, -⟩ | ⟨rfl, -⟩ | ⟨id, t, now, same, -⟩
      · exact Or.inr (Or.inl ⟨name, ended.store⟩)
      · exact Or.inr (Or.inl ⟨name, ended.store⟩)
      · exact absurd ⟨t, id, now, same⟩ handing

/-- Names of leases stay what they are. -/
theorem step_length (s : Service) (m : Move) : s.store.table.length ≤ (s.step m).1.store.table.length := by
  rcases s.step_store m with same | ⟨name, same⟩ | ⟨id, lease, -, same⟩ | ⟨t, id, now, x, -, -, same⟩
  all_goals have long := congrArg (·.table.length) same
  · exact Nat.le_of_eq long.symm
  · exact Nat.le_of_eq (long.trans (congrArg List.length (Store.without_table ..))).symm
  · exact Nat.le_trans (s.store.length_draft id lease) (Nat.le_of_eq long.symm)
  · exact Nat.le_of_eq (long.trans (s.storeObtained_length t x.lease id now)).symm

theorem stamp_seqno (lease : Lease) (mode : Mode) (seqno : Int) (now : Moment) (request : Option Request) :
    (stamp lease mode seqno now request).seqno = seqno := by
  cases request <;> rfl

/-- Before a lease is added to its device, that device has it already if it is renewed, and none else. -/
private theorem mem_makeRoom {name : Scalar} {old : Option LeaseId} {id : LeaseId} {d : Device} {s : Store}
    (only : ∀ d ∈ s.devices, d.name.key = name.key → d.leases = old.toList)
    (member : d ∈ (s.without name (old.filter fun old => old ≠ id)).devices) :
    ∃ before ∈ s.devices, d.name = before.name ∧
      d.leases = if before.name.key = name.key then (old.filter (· = id)).toList else before.leases := by
  by_cases renewed : old = some id
  · -- A lease that is obtained again is not taken away, but replaced by itself.
    subst renewed
    have present : d ∈ s.devices := by simpa [Option.filter, Store.without] using member
    refine ⟨d, present, rfl, ?_⟩
    split
    next same => simp [only d present same, Option.filter]
    next => rfl
  · have gone : (old.filter fun old => old ≠ id) = old ∧ (old.filter (· = id)) = none := by
      cases old with
      | none => simp
      | some other =>
        have different : other ≠ id := fun same => renewed (congrArg some same)
        simp [Option.filter, different]
    rw [gone.1] at member
    rw [gone.2]
    exact Store.mem_without only member

theorem mem_storeObtained {t : Ticket} {old : Option LeaseId} {id : LeaseId} {now : Moment} {d : Device}
    (only : ∀ d ∈ s.store.devices, d.name.key = t.device.key → d.leases = old.toList)
    (member : d ∈ (s.storeObtained t old id now).devices) :
    ∃ before ∈ s.store.devices, d.name = before.name ∧
      d.leases = if before.name.key = t.device.key then [id] else before.leases := by
  obtain ⟨mid, present, changed⟩ := Store.mem_modifyDevice member
  obtain ⟨before, present, same, leases⟩ := mem_makeRoom (s := s.store.nextSeqno.2.setLease id _) only present
  refine ⟨before, present, ?_⟩
  rcases changed with ⟨here, rfl⟩ | ⟨elsewhere, rfl⟩
  · rw [same] at here
    rw [if_pos here] at leases ⊢
    refine ⟨same, Device.addLease_leases mid _ id ?_ ?_⟩
    · rw [leases]
      simp
    · rw [leases]
      exact Option.length_toList_le
  · rw [same] at elsewhere
    rw [if_neg elsewhere] at leases ⊢
    exact ⟨same, leases⟩

theorem succeeds_obtained {t : Ticket} {old : Option LeaseId} {id : LeaseId} {now : Moment}
    (only : ∀ d ∈ s.store.devices, d.name.key = t.device.key → d.leases = old.toList)
    (permitted : s.Permits (.completeAcquire t id now)) :
    s.store.Succeeds (s.storeObtained t old id now) t.device (some id) := by
  have length := s.storeObtained_length t old id now
  have counter := s.storeObtained_lastSeqno t old id now
  refine ⟨Nat.le_of_eq length.symm, counter ▸ Int.le_add_one (Int.le_refl _), fun d member i held => ?_⟩
  obtain ⟨before, present, same, leases⟩ := mem_storeObtained only member
  rw [leases] at held
  rw [storeObtained_lease, same, counter, length]
  split at held
  next here =>
    obtain rfl := List.mem_singleton.mp held
    rw [if_pos ⟨rfl, permitted.1⟩, stamp_seqno]
    exact Or.inl ⟨rfl, here, permitted.1, Int.lt_add_one_of_le (Int.le_refl _), Int.le_refl _⟩
  next elsewhere =>
    have different : id ≠ i := fun equal => elsewhere (permitted.2 before present (equal ▸ held))
    exact Or.inr ⟨⟨before, present, rfl, held⟩, if_neg fun equal => different equal.1⟩

theorem Turned.succeeds (turned : s.Turned m name es s') (permitted : s.Permits m) (owned : s.Owned) :
    ∃ new, s.store.Succeeds s'.store name new := by
  obtain ⟨next, store, turn, b⟩ := turned
  rw [b.store]
  rcases turn.store_cases with ⟨rfl, -⟩ | ⟨rfl, -, -⟩ | ⟨id, t, now, rfl, rfl, rfl, -, -⟩
  · exact ⟨none, .refl s.store name⟩
  · exact ⟨none, s.store.succeeds_without _ name _⟩
  · exact ⟨some id, succeeds_obtained (fun d member same => owned.of_key member same) permitted⟩

theorem Turned.owned (turned : s.Turned m name es s') (permitted : s.Permits m) (owned : s.Owned) : s'.Owned := by
  obtain ⟨new, succeeds⟩ := turned.succeeds permitted owned
  refine owned.succeeds succeeds ?_
  obtain ⟨next, store, turn, b⟩ := turned
  have only (d : Device) (member : d ∈ s.store.devices) (same : d.name.key = name.key) :
      d.leases = (s.sessionOf name).lease.toList := owned.of_key member same
  apply leases_after owned b
  intro d member
  rcases turn.store_cases with ⟨rfl, lease⟩ | ⟨rfl, lease, -⟩ | ⟨id, t, now, rfl, rfl, rfl, lease, -⟩
  · refine ⟨d, member, rfl, ?_⟩
    split
    next here => rw [lease, only d member here]
    next => rfl
  · have device := s.sessionOf_device name
    rw [lease, ← device]
    exact Store.mem_without (fun old present same => only old present (same.trans device)) member
  · rw [lease]
    exact mem_storeObtained only member

theorem Owned.draft (owned : s.Owned) {id : LeaseId} (lease : Lease) (free : ¬ s.store.Holds id) :
    Owned { s with store := s.store.draft id lease } := by
  refine owned.succeeds (s.store.succeeds_draft .null lease free owned.named) fun d member => ?_
  rw [Store.draft_devices] at member
  exact owned.leases d member

theorem step_owned (permitted : s.Permits m) (owned : s.Owned) : (s.step m).1.Owned :=
  step_keeps (P := Owned) (fun permitted owned turned => turned.owned permitted owned)
    (fun free owned => owned.draft _ free) permitted owned

theorem initial_owned (devices : List (Scalar × Int)) (mode : Mode) : (initial devices mode).Owned := by
  obtain ⟨empty, counter⟩ := Store.ofDevices_empty devices
  have none_held {P : Prop} {d : Device} {id : LeaseId} (member : d ∈ (initial devices mode).store.devices)
      (held : id ∈ d.leases) : P := by
    rw [empty d member] at held
    cases held
  refine ⟨?_, ?_, ?_, ?_, ?_⟩
  · intro d member
    rw [empty d member]
    rfl
  · rintro id ⟨d, member, held⟩
    exact none_held member held
  · exact Int.le_of_eq counter.symm
  · rintro id ⟨d, member, held⟩
    exact none_held member held
  · intro d member e other i first
    exact none_held member first

/-- Whatever is asked of a service and reported to it, in whatever order, each session is as its phase
says, and the devices hold just the leases of their sessions, numbered apart. -/
theorem run_sessions_agree (devices : List (Scalar × Int)) (mode : Mode) (moves : List Move)
    (permitted : (initial devices mode).PermitsAll moves) :
    ((initial devices mode).run moves).1.SessionsSound ∧ ((initial devices mode).run moves).1.Owned :=
  run_keeps (P := fun s => s.SessionsSound ∧ s.Owned)
    (fun permitted holds => ⟨step_sessions_sound holds.1 _, step_owned permitted holds.2⟩) permitted
    ⟨initial_sessions_sound devices mode, initial_owned devices mode⟩

/-- A lease that was acquired and is then acquired over by itself, after an attempt that could not start. -/
theorem renewed_sessions_agree :
    let moves : List Move := [
      .draft 0 (.blank .dhcp),
      .acquire (.str "eth0") (.map [(.str "family", .scalar (.str "ipv4"))]) (.lenient (List.replicate 16 1)) .accepted,
      .completeAcquire ⟨.str "eth0", 1, none⟩ 0 default,
      .acquire (.str "eth0") (.map [(.str "family", .scalar (.str "ipv4"))]) (.lenient (List.replicate 16 2))
        (.crashed "down"),
      .acquire (.str "eth0") (.map [(.str "family", .scalar (.str "ipv4"))]) (.lenient (List.replicate 16 2)) .accepted,
      .completeAcquire ⟨.str "eth0", 2, none⟩ 0 default]
    let s := ((initial [(.str "eth0", 1), (.str "eth1", 2)] .dhcp).run moves).1
    (initial [(.str "eth0", 1), (.str "eth1", 2)] .dhcp).PermitsAll moves ∧ s.store.lastSeqno = 2 ∧
      s.SessionsSound ∧ s.Owned :=
  ⟨by decide, by decide, run_sessions_agree _ _ _ (by decide)⟩

end Service

end Leasehold
