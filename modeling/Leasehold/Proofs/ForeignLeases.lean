import Leasehold.Proofs.LeaseSlots

/-! Other components put leases on the devices too and take them away, and the service leaves theirs alone: of a
device's leases only the one of its session goes, and what stood in the slot of a lease that was acquired. One thing
breaks the order. A lease that is renewed in place is in the list while it gets the slot that its request asks for, and
if another lease has that slot, one of the two is replaced as if it were alone there. -/

namespace Leasehold

namespace LeaseTable

variable {table table' : LeaseTable} {leases : List LeaseId} {id : LeaseId}

/-- A lease that is written may get a slot that is taken, and only so two leases come to share one. -/
theorem Slotted.rewritten (slotted : table.Slotted leases) (same : ∀ other ≠ id, table'.get other = table.get other) :
    table'.Slotted leases ↔
      ¬ (id ∈ leases ∧ ∃ other ∈ leases, other ≠ id ∧ (table.get other).slot = (table'.get id).slot) := by
  constructor
  · rintro slotted' ⟨here, other, there, different, equal⟩
    exact different (slotted'.unique there here (by rw [same other different, equal]))
  · intro free
    have apart (other : LeaseId) (here : id ∈ leases) (there : other ∈ leases) (different : other ≠ id) :
        (table'.get other).slot ≠ (table'.get id).slot := fun equal =>
      free ⟨here, other, there, different, same other different ▸ equal⟩
    refine (List.nodup_map_iff_inj_on slotted.nodup).mpr fun first here second there equal => ?_
    by_cases new : first = id <;> by_cases new' : second = id
    · rw [new, new']
    · exact absurd (new ▸ equal).symm (apart second (new ▸ here) there new')
    · exact absurd (new' ▸ equal) (apart first (new' ▸ there) here new)
    · exact slotted.unique here there (by rw [← same first new, ← same second new', equal])

end LeaseTable

/-- Where a lease that is added shares its slot with another one in the list, they still share it afterwards, or the
lease stands twice. -/
theorem Device.addLease_shared {d : Device} {table : LeaseTable} {id other : LeaseId} (here : id ∈ d.leases)
    (there : other ∈ d.leases) (different : other ≠ id) (equal : (table.get other).slot = (table.get id).slot) :
    ¬ table.Slotted (d.addLease table id).leases := by
  intro slotted
  cases found : d.replaced? table id with
  | none =>
    rw [replaced?_eq] at found
    exact List.find?_eq_none.mp found id here (by simp)
  | some old =>
    rw [addLease_replaced found] at slotted
    have added : id ∈ d.leases.erase old ++ [id] := by simp
    have gone : old = id := by
      by_contra kept
      have once := List.nodup_append.mp slotted.nodup
      exact once.2.2 id ((List.mem_erase_of_ne (Ne.symm kept)).mpr here) id (List.mem_singleton_self id) rfl
    have kept : other ∈ d.leases.erase old ++ [id] :=
      List.mem_append_left _ ((List.mem_erase_of_ne (gone ▸ different)).mpr there)
    exact different (slotted.unique kept added equal)

namespace Store

variable {s : Store} {name : Scalar} {lease : Option LeaseId}

theorem modifyDevice_unknown (unknown : s.device? name = none) (change : Device → Device) :
    s.modifyDevice name change = s := by
  have others : s.devices.map (fun d => if d.name.isKey name then change d else d) = s.devices := by
    refine (List.map_congr_left fun d member => ?_).trans (List.map_id _)
    exact if_neg (List.find?_eq_none.mp unknown d member)
  rw [modifyDevice, others]

theorem without_unknown (unknown : s.device? name = none) (lease : Option LeaseId) : s.without name lease = s := by
  cases lease with
  | none => rfl
  | some id => exact s.modifyDevice_unknown unknown _

theorem Slotted.without (slotted : s.Slotted) (name : Scalar) (lease : Option LeaseId) :
    (s.without name lease).Slotted := by
  cases lease with
  | none => exact slotted
  | some id =>
    cases found : s.device? name with
    | none => exact (s.without_unknown found (some id)).symm ▸ slotted
    | some d => exact slotted.remove found id

theorem unknown_of_without {other : Scalar} (unknown : (s.without name lease).device? other = none) :
    s.device? other = none := by
  cases lease with
  | none => exact unknown
  | some id =>
    rw [Store.without, s.device?_modifyDevice name other (fun d => d.removeLease id) fun _ => rfl] at unknown
    simpa using unknown

theorem leasesOf_unknown (unknown : s.device? name = none) : s.leasesOf name = [] := by
  simp [leasesOf, unknown]

theorem Slotted.leasesOf_without (slotted : s.Slotted) (name other : Scalar) (lease : Option LeaseId) :
    (s.without name lease).leasesOf other =
      if other.key = name.key then (s.leasesOf other).filter fun id => some id ≠ lease else s.leasesOf other := by
  cases found : s.device? name with
  | none =>
    rw [s.without_unknown found]
    split
    next same =>
      rw [s.leasesOf_congr same, leasesOf_unknown found]
      rfl
    next => rfl
  | some d =>
    cases lease with
    | none => simp [Store.without]
    | some id =>
      rw [Store.without, leasesOf_remove found]
      split
      next same =>
        rw [s.leasesOf_congr same, leasesOf_eq found, (slotted.here found).nodup.erase_eq_filter]
        exact List.filter_congr fun other _ => by simp [bne, Bool.beq_eq_decide_eq]
      next => rfl

end Store

namespace Service

/-- What happens where others share the devices: the service is called or told something, or another component does
something to the store. -/
inductive Deed
  | own (m : Move)
  | foreign (m : Store.Move)

def act (s : Service) : Deed → Service
  | .own m => (s.step m).1
  | .foreign m => { s with store := (s.store.step m).1 }

/-- Something holds of every deed, where it happens. -/
def Throughout (P : Service → Deed → Prop) (s : Service) : List Deed → Prop
  | [] => True
  | e :: rest => P s e ∧ (s.act e).Throughout P rest

instance decidableThroughout (P : Service → Deed → Prop) [(s : Service) → (e : Deed) → Decidable (P s e)]
    (s : Service) : (deeds : List Deed) → Decidable (s.Throughout P deeds)
  | [] => isTrue trivial
  | e :: rest =>
    have := decidableThroughout P (s.act e) rest
    inferInstanceAs (Decidable (P s e ∧ (s.act e).Throughout P rest))

/-- A lease that is handed over is a new one or that of the device's session. All else is left to everyone, but that
a lease keeps its slot as long as a device holds it. -/
def Allows (s : Service) : Deed → Prop
  | .own (.completeAcquire t id _) =>
    id < s.store.table.length ∧ (s.store.Holds id → (s.sessionOf t.device).lease = some id)
  | .own (.draft id lease) => s.store.Permits (.write id lease)
  | .own _ => True
  | .foreign m => s.store.Permits m

def slotFor (s : Service) (t : Ticket) (id : LeaseId) : Mode × Family :=
  (s.mode, (t.request.map Request.family).getD (s.store.lease id).family)

/-- A lease gets a slot that another lease has, on a device that holds them both. -/
def Collides (s : Service) : Deed → Prop
  | .own (.completeAcquire t id _) => (s.currentSession? t).isSome ∧
    ∃ name ∈ s.store.names, id ∈ s.store.leasesOf name ∧
      ∃ other ∈ s.store.leasesOf name, other ≠ id ∧ s.store.slot other = s.slotFor t id
  | _ => False

instance (s : Service) : (e : Deed) → Decidable (s.Allows e)
  | .own (.completeAcquire t id _) => inferInstanceAs (Decidable
      (id < s.store.table.length ∧ (s.store.Holds id → (s.sessionOf t.device).lease = some id)))
  | .own (.draft id lease) => inferInstanceAs (Decidable (s.store.Permits (.write id lease)))
  | .foreign m => inferInstanceAs (Decidable (s.store.Permits m))
  | .own (.acquire ..) | .own (.release ..) | .own (.expire ..) | .own (.failAcquire ..)
  | .own (.completeRelease ..) => isTrue trivial

instance (s : Service) : (e : Deed) → Decidable (s.Collides e)
  | .own (.completeAcquire t id _) => inferInstanceAs (Decidable ((s.currentSession? t).isSome ∧
    ∃ name ∈ s.store.names, id ∈ s.store.leasesOf name ∧
      ∃ other ∈ s.store.leasesOf name, other ≠ id ∧ s.store.slot other = s.slotFor t id))
  | .foreign _ | .own (.draft ..) | .own (.acquire ..) | .own (.release ..) | .own (.expire ..)
  | .own (.failAcquire ..) | .own (.completeRelease ..) => isFalse id

variable {s : Service} {m : Move} {t : Ticket} {id : LeaseId} {now : Moment} {name : Scalar} {x : Session}

/-- The store when the lease that was handed over is stamped, and all devices hold what they held. -/
def restamped (s : Service) (t : Ticket) (id : LeaseId) (now : Moment) : Store :=
  s.store.nextSeqno.2.setLease id (stamp (s.store.lease id) s.mode s.store.nextSeqno.1 now t.request)

theorem storeObtained_eq (s : Service) (t : Ticket) (old : Option LeaseId) (id : LeaseId) (now : Moment) :
    s.storeObtained t old id now =
      ((s.restamped t id now).without t.device (old.filter fun old => old ≠ id)).modifyDevice t.device fun d =>
        d.addLease ((s.restamped t id now).without t.device (old.filter fun old => old ≠ id)).table id :=
  rfl

theorem restamped_leasesOf (s : Service) (t : Ticket) (id : LeaseId) (now : Moment) :
    (s.restamped t id now).leasesOf = s.store.leasesOf := rfl

theorem restamped_device? (s : Service) (t : Ticket) (id : LeaseId) (now : Moment) :
    (s.restamped t id now).device? = s.store.device? := rfl

theorem restamped_other (s : Service) (t : Ticket) (now : Moment) {id other : LeaseId} (different : other ≠ id) :
    (s.restamped t id now).lease other = s.store.lease other :=
  (Store.lease_setLease s.store.nextSeqno.2 id other _).trans (if_neg fun same => different same.1.symm)

theorem restamped_slot (s : Service) (t : Ticket) (now : Moment) {id : LeaseId} (made : id < s.store.table.length) :
    (s.restamped t id now).slot id = s.slotFor t id := by
  rw [Store.slot, restamped, Store.lease_setLease, if_pos ⟨rfl, made⟩]
  cases request : t.request <;> simp [stamp, Lease.slot, slotFor, request]

theorem storeObtained_slot (s : Service) (t : Ticket) (old : Option LeaseId) (now : Moment) {id : LeaseId}
    (made : id < s.store.table.length) : (s.storeObtained t old id now).slot id = s.slotFor t id :=
  (congrArg Lease.slot (Store.without_lease (s.restamped t id now) t.device (old.filter fun old => old ≠ id) id)).trans
    (s.restamped_slot t now made)

theorem storeObtained_unknown (s : Service) (old : Option LeaseId) (id : LeaseId) (now : Moment)
    (unknown : s.store.device? t.device = none) : s.storeObtained t old id now = s.restamped t id now := by
  have unknown : (s.restamped t id now).device? t.device = none := unknown
  rw [storeObtained_eq, Store.without_unknown unknown, Store.modifyDevice_unknown unknown]

theorem restamped_length (s : Service) (t : Ticket) (id : LeaseId) (now : Moment) :
    (s.restamped t id now).table.length = s.store.table.length :=
  List.length_set

/-- The leases keep apart when one is stamped, unless it gets a slot beside another lease that has it. -/
theorem restamped_slotted (slotted : s.store.Slotted) (made : id < s.store.table.length)
    (current : (s.currentSession? t).isSome) :
    (s.restamped t id now).Slotted ↔ ¬ s.Collides (.own (.completeAcquire t id now)) := by
  have rewritten (name : Scalar) : (s.restamped t id now).table.Slotted (s.store.leasesOf name) ↔
      ¬ (id ∈ s.store.leasesOf name ∧
        ∃ other ∈ s.store.leasesOf name, other ≠ id ∧ s.store.slot other = s.slotFor t id) := by
    rw [← s.restamped_slot t now made]
    exact (slotted.slots name).rewritten fun other different => s.restamped_other t now different
  constructor
  · rintro ⟨-, slots⟩ ⟨-, name, -, collision⟩
    exact (rewritten name).mp (slots name) collision
  · intro apart
    refine ⟨fun name other held => ?_, fun name => (rewritten name).mpr fun collision => apart ⟨current, ?_⟩⟩
    · rw [restamped_length]
      exact slotted.made name other held
    · cases found : s.store.device? name with
      | none => simp [Store.leasesOf_unknown found] at collision
      | some d =>
        refine ⟨d.name, List.mem_map_of_mem (List.mem_of_find?_eq_some found), ?_⟩
        rw [s.store.leasesOf_congr (Store.device?_key found)]
        exact collision

theorem storeObtained_slotted (slotted : s.store.Slotted) (allowed : s.Allows (.own (.completeAcquire t id now)))
    (current : s.currentSession? t = some x) (apart : ¬ s.Collides (.own (.completeAcquire t id now))) :
    (s.storeObtained t x.lease id now).Slotted := by
  have stamped := (restamped_slotted slotted allowed.1 (by simp [current])).mpr apart
  have room := stamped.without t.device (x.lease.filter fun old => old ≠ id)
  rw [storeObtained_eq]
  cases found : Store.device? _ t.device with
  | none => exact (Store.modifyDevice_unknown found _).symm ▸ room
  | some d =>
    refine room.add found ?_
    rw [Store.without_table, restamped_length]
    exact allowed.1

/-- What was wrong when the lease was stamped is still wrong when it is stored. -/
theorem storeObtained_shared (allowed : s.Allows (.own (.completeAcquire t id now)))
    (current : s.currentSession? t = some x)
    (slots : ∀ name, (s.storeObtained t x.lease id now).table.Slotted
      ((s.storeObtained t x.lease id now).leasesOf name)) :
    ¬ s.Collides (.own (.completeAcquire t id now)) := by
  rintro ⟨-, name, -, here, other, there, different, equal⟩
  -- A lease that a device holds is the session's own, which is not taken away first.
  have own : x.lease = some id :=
    sessionOf_eq (currentSession?_some current).1 ▸ allowed.2 (Store.mem_leasesOf_holds here)
  have stays : x.lease.filter (fun old => old ≠ id) = none := by simp [own]
  have shared : ((s.restamped t id now).table.get other).slot = ((s.restamped t id now).table.get id).slot :=
    (congrArg Lease.slot (s.restamped_other t now different)).trans
      (equal.trans (s.restamped_slot t now allowed.1).symm)
  have slots := slots name
  rw [storeObtained_eq, stays] at slots
  change LeaseTable.Slotted (s.restamped t id now).table (((s.restamped t id now).modifyDevice t.device fun d =>
    d.addLease (s.restamped t id now).table id).leasesOf name) at slots
  cases found : (s.restamped t id now).device? t.device with
  | none =>
    rw [Store.modifyDevice_unknown found] at slots
    exact different (slots.unique there here shared)
  | some d =>
    rw [Store.leasesOf_modifyDevice found name (fun d => d.addLease (s.restamped t id now).table id)
      fun _ => rfl] at slots
    split at slots
    next same =>
      rw [← restamped_leasesOf s t id now, Store.leasesOf_congr _ same, Store.leasesOf_eq found] at here there
      exact Device.addLease_shared here there different shared slots
    next => exact different (slots.unique there here shared)

/-- The lease that was acquired comes after those that are neither the session's nor of its slot. -/
theorem storeObtained_leasesOf (slotted : s.store.Slotted) (allowed : s.Allows (.own (.completeAcquire t id now)))
    (current : s.currentSession? t = some x) (apart : ¬ s.Collides (.own (.completeAcquire t id now)))
    {d : Device} (known : s.store.device? t.device = some d) (name : Scalar) :
    (s.storeObtained t x.lease id now).leasesOf name =
      if name.key = t.device.key then
        ((s.store.leasesOf name).filter fun other =>
          some other ≠ x.lease ∧ s.store.slot other ≠ s.slotFor t id) ++ [id]
      else s.store.leasesOf name := by
  have stamped := (restamped_slotted slotted allowed.1 (by simp [current])).mpr apart
  have room := stamped.without t.device (x.lease.filter fun old => old ≠ id)
  have kept := stamped.leasesOf_without t.device name (x.lease.filter fun old => old ≠ id)
  rw [storeObtained_eq]
  cases found : ((s.restamped t id now).without t.device (x.lease.filter fun old => old ≠ id)).device? t.device with
  | none => exact absurd (Store.unknown_of_without found) (by simp [restamped_device?, known])
  | some e =>
    rw [room.leasesOf_add found]
    split
    next same =>
      rw [if_pos same, restamped_leasesOf, Store.leasesOf_congr _ same, Store.leasesOf_eq found] at kept
      rw [kept, LeaseTable.putLast, List.filter_filter, Store.without_table, s.store.leasesOf_congr same]
      refine congrArg (· ++ [id]) (List.filter_congr fun other held => Bool.eq_iff_iff.mpr ?_)
      simp only [Bool.and_eq_true, decide_eq_true_eq]
      change (s.restamped t id now).slot other ≠ (s.restamped t id now).slot id ∧ _ ↔ _
      rw [s.restamped_slot t now allowed.1]
      by_cases new : other = id
      · have own : x.lease = some id :=
          sessionOf_eq (currentSession?_some current).1 ▸ allowed.2 (Store.mem_leasesOf_holds (new ▸ held))
        simp [new, own, s.restamped_slot t now allowed.1]
      · have slot : (s.restamped t id now).slot other = s.store.slot other :=
          congrArg Lease.slot (s.restamped_other t now new)
        have same : x.lease.filter (fun old => old ≠ id) = some other ↔ x.lease = some other := by
          simp [Option.filter_eq_some_iff, new]
        rw [slot, and_comm, ne_comm, Ne, same, ne_comm (a := some other)]
    next elsewhere => rw [kept, if_neg elsewhere, restamped_leasesOf]

/-- What a move does to the leases of a device: none is gone but that of the device's session and what had the slot of
the lease that was acquired, which stands last. -/
inductive Spares (s : Service) (m : Move) (name : Scalar) (s' : Service) : Prop
  | kept (same : s'.store.leasesOf name = s.store.leasesOf name)
  | dropped (own : LeaseId) (held : (s.sessionOf name).lease = some own)
      (rest : s'.store.leasesOf name = (s.store.leasesOf name).filter (· ≠ own))
  | obtained (t : Ticket) (id : LeaseId) (now : Moment) (handed : m = .completeAcquire t id now)
      (device : t.device.key = name.key)
      (rest : s'.store.leasesOf name = ((s.store.leasesOf name).filter fun other =>
        some other ≠ (s.sessionOf name).lease ∧ s.store.slot other ≠ s'.store.slot id) ++ [id])

theorem step_spares (slotted : s.store.Slotted) (allowed : s.Allows (.own m)) (apart : ¬ s.Collides (.own m))
    (name : Scalar) : s.Spares m name (s.step m).1 := by
  rcases s.step_store m with same | ⟨device, same⟩ | ⟨id, lease, -, same⟩ | ⟨t, id, now, x, rfl, current, same⟩
  · exact .kept (by rw [same])
  · have rest := slotted.leasesOf_without (s.sessionOf device).device name (s.sessionOf device).lease
    rw [s.sessionOf_device] at rest
    by_cases here : name.key = device.key
    · have lease : (s.sessionOf name).lease = (s.sessionOf device).lease := by rw [s.sessionOf_congr here]
      rw [if_pos here, ← same, ← lease] at rest
      cases own : (s.sessionOf name).lease with
      | none => exact .kept (by simpa [own] using rest)
      | some id => exact .dropped id own (by simpa [own] using rest)
    · rw [if_neg here, ← same] at rest
      exact .kept rest
  · exact .kept (by rw [same, Store.leasesOf_draft])
  · cases known : s.store.device? t.device with
    | none => exact .kept (by rw [same, s.storeObtained_unknown x.lease id now known, restamped_leasesOf])
    | some d =>
      have rest := storeObtained_leasesOf slotted allowed current apart known name
      by_cases here : name.key = t.device.key
      · have own : (s.sessionOf name).lease = x.lease := by
          rw [s.sessionOf_congr here, sessionOf_eq (currentSession?_some current).1]
        refine .obtained t id now rfl here.symm ?_
        rw [same, rest, if_pos here, own, s.storeObtained_slot t x.lease now allowed.1]
      · rw [if_neg here, ← same] at rest
        exact .kept rest

theorem act_slotted {e : Deed} (slotted : s.store.Slotted) (allowed : s.Allows e) (apart : ¬ s.Collides e) :
    (s.act e).store.Slotted := by
  cases e with
  | foreign m => exact slotted.step allowed
  | own m =>
    rw [act]
    rcases s.step_store m with same | ⟨device, same⟩ | ⟨id, lease, rfl, same⟩ | ⟨t, id, now, x, rfl, current, same⟩ <;>
      rw [same]
    · exact slotted
    · exact slotted.without _ _
    · exact slotted.write allowed
    · exact storeObtained_slotted slotted allowed current apart

/-- A collision shows in the lists. -/
theorem act_shared {e : Deed} (allowed : s.Allows e)
    (slots : ∀ name, (s.act e).store.table.Slotted ((s.act e).store.leasesOf name)) : ¬ s.Collides e := by
  cases e with
  | foreign m => exact id
  | own m =>
    cases m with
    | completeAcquire t id now =>
      intro collision
      obtain ⟨x, current⟩ := Option.isSome_iff_exists.mp collision.1
      rw [act, step, completeAcquire_current t id now current] at slots
      exact storeObtained_shared allowed current slots collision
    | _ => exact id

def Move.written? : Move → Option LeaseId
  | completeAcquire _ id _ => some id
  | draft id _ => some id
  | _ => none

theorem step_content (made : id < s.store.table.length) (other : m.written? ≠ some id) :
    (s.step m).1.store.lease id = s.store.lease id := by
  rcases s.step_store m with same | ⟨device, same⟩ | ⟨new, lease, rfl, same⟩ | ⟨t, new, now, x, rfl, current, same⟩ <;>
    rw [same]
  · exact s.store.without_lease _ _ id
  · exact s.store.lease_draft lease (fun equal => other (congrArg some equal.symm)) made
  · rw [storeObtained_lease, if_neg fun equal => other (congrArg some equal.1)]

theorem acts_slotted {deeds : List Deed} (slotted : s.store.Slotted) (allowed : s.Throughout Allows deeds)
    (apart : s.Throughout (fun s e => ¬ s.Collides e) deeds) : (deeds.foldl act s).store.Slotted := by
  induction deeds generalizing s with
  | nil => exact slotted
  | cons e rest ih => exact ih (act_slotted slotted allowed.1 apart.1) allowed.2 apart.2

theorem initial_slotted (devices : List (Scalar × Int)) (mode : Mode) : (initial devices mode).store.Slotted := by
  suffices keeps : ∀ s : Store, s.Slotted → (devices.foldl (fun s d => s.addDevice d.1 d.2) s).Slotted from
    keeps Store.empty .empty
  induction devices with
  | nil => exact fun _ slotted => slotted
  | cons first rest ih => exact fun s slotted => ih _ (slotted.register first.1 first.2)

/-- Whatever the service is asked and others do to the leases meanwhile: no device has two leases for a slot, and none
twice; the service takes from a device only its session's lease and what had the slot of the lease that it acquired,
and writes no other lease. That is so as long as no lease that is renewed in place gets a slot that another lease has
on a device which holds both; and where one does, a slot is shared or a lease stands twice afterwards. -/
theorem run_spares_foreign (devices : List (Scalar × Int)) (mode : Mode) (deeds : List Deed)
    (allowed : (initial devices mode).Throughout Allows deeds)
    (apart : (initial devices mode).Throughout (fun s e => ¬ s.Collides e) deeds) :
    let s := deeds.foldl act (initial devices mode)
    (∀ name, ((s.store.leasesOf name).map s.store.slot).Nodup) ∧
    (∀ m, s.Allows (.own m) → ¬ s.Collides (.own m) → (∀ name, s.Spares m name (s.step m).1) ∧
      ∀ id < s.store.table.length, m.written? ≠ some id → (s.step m).1.store.lease id = s.store.lease id) ∧
    ∀ e, s.Allows e →
      ((∀ name, (((s.act e).store.leasesOf name).map (s.act e).store.slot).Nodup) ↔ ¬ s.Collides e) := by
  intro s
  have slotted : s.store.Slotted := acts_slotted (initial_slotted devices mode) allowed apart
  refine ⟨slotted.slots, fun m allowed apart => ⟨step_spares slotted allowed apart, fun id => step_content⟩, ?_⟩
  exact fun e allowed => ⟨act_shared allowed, fun apart => (act_slotted slotted allowed apart).slots⟩

/-- The service renews its lease beside one of the other family. The next request is for that family: a new lease takes
the place of both, and the renewed lease collides. -/
theorem renewed_beside_foreign :
    let eth0 : Scalar := .str "eth0"
    let asked (family : String) : Value := .map [(.str "family", .str family)]
    let ticket (n : Nat) (family : String) : Ticket :=
      ⟨eth0, n, (Request.ofOptions (.lenient (List.replicate 16 1)) (asked family)).toOption⟩
    let deeds : List Deed := [
      .foreign (.write 0 { Lease.blank .dhcp with family := .ipv6 }), .foreign (.add eth0 0),
      .own (.draft 1 (.blank .dhcp)), .own (.draft 2 (.blank .dhcp)),
      .own (.acquire eth0 (asked "ipv4") (.lenient (List.replicate 16 1)) .accepted),
      .own (.completeAcquire (ticket 1 "ipv4") 1 default),
      .own (.acquire eth0 (asked "ipv4") (.lenient (List.replicate 16 1)) .accepted),
      .own (.completeAcquire (ticket 2 "ipv4") 1 default),
      .own (.acquire eth0 (asked "ipv6") (.lenient (List.replicate 16 1)) .accepted)]
    let s := deeds.foldl act (initial [(eth0, 1)] .dhcp)
    (initial [(eth0, 1)] .dhcp).Throughout Allows deeds ∧
      (initial [(eth0, 1)] .dhcp).Throughout (fun s e => ¬ s.Collides e) deeds ∧
      s.store.leasesOf eth0 = [0, 1] ∧
      s.Spares (.completeAcquire (ticket 3 "ipv6") 2 default) eth0
        (s.step (.completeAcquire (ticket 3 "ipv6") 2 default)).1 ∧
      (s.step (.completeAcquire (ticket 3 "ipv6") 2 default)).1.store.leasesOf eth0 = [2] ∧
      ¬ ∀ name, (((s.act (.own (.completeAcquire (ticket 3 "ipv6") 1 default))).store.leasesOf name).map
        (s.act (.own (.completeAcquire (ticket 3 "ipv6") 1 default))).store.slot).Nodup := by
  intro eth0 asked ticket deeds s
  have allowed : (initial [(eth0, 1)] .dhcp).Throughout Allows deeds := by decide +kernel
  have apart : (initial [(eth0, 1)] .dhcp).Throughout (fun s e => ¬ s.Collides e) deeds := by decide +kernel
  obtain ⟨-, spares, shared⟩ := run_spares_foreign [(eth0, 1)] .dhcp deeds allowed apart
  refine ⟨allowed, apart, by decide +kernel, ?_, by decide +kernel, ?_⟩
  · exact (spares _ (by decide +kernel) (by decide +kernel)).1 eth0
  · exact fun slots => (shared _ (by decide +kernel)).mp slots (by decide +kernel)

/-- Whichever of the two leases is the older one on the device, it ends badly: the renewed lease stands twice, or both
have the slot. -/
theorem renewed_onto_foreign :
    let eth0 : Scalar := .str "eth0"
    let asked (family : String) : Value := .map [(.str "family", .str family)]
    let ticket (n : Nat) (family : String) : Ticket :=
      ⟨eth0, n, (Request.ofOptions (.lenient (List.replicate 16 1)) (asked family)).toOption⟩
    let written : List Deed := [
      .foreign (.write 0 { Lease.blank .dhcp with family := .ipv6 }), .own (.draft 1 (.blank .dhcp))]
    let stored : List Deed := [.foreign (.add eth0 0)]
    let acquired : List Deed := [
      .own (.acquire eth0 (asked "ipv4") (.lenient (List.replicate 16 1)) .accepted),
      .own (.completeAcquire (ticket 1 "ipv4") 1 default)]
    let renewed : List Deed := [
      .own (.acquire eth0 (asked "ipv6") (.lenient (List.replicate 16 1)) .accepted),
      .own (.completeAcquire (ticket 2 "ipv6") 1 default)]
    let begun := initial [(eth0, 1)] .dhcp
    let s := (written ++ stored ++ acquired ++ renewed).foldl act begun
    let s' := (written ++ acquired ++ stored ++ renewed).foldl act begun
    begun.Throughout Allows (written ++ stored ++ acquired ++ renewed) ∧ s.store.leasesOf eth0 = [1, 1] ∧
      begun.Throughout Allows (written ++ acquired ++ stored ++ renewed) ∧ s'.store.leasesOf eth0 = [0, 1] ∧
      s'.store.slot 0 = s'.store.slot 1 := by
  decide +kernel

end Service

end Leasehold
