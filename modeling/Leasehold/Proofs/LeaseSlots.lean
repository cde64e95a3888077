import Leasehold.Proofs.LeaseEvents
import Mathlib.Data.List.Nodup

/-! The leases of a device are an ordered map: protocol and family of a lease are the slot that it takes, a slot has
one lease at most, and the lease that was added last stands last. That is so whatever else the leases have in common:
a lease goes by its content in one place and by its name in another, and both find the same one. -/

namespace Leasehold

def Lease.slot (lease : Lease) : Mode × Family := (lease.mode, lease.family)

def Store.slot (s : Store) (id : LeaseId) : Mode × Family := (s.lease id).slot

namespace LeaseTable

def Slotted (table : LeaseTable) (leases : List LeaseId) : Prop :=
  (leases.map fun id => (table.get id).slot).Nodup

def putLast (table : LeaseTable) (leases : List LeaseId) (id : LeaseId) : List LeaseId :=
  leases.filter (fun other => (table.get other).slot ≠ (table.get id).slot) ++ [id]

variable {table table' : LeaseTable} {leases : List LeaseId} {id other : LeaseId}

theorem Slotted.nodup (slotted : table.Slotted leases) : leases.Nodup := .of_map _ slotted

theorem Slotted.unique (slotted : table.Slotted leases) (here : id ∈ leases) (there : other ∈ leases)
    (same : (table.get id).slot = (table.get other).slot) : id = other :=
  List.inj_on_of_nodup_map slotted here there same

theorem Slotted.sublist {fewer : List LeaseId} (slotted : table.Slotted leases) (part : fewer.Sublist leases) :
    table.Slotted fewer :=
  List.Nodup.sublist (part.map _) slotted

theorem Slotted.congr (slotted : table.Slotted leases)
    (same : ∀ id ∈ leases, (table'.get id).slot = (table.get id).slot) : table'.Slotted leases := by
  unfold Slotted
  rw [List.map_congr_left same]
  exact slotted

theorem Slotted.putLast (slotted : table.Slotted leases) (id : LeaseId) : table.Slotted (table.putLast leases id) := by
  unfold Slotted LeaseTable.putLast
  rw [List.map_append, List.nodup_append]
  refine ⟨slotted.sublist List.filter_sublist, List.nodup_singleton _, ?_⟩
  intro slot kept last added
  obtain ⟨other, member, rfl⟩ := List.mem_map.mp kept
  rw [List.map_singleton, List.mem_singleton] at added
  rw [added]
  simpa using (List.mem_filter.mp member).2

theorem mem_putLast : other ∈ table.putLast leases id ↔
    other = id ∨ other ∈ leases ∧ (table.get other).slot ≠ (table.get id).slot := by
  simp [putLast, or_comm]

end LeaseTable

namespace Device

variable {d : Device} {table : LeaseTable} {id old : LeaseId} {mode : Mode} {family : Family}

theorem findLease?_eq (d : Device) (table : LeaseTable) (mode : Mode) (family : Family) :
    d.findLease? table mode family = d.leases.find? fun id => (table.get id).slot = (mode, family) := by
  simp only [findLease?, Lease.slot, Prod.mk.injEq, Bool.decide_and]

theorem replaced?_eq (d : Device) (table : LeaseTable) (id : LeaseId) :
    d.replaced? table id = d.leases.find? fun other => (table.get other).slot = (table.get id).slot :=
  d.findLease?_eq table _ _

theorem findLease?_some (slotted : table.Slotted d.leases) :
    d.findLease? table mode family = some id ↔ id ∈ d.leases ∧ (table.get id).slot = (mode, family) := by
  rw [findLease?_eq]
  constructor
  · intro found
    exact ⟨List.mem_of_find?_eq_some found, by simpa using List.find?_some found⟩
  · rintro ⟨member, same⟩
    cases found : d.leases.find? fun id => (table.get id).slot = (mode, family) with
    | none => exact absurd same (by simpa using List.find?_eq_none.mp found id member)
    | some other =>
      have slot : (table.get other).slot = (mode, family) := by simpa using List.find?_some found
      rw [slotted.unique (List.mem_of_find?_eq_some found) member (slot.trans same.symm)]

/-- Whoever looks for the content of the first lease of a slot finds that lease: those before it are of other slots. -/
private theorem eraseP_content {leases : List LeaseId} {slot : Mode × Family}
    (found : (leases.find? fun other => (table.get other).slot = slot) = some old) :
    leases.eraseP (fun other => table.get other = table.get old) = leases.erase old := by
  have slotOld : (table.get old).slot = slot := by simpa using List.find?_some found
  induction leases with
  | nil => cases found
  | cons first rest ih =>
    by_cases here : (table.get first).slot = slot
    · rw [List.find?_cons_of_pos (by simpa using here)] at found
      obtain rfl := Option.some.inj found
      simp
    · rw [List.find?_cons_of_neg (by simpa using here)] at found
      have content : table.get first ≠ table.get old := fun same => here (same ▸ slotOld)
      have name : first ≠ old := fun same => content (congrArg _ same)
      rw [List.eraseP_cons_of_neg (by simpa using content), List.erase_cons_tail (by simpa using name), ih found]

/-- The lease that is replaced is the very one that was found. -/
theorem addLease_replaced (found : d.replaced? table id = some old) :
    (d.addLease table id).leases = d.leases.erase old ++ [id] := by
  have first := found
  rw [replaced?_eq] at first
  simp only [addLease, found, eraseP_content first]

theorem addLease_new (none : d.replaced? table id = none) : (d.addLease table id).leases = d.leases ++ [id] := by
  simp only [addLease, none]

theorem addLease_slotted (slotted : table.Slotted d.leases) :
    (d.addLease table id).leases = table.putLast d.leases id := by
  unfold LeaseTable.putLast
  cases found : d.replaced? table id with
  | none =>
    rw [addLease_new found, List.filter_eq_self.mpr]
    rw [replaced?_eq] at found
    simpa using List.find?_eq_none.mp found
  | some old =>
    rw [addLease_replaced found, slotted.nodup.erase_eq_filter]
    rw [replaced?_eq] at found
    have slot : (table.get old).slot = (table.get id).slot := by simpa using List.find?_some found
    refine congrArg (· ++ [id]) (List.filter_congr fun other member => ?_)
    have apart : other ≠ old ↔ (table.get other).slot ≠ (table.get id).slot :=
      not_congr ⟨fun same => same ▸ slot, fun same =>
        slotted.unique member (List.mem_of_find?_eq_some found) (same.trans slot.symm)⟩
    exact Bool.eq_iff_iff.mpr (by simpa using apart)

end Device

namespace Store

/-- What can happen to a store: a device is registered, a lease is put on a device or taken from it, or a lease is made
or written. -/
inductive Move
  | register (name : Scalar) (ifindex : Int)
  | add (device : Scalar) (id : LeaseId)
  | remove (device : Scalar) (id : LeaseId)
  | write (id : LeaseId) (lease : Lease)

/-- What was done to the devices, each of them by its key. -/
inductive Entry
  | registered (name : Scalar)
  | stored (device : Key) (slot : Mode × Family) (id : LeaseId)
  | taken (device : Key) (id : LeaseId)

def step (s : Store) : Move → Store × List Entry
  | .register name ifindex =>
    (s.addDevice name ifindex, if s.devices.any fun d => d.name.same name then [] else [.registered name])
  | .add device id =>
    match s.addLease device id with
    | .ok (_, after) => (after, [.stored device.key (s.slot id) id])
    | .error _ => (s, [])
  | .remove device id =>
    match s.removeLease device id with
    | .ok (_, after) => (after, [.taken device.key id])
    | .error _ => (s, [])
  | .write id lease => (s.draft id lease, [])

def run (s : Store) : List Move → Store × List Entry
  | [] => (s, [])
  | m :: rest => (((s.step m).1.run rest).1, (s.step m).2 ++ ((s.step m).1.run rest).2)

/-- A lease that is stored is there, and it keeps its slot as long as a device holds it. NaN, which equals no name, is
none. -/
def Permits (s : Store) : Move → Prop
  | .register name _ => name.isNaN = false
  | .add _ id => id < s.table.length
  | .remove _ _ => True
  | .write id lease => s.Holds id → lease.slot = s.slot id

def PermitsAll (s : Store) : List Move → Prop
  | [] => True
  | m :: rest => s.Permits m ∧ (s.step m).1.PermitsAll rest

instance (s : Store) : (m : Move) → Decidable (s.Permits m)
  | .register name _ => inferInstanceAs (Decidable (name.isNaN = false))
  | .add _ id => inferInstanceAs (Decidable (id < s.table.length))
  | .remove _ _ => isTrue trivial
  | .write id lease => inferInstanceAs (Decidable (s.Holds id → lease.slot = s.slot id))

instance decidablePermitsAll (s : Store) : (moves : List Move) → Decidable (s.PermitsAll moves)
  | [] => isTrue trivial
  | m :: rest =>
    have := decidablePermitsAll (s.step m).1 rest
    inferInstanceAs (Decidable (s.Permits m ∧ (s.step m).1.PermitsAll rest))

namespace Entry

def registered? : Entry → Option Scalar
  | registered name => some name
  | _ => none

/-- A lease has no longer the slot of a device: another one was stored there, or it was taken away. -/
def Ends (e : Entry) (device : Key) (slot : Mode × Family) (id : LeaseId) : Prop :=
  (∃ other, e = .stored device slot other) ∨ e = .taken device id

end Entry

/-- A lease was stored in a slot of a device, and nothing ended that since. -/
def Stands (history : List Entry) (device : Key) (slot : Mode × Family) (id : LeaseId) : Prop :=
  ∃ before after, history = before ++ .stored device slot id :: after ∧ ∀ e ∈ after, ¬ e.Ends device slot id

variable {s : Store} {history : List Entry} {name other : Scalar} {d : Device} {device : Key} {slot : Mode × Family}
  {id : LeaseId}

theorem stands_append (history : List Entry) (e : Entry) : Stands (history ++ [e]) device slot id ↔
    e = .stored device slot id ∨ ¬ e.Ends device slot id ∧ Stands history device slot id := by
  constructor
  · rintro ⟨before, after, split, kept⟩
    obtain rfl | ⟨front, last, rfl⟩ := after.eq_nil_or_concat
    · obtain ⟨-, same⟩ := List.append_inj' split rfl
      exact Or.inl (List.cons.inj same).1
    · rw [List.concat_eq_append, ← List.cons_append, ← List.append_assoc] at split
      obtain ⟨earlier, same⟩ := List.append_inj' split rfl
      obtain rfl := (List.cons.inj same).1
      rw [List.concat_eq_append, List.forall_mem_append] at kept
      exact Or.inr ⟨kept.2 _ (List.mem_singleton_self _), before, front, earlier, kept.1⟩
  · rintro (rfl | ⟨kept, before, after, rfl, others⟩)
    · exact ⟨history, [], rfl, by simp⟩
    · refine ⟨before, after ++ [e], by simp, ?_⟩
      exact List.forall_mem_append.mpr ⟨others, List.forall_mem_singleton.mpr kept⟩

theorem stands_stored (history : List Entry) (other : Key) (taken : Mode × Family) (new : LeaseId) :
    Stands (history ++ [.stored other taken new]) device slot id ↔
      if other = device ∧ taken = slot then id = new else Stands history device slot id := by
  rw [stands_append]
  split
  next here =>
    obtain ⟨rfl, rfl⟩ := here
    simp [Entry.Ends, eq_comm]
  next elsewhere =>
    have kept : ¬ (Entry.stored other taken new).Ends device slot id := by
      rintro (⟨_, same⟩ | same)
      · cases same
        exact elsewhere ⟨rfl, rfl⟩
      · cases same
    refine ⟨?_, fun stands => Or.inr ⟨kept, stands⟩⟩
    rintro (same | ⟨-, stands⟩)
    · cases same
      exact absurd ⟨rfl, rfl⟩ elsewhere
    · exact stands

theorem stands_taken (history : List Entry) (other : Key) (gone : LeaseId) :
    Stands (history ++ [.taken other gone]) device slot id ↔
      ¬ (other = device ∧ gone = id) ∧ Stands history device slot id := by
  rw [stands_append]
  simp [Entry.Ends]

theorem device?_congr (s : Store) (same : name.key = other.key) : s.device? name = s.device? other := by
  simp only [device?, Scalar.isKey, same]

theorem leasesOf_congr (s : Store) (same : name.key = other.key) : s.leasesOf name = s.leasesOf other := by
  rw [leasesOf, leasesOf, s.device?_congr same]

theorem leasesOf_eq (found : s.device? name = some d) : s.leasesOf name = d.leases := by
  simp [leasesOf, found]

theorem device_ok (found : s.device? name = some d) : s.device name = .ok d := by
  simp [Store.device, found]

theorem device?_modifyDevice (s : Store) (name other : Scalar) (change : Device → Device)
    (named : ∀ d, (change d).name = d.name) : (s.modifyDevice name change).device? other =
      (s.device? other).map fun d => if d.name.isKey name then change d else d := by
  have kept : (fun d : Device => d.name.isKey other) ∘ (fun d => if d.name.isKey name then change d else d) =
      fun d => d.name.isKey other := by
    funext d
    simp only [Function.comp_apply]
    split
    · rw [named]
    · rfl
  simp only [device?, modifyDevice, List.find?_map, kept]

/-- Changing one device leaves the leases of all others alone. -/
theorem leasesOf_modifyDevice (found : s.device? name = some d) (other : Scalar) (change : Device → Device)
    (named : ∀ d, (change d).name = d.name) : (s.modifyDevice name change).leasesOf other =
      if other.key = name.key then (change d).leases else s.leasesOf other := by
  simp only [leasesOf, s.device?_modifyDevice name other change named]
  split
  next same =>
    rw [s.device?_congr same, found]
    simp [Scalar.isKey, device?_key found]
  next different =>
    cases there : s.device? other with
    | none => rfl
    | some e =>
      have apart : e.name.key ≠ name.key := device?_key there ▸ different
      simp [Scalar.isKey, apart]

theorem mem_leasesOf_holds (held : id ∈ s.leasesOf name) : s.Holds id := by
  unfold leasesOf at held
  cases found : s.device? name with
  | none => simp [found] at held
  | some d =>
    rw [found] at held
    exact ⟨d, List.mem_of_find?_eq_some found, held⟩

def names (s : Store) : List Scalar := s.devices.map Device.name

theorem modifyDevice_names (s : Store) (name : Scalar) (change : Device → Device)
    (named : ∀ d, (change d).name = d.name) : (s.modifyDevice name change).names = s.names := by
  simp only [names, modifyDevice, List.map_map]
  refine List.map_congr_left fun d _ => ?_
  simp only [Function.comp_apply]
  split
  · exact named d
  · rfl

/-- Whether a device is not there or holds nothing is no difference for its leases. -/
theorem leasesOf_addDevice (s : Store) (name other : Scalar) (ifindex : Int) :
    (s.addDevice name ifindex).leasesOf other = s.leasesOf other := by
  unfold addDevice
  split
  · rfl
  · simp only [leasesOf, device?, List.find?_append, List.find?_singleton]
    cases s.devices.find? fun d => d.name.isKey other with
    | some d => rfl
    | none => split <;> rfl

theorem addDevice_table (s : Store) (name : Scalar) (ifindex : Int) : (s.addDevice name ifindex).table = s.table := by
  unfold addDevice
  split <;> rfl

theorem leasesOf_draft (s : Store) (id : LeaseId) (lease : Lease) (name : Scalar) :
    (s.draft id lease).leasesOf name = s.leasesOf name := by
  simp only [leasesOf, device?, draft_devices]

structure Slotted (s : Store) : Prop where
  made : ∀ name, ∀ id ∈ s.leasesOf name, id < s.table.length
  slots : ∀ name, s.table.Slotted (s.leasesOf name)

theorem Slotted.here (slotted : s.Slotted) (found : s.device? name = some d) : s.table.Slotted d.leases :=
  leasesOf_eq found ▸ slotted.slots name

theorem Slotted.empty : Store.empty.Slotted where
  made := by simp [Store.empty, leasesOf, device?]
  slots := fun _ => List.nodup_nil

theorem Slotted.register (slotted : s.Slotted) (name : Scalar) (ifindex : Int) :
    (s.addDevice name ifindex).Slotted := by
  constructor <;> intro other <;> rw [leasesOf_addDevice, addDevice_table]
  · exact slotted.made other
  · exact slotted.slots other

theorem Slotted.leasesOf_add (slotted : s.Slotted) (found : s.device? name = some d) (id : LeaseId)
    (other : Scalar) : (s.modifyDevice name fun d => d.addLease s.table id).leasesOf other =
      if other.key = name.key then s.table.putLast d.leases id else s.leasesOf other := by
  rw [leasesOf_modifyDevice found other (fun d => d.addLease s.table id) fun _ => rfl,
    Device.addLease_slotted (slotted.here found)]

theorem Slotted.add (slotted : s.Slotted) (found : s.device? name = some d) {id : LeaseId}
    (made : id < s.table.length) : (s.modifyDevice name fun d => d.addLease s.table id).Slotted := by
  constructor <;> intro other <;> rw [slotted.leasesOf_add found]
  · intro member held
    split at held
    · rcases LeaseTable.mem_putLast.mp held with rfl | ⟨held, -⟩
      · exact made
      · exact slotted.made name member (leasesOf_eq found ▸ held)
    · exact slotted.made other member held
  · split
    · exact (slotted.here found).putLast id
    · exact slotted.slots other

theorem leasesOf_remove (found : s.device? name = some d) (id : LeaseId) (other : Scalar) :
    (s.modifyDevice name fun d => d.removeLease id).leasesOf other =
      if other.key = name.key then d.leases.erase id else s.leasesOf other :=
  leasesOf_modifyDevice found other (fun d => d.removeLease id) fun _ => rfl

theorem Slotted.remove (slotted : s.Slotted) (found : s.device? name = some d) (id : LeaseId) :
    (s.modifyDevice name fun d => d.removeLease id).Slotted := by
  constructor <;> intro other <;> rw [leasesOf_remove found]
  · intro member held
    split at held
    · exact slotted.made name member (leasesOf_eq found ▸ List.mem_of_mem_erase held)
    · exact slotted.made other member held
  · split
    · exact (slotted.here found).sublist List.erase_sublist
    · exact slotted.slots other

theorem Slotted.slot_draft (slotted : s.Slotted) {id other : LeaseId} {lease : Lease}
    (kept : s.Holds id → lease.slot = s.slot id) (held : other ∈ s.leasesOf name) :
    (s.draft id lease).slot other = s.slot other := by
  have inside := slotted.made name other held
  by_cases same : other = id
  · subst same
    rw [Store.slot, draft, if_pos inside, lease_setLease, if_pos ⟨rfl, inside⟩]
    exact kept (mem_leasesOf_holds held)
  · rw [Store.slot, s.lease_draft lease same inside]
    rfl

theorem Slotted.write (slotted : s.Slotted) {id : LeaseId} {lease : Lease}
    (kept : s.Holds id → lease.slot = s.slot id) : (s.draft id lease).Slotted := by
  constructor <;> intro name <;> rw [leasesOf_draft]
  · exact fun other held => Nat.lt_of_lt_of_le (slotted.made name other held) (s.length_draft id lease)
  · exact (slotted.slots name).congr fun other held => slotted.slot_draft kept held

theorem Slotted.step (slotted : s.Slotted) {m : Move} (permitted : s.Permits m) : (s.step m).1.Slotted := by
  cases m with
  | register name ifindex => exact slotted.register name ifindex
  | add device id =>
    simp only [Store.step, addLease, Store.device]
    cases found : s.device? device with
    | none => exact slotted
    | some d => exact slotted.add found permitted
  | remove device id =>
    simp only [Store.step, removeLease, Store.device]
    cases found : s.device? device with
    | none => exact slotted
    | some d => exact slotted.remove found id
  | write id lease => exact slotted.write permitted

/-- The devices are known by their names and stand in the order of their registration, and what they hold is what was
stored and stands. -/
structure Mapped (s : Store) (history : List Entry) : Prop extends s.Slotted where
  named : ∀ name ∈ s.names, name.isNaN = false
  apart : (s.names.map Scalar.key).Nodup
  registered : s.names = history.filterMap Entry.registered?
  standing : ∀ name slot id, Stands history name.key slot id ↔ id ∈ s.leasesOf name ∧ s.slot id = slot

theorem Mapped.empty : Store.empty.Mapped [] where
  toSlotted := .empty
  named := by simp [names, Store.empty]
  apart := by simp [names, Store.empty]
  registered := rfl
  standing := by simp [Stands, Store.empty, leasesOf, device?]

theorem Mapped.register (mapped : s.Mapped history) {name : Scalar} (ifindex : Int) (text : name.isNaN = false) :
    (s.addDevice name ifindex).Mapped
      (history ++ if s.devices.any fun d => d.name.same name then [] else [.registered name]) := by
  by_cases known : s.devices.any fun d => d.name.same name
  · rw [addDevice, if_pos known, if_pos known, List.append_nil]
    exact mapped
  · have fresh : name.key ∉ s.names.map Scalar.key := by
      intro present
      obtain ⟨_, listed, same⟩ := List.mem_map.mp present
      obtain ⟨d, member, rfl⟩ := List.mem_map.mp listed
      refine known (List.any_eq_true.mpr ⟨d, member, ?_⟩)
      simp [Scalar.same, Scalar.isKey, same, mapped.named _ listed]
    have names : (s.addDevice name ifindex).names = s.names ++ [name] := by
      simp [Store.names, addDevice, known]
    have kept (device : Key) (slot : Mode × Family) (id : LeaseId) :
        Stands (history ++ [.registered name]) device slot id ↔ Stands history device slot id := by
      rw [stands_append]
      simp [Entry.Ends]
    have slot : (s.addDevice name ifindex).slot = s.slot := by
      funext id
      simp only [Store.slot, Store.lease, addDevice_table]
    rw [if_neg known]
    refine ⟨mapped.toSlotted.register name ifindex, ?_, ?_, ?_, ?_⟩
    · rw [names]
      exact List.forall_mem_append.mpr ⟨mapped.named, List.forall_mem_singleton.mpr text⟩
    · rw [names, List.map_append, List.map_singleton]
      simpa using mapped.apart.concat fresh
    · rw [names, mapped.registered, List.filterMap_append]
      rfl
    · intro other wanted id
      rw [kept, leasesOf_addDevice, slot]
      exact mapped.standing other wanted id

theorem Mapped.add (mapped : s.Mapped history) (found : s.device? name = some d) {id : LeaseId}
    (made : id < s.table.length) : (s.modifyDevice name fun d => d.addLease s.table id).Mapped
      (history ++ [.stored name.key (s.slot id) id]) := by
  have names := s.modifyDevice_names name (fun d => d.addLease s.table id) fun _ => rfl
  refine ⟨mapped.toSlotted.add found made, names ▸ mapped.named, names ▸ mapped.apart, ?_, ?_⟩
  · rw [names, mapped.registered, List.filterMap_append]
    exact (List.append_nil _).symm
  · intro other slot member
    rw [stands_stored, mapped.leasesOf_add found]
    by_cases same : other.key = name.key
    · rw [if_pos same, LeaseTable.mem_putLast]
      by_cases taken : s.slot id = slot
      · rw [if_pos ⟨same.symm, taken⟩]
        constructor
        · rintro rfl
          exact ⟨Or.inl rfl, taken⟩
        · rintro ⟨rfl | ⟨-, different⟩, equal⟩
          · rfl
          · exact absurd (equal.trans taken.symm) different
      · rw [if_neg fun both => taken both.2, mapped.standing, s.leasesOf_congr same, leasesOf_eq found]
        constructor
        · rintro ⟨held, equal⟩
          exact ⟨Or.inr ⟨held, fun same => taken (same.symm.trans equal)⟩, equal⟩
        · rintro ⟨rfl | ⟨held, -⟩, equal⟩
          · exact absurd equal taken
          · exact ⟨held, equal⟩
    · rw [if_neg same, if_neg fun both => same both.1.symm]
      exact mapped.standing other slot member

theorem Mapped.remove (mapped : s.Mapped history) (found : s.device? name = some d) (id : LeaseId) :
    (s.modifyDevice name fun d => d.removeLease id).Mapped (history ++ [.taken name.key id]) := by
  have names := s.modifyDevice_names name (fun d => d.removeLease id) fun _ => rfl
  refine ⟨mapped.toSlotted.remove found id, names ▸ mapped.named, names ▸ mapped.apart, ?_, ?_⟩
  · rw [names, mapped.registered, List.filterMap_append]
    exact (List.append_nil _).symm
  · intro other slot member
    change _ ↔ _ ∧ s.slot member = slot
    rw [stands_taken, leasesOf_remove found, mapped.standing]
    by_cases same : other.key = name.key
    · rw [if_pos same, s.leasesOf_congr same, leasesOf_eq found, (mapped.here found).nodup.mem_erase_iff]
      simp only [same, true_and, ne_eq, eq_comm (a := id), and_assoc]
    · rw [if_neg same]
      simp [Ne.symm same]

theorem Mapped.write (mapped : s.Mapped history) {id : LeaseId} {lease : Lease}
    (kept : s.Holds id → lease.slot = s.slot id) : (s.draft id lease).Mapped history := by
  have names : (s.draft id lease).names = s.names := by
    simp only [Store.names, draft_devices]
  refine ⟨mapped.toSlotted.write kept, names ▸ mapped.named, names ▸ mapped.apart, names ▸ mapped.registered, ?_⟩
  intro name wanted other
  rw [leasesOf_draft, mapped.standing]
  exact and_congr_right fun held => by rw [mapped.slot_draft kept held]

/-- What every move does to a store, it does to the map. -/
theorem Mapped.step (mapped : s.Mapped history) {m : Move} (permitted : s.Permits m) :
    (s.step m).1.Mapped (history ++ (s.step m).2) := by
  cases m with
  | register name ifindex => exact mapped.register ifindex permitted
  | add device id =>
    simp only [Store.step, addLease, Store.device]
    cases found : s.device? device with
    | none => simpa using mapped
    | some d => exact mapped.add found permitted
  | remove device id =>
    simp only [Store.step, removeLease, Store.device]
    cases found : s.device? device with
    | none => simpa using mapped
    | some d => exact mapped.remove found id
  | write id lease =>
    simp only [Store.step, List.append_nil]
    exact mapped.write permitted

theorem Mapped.run (mapped : s.Mapped history) {moves : List Move} (permitted : s.PermitsAll moves) :
    (s.run moves).1.Mapped (history ++ (s.run moves).2) := by
  induction moves generalizing s history with
  | nil => simpa [Store.run] using mapped
  | cons m rest ih =>
    simp only [Store.run, ← List.append_assoc]
    exact ih (mapped.step permitted.1) permitted.2

def withLeases (s : Store) (name : Scalar) (leases : List LeaseId) : Store :=
  s.modifyDevice name fun d => { d with leases := leases }

theorem Mapped.device_unique (mapped : s.Mapped history) (found : s.device? name = some d) {e : Device}
    (member : e ∈ s.devices) (same : e.name.key = name.key) : e = d := by
  have apart : (s.devices.map fun d => d.name.key).Nodup := by
    simpa [Store.names, Function.comp_def] using mapped.apart
  exact List.inj_on_of_nodup_map apart member (List.mem_of_find?_eq_some found) (same.trans (device?_key found).symm)

theorem Mapped.leasesOf_name (mapped : s.Mapped history) (member : d ∈ s.devices) : s.leasesOf d.name = d.leases := by
  cases found : s.device? d.name with
  | none => exact absurd (List.find?_eq_none.mp found d member) (by simp [Scalar.isKey])
  | some e => rw [leasesOf_eq found, mapped.device_unique found member rfl]

/-- A change of what one device holds, whatever it is computed from. -/
theorem Mapped.modifyDevice_eq (mapped : s.Mapped history) (found : s.device? name = some d)
    (change : Device → Device) (changed : change d = { d with leases := (change d).leases }) :
    s.modifyDevice name change = s.withLeases name (change d).leases := by
  refine congrArg (fun devices => { s with devices := devices }) (List.map_congr_left fun e member => ?_)
  split
  next same =>
    obtain rfl := mapped.device_unique found member (by simpa [Scalar.isKey] using same)
    exact changed
  next => rfl

theorem Mapped.withLeases_same (mapped : s.Mapped history) (found : s.device? name = some d) :
    s.withLeases name d.leases = s := by
  refine (mapped.modifyDevice_eq found (fun d => d) rfl).symm.trans ?_
  simp [modifyDevice]

theorem Mapped.addLease (mapped : s.Mapped history) (found : s.device? name = some d) (id : LeaseId) :
    s.addLease name id = .ok (d.replaced? s.table id, s.withLeases name (s.table.putLast d.leases id)) := by
  rw [← Device.addLease_slotted (mapped.here found), ← mapped.modifyDevice_eq found (fun d => d.addLease s.table id) rfl,
    Store.addLease, device_ok found]
  rfl

theorem Mapped.removeLease (mapped : s.Mapped history) (found : s.device? name = some d) (id : LeaseId) :
    s.removeLease name id = .ok (d.leases.contains id, s.withLeases name (d.leases.filter (· ≠ id))) := by
  have left : (d.removeLease id).leases = d.leases.filter (· ≠ id) := by
    rw [Device.removeLease, (mapped.here found).nodup.erase_eq_filter]
    simp [bne, Bool.beq_eq_decide_eq]
  rw [← left, ← mapped.modifyDevice_eq found (fun d => d.removeLease id) rfl, Store.removeLease, device_ok found]
  rfl

theorem Mapped.findLease? (mapped : s.Mapped history) (found : s.device? name = some d) (mode : Mode)
    (family : Family) (id : LeaseId) :
    d.findLease? s.table mode family = some id ↔ Stands history name.key (mode, family) id := by
  rw [Device.findLease?_some (mapped.here found), mapped.standing, leasesOf_eq found]
  rfl

/-- The devices in the order of their registration, each with the leases that stand there. -/
theorem Mapped.held_eq (mapped : s.Mapped history) : s.held =
    (history.filterMap Entry.registered?).flatMap fun name => (s.leasesOf name).map fun id => (name, id) := by
  rw [← mapped.registered, names, List.flatMap_map, held]
  refine List.flatMap_congr fun d member => ?_
  rw [mapped.leasesOf_name member]

theorem Mapped.held_nodup (mapped : s.Mapped history) : s.held.Nodup := by
  rw [mapped.held_eq, ← mapped.registered, List.nodup_flatMap]
  refine ⟨fun name _ => (mapped.slots name).nodup.map fun _ _ same => (Prod.mk.inj same).2, ?_⟩
  refine (List.Nodup.of_map _ mapped.apart).imp fun different => ?_
  rintro ⟨name, id⟩ first second
  obtain ⟨_, -, same⟩ := List.mem_map.mp first
  obtain ⟨_, -, same'⟩ := List.mem_map.mp second
  exact different ((Prod.mk.inj same).1.trans (Prod.mk.inj same').1.symm)

theorem Mapped.mem_held (mapped : s.Mapped history) (name : Scalar) (id : LeaseId) : (name, id) ∈ s.held ↔
    .registered name ∈ history ∧ ∃ slot, Stands history name.key slot id := by
  have listed : name ∈ history.filterMap Entry.registered? ↔ .registered name ∈ history := by
    rw [List.mem_filterMap]
    constructor
    · rintro ⟨_ | _ | _, member, same⟩ <;> cases same
      exact member
    · exact fun member => ⟨_, member, rfl⟩
  rw [mapped.held_eq, List.mem_flatMap, ← listed]
  constructor
  · rintro ⟨_, member, paired⟩
    obtain ⟨_, held, same⟩ := List.mem_map.mp paired
    cases same
    exact ⟨member, _, (mapped.standing name _ id).mpr ⟨held, rfl⟩⟩
  · rintro ⟨member, slot, stands⟩
    exact ⟨name, member, List.mem_map.mpr ⟨id, ((mapped.standing name slot id).mp stands).1, rfl⟩⟩

/-- The leases of every device are an ordered map, however they were stored and taken, and whether or not some of
them are equal. A slot has one lease at most. What is found in a slot, and what is replaced there, is the lease that was
stored last and stands; the new lease is put last, and the others keep their order. A lease is taken by its name, or
nothing happens at all. All leases of all devices are listed once. -/
theorem run_leases_by_slot (moves : List Move) (permitted : empty.PermitsAll moves) :
    let s := (empty.run moves).1
    let history := (empty.run moves).2
    (∀ name d, s.device? name = some d →
      (d.leases.map s.slot).Nodup ∧
      (∀ mode family id, d.findLease? s.table mode family = some id ↔ Stands history name.key (mode, family) id) ∧
      (∀ id, ∃ old,
        s.addLease name id =
          .ok (old, s.withLeases name (d.leases.filter (fun other => s.slot other ≠ s.slot id) ++ [id])) ∧
        ∀ other, old = some other ↔ Stands history name.key (s.slot id) other) ∧
      (∀ id ∈ d.leases, s.removeLease name id = .ok (true, s.withLeases name (d.leases.filter (· ≠ id)))) ∧
      (∀ id, id ∉ d.leases → s.removeLease name id = .ok (false, s))) ∧
    s.held = ((history.filterMap Entry.registered?).flatMap fun name =>
      (s.leasesOf name).map fun id => (name, id)) ∧
    s.held.Nodup ∧
    ∀ name id, (name, id) ∈ s.held ↔ .registered name ∈ history ∧ ∃ slot, Stands history name.key slot id := by
  intro s history
  have mapped : s.Mapped history := Mapped.empty.run permitted
  refine ⟨fun name d found => ⟨?_, ?_, ?_, ?_, ?_⟩, mapped.held_eq, mapped.held_nodup, mapped.mem_held⟩
  · exact mapped.here found
  · exact mapped.findLease? found
  · exact fun id => ⟨_, mapped.addLease found id, mapped.findLease? found _ _⟩
  · intro id member
    simpa [member] using mapped.removeLease found id
  · intro id absent
    have same : d.leases.filter (· ≠ id) = d.leases := by
      refine List.filter_eq_self.mpr fun other member => decide_eq_true ?_
      rintro rfl
      exact absent member
    rw [mapped.removeLease found id, same, mapped.withLeases_same found]
    simp [absent]

/-- Leases 0 and 1 are equal, and the second takes the place of the first, which then goes to another device. A lease
that is stored again is the last one. -/
theorem equal_leases_by_slot :
    let eth0 : Scalar := .str "eth0"
    let eth1 : Scalar := .str "eth1"
    let moves : List Move := [
      .register eth0 1, .register eth1 2, .write 0 (.blank .dhcp), .write 1 (.blank .dhcp),
      .write 2 { Lease.blank .dhcp with family := .ipv6 },
      .add eth0 0, .add eth0 1, .remove eth0 0, .add eth1 0, .add eth0 2, .add eth0 1]
    let s := (empty.run moves).1
    empty.PermitsAll moves ∧ s.held = [(eth0, 2), (eth0, 1), (eth1, 0)] ∧
      Stands (empty.run moves).2 eth0.key (.dhcp, .ipv4) 1 ∧
      s.removeLease eth0 0 = .ok (false, s) := by
  intro eth0 eth1 moves s
  have permitted : empty.PermitsAll moves := by decide
  obtain ⟨-, found, -, -, absent⟩ := (run_leases_by_slot moves permitted).1 eth0 ⟨eth0, 1, [2, 1]⟩ (by decide)
  exact ⟨permitted, by decide, (found .dhcp .ipv4 1).mp (by decide), absent 0 (by decide)⟩

end Store

end Leasehold
