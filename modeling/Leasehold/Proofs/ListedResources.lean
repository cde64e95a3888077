import Leasehold.Proofs.AddressTexts
import Leasehold.Proofs.LeaseSlots
import Leasehold.Proofs.ServerRuns

/-! Listed resources. The leases of a device are listed under an address that holds its name, and the reader cuts the
name out again at the first slash. So a name is read back if it is a text without slashes, and no other name is. -/

namespace Leasehold

/-- A text is the only datum that is its key. -/
theorem Scalar.eq_of_key_str {s : Scalar} {name : String} (same : s.key = (Scalar.str name).key) : s = .str name := by
  cases s with
  | float x =>
    simp only [Scalar.key] at same
    split at same <;> cases same
  | moment m =>
    simp only [Scalar.key] at same
    split at same <;> cases same
  | str other => exact Key.datum.inj same
  | null | bool | int | torn | bytes | day => simp [Scalar.key] at same

namespace Store

variable {s : Store} {d : Device}

theorem device?_of_apart (apart : (s.names.map Scalar.key).Nodup) (listed : d ∈ s.devices) :
    s.device? d.name = some d := by
  have keys : (s.devices.map fun d => d.name.key).Nodup := by
    simpa [names, List.map_map, Function.comp_def] using apart
  cases found : s.device? d.name with
  | none =>
    have none := List.find?_eq_none.mp found d listed
    exact absurd (Scalar.isKey_iff.mpr rfl) none
  | some other =>
    have there : other ∈ s.devices := List.mem_of_find?_eq_some found
    rw [List.inj_on_of_nodup_map keys there listed (device?_key found)]

end Store

namespace Tools

namespace Resource

variable {name address : String}

def plainAddress (name : Scalar) : String := scheme ++ (name.display ++ "/leases")

theorem device?_plain (whole : '/' ∉ name.toList) : device? (plainAddress (.str name)) = some name := by
  have parts : Text.splitAt '/' ((Scalar.str name).display ++ "/leases").toList = [name.toList, "leases".toList] := by
    have line : ((Scalar.str name).display ++ "/leases").toList = name.toList ++ '/' :: "leases".toList := by
      simp [Scalar.display, String.toList_append]
    rw [line, Text.splitAt_append, Text.splitAt_absent whole, Text.splitAt_absent (by decide)]
    rfl
  have begins : scheme.toList.isPrefixOf (plainAddress (.str name)).toList = true := by
    simp [plainAddress, String.toList_append]
  have left : (plainAddress (.str name)).toList.drop scheme.length =
      ((Scalar.str name).display ++ "/leases").toList := by
    simp [plainAddress, String.toList_append, ← String.length_toList]
  rw [device?, if_pos begins, left, parts]
  simp

/-- What is cut out holds no slash. -/
theorem device?_whole (found : device? address = some name) : '/' ∉ name.toList := by
  unfold device? at found
  split at found
  · split at found
    next device what rest parts =>
      split at found
      · cases found
        intro slash
        have part : device ∈ Text.splitAt '/' (address.toList.drop scheme.length) := by
          rw [parts]
          exact List.mem_cons_self
        rw [String.toList_ofList] at slash
        exact (Text.mem_splitAt.mp ⟨device, part, slash⟩).2 rfl
      · cases found
    · cases found
  · cases found

end Resource

variable {s : Store} {d : Device}

theorem leasesOf_device (there : s.device? d.name = some d) (number : d.name.isNaN = false) :
    leasesOf s (.scalar d.name) = .ok (d.view s.table) := by
  have named : deviceName s (.scalar d.name) = .ok d.name := by
    simp [deviceName, there, number]
  simp [leasesOf, named, Store.device, there, bind, Except.bind, pure, Except.pure]

/-- The leases found under a text are those of the device that has it for its name. -/
theorem name_of_leasesOf {name : String} (read : leasesOf s (.str name) = .ok (d.view s.table)) :
    d.name = .str name := by
  obtain ⟨key, named, read⟩ := Reading.bind_ok read
  have key_eq : key = .str name := by
    simp only [Value.str, deviceName] at named
    split at named
    · exact (Except.ok.inj named).symm
    · cases named
  subst key_eq
  unfold Store.device at read
  cases there : s.device? (.str name) with
  | none =>
    rw [there] at read
    cases read
  | some other =>
    rw [there] at read
    have same : other.view s.table = d.view s.table := Except.ok.inj read
    have names : other.name = d.name := by
      simp only [Device.view, Value.object, List.map_cons, Value.map.injEq, List.cons.injEq, Prod.mk.injEq,
        Value.scalar.injEq] at same
      exact same.1.2
    exact names ▸ Scalar.eq_of_key_str (Store.device?_key there)

theorem unknown_ne_view (address : String) : Resource.unknown address ≠ d.view s.table := by
  intro same
  simp only [Resource.unknown, Device.view, Value.object, List.map_cons, Value.map.injEq, List.cons.injEq,
    Prod.mk.injEq, Scalar.str.injEq] at same
  exact absurd same.1.1 (by decide)

namespace Server

variable {s : Server} {h : Host} {timeout : Binary64}

theorem resource_read (found : s.host = .ok (h, timeout)) (address : String) : (s.resource address).1 =
    (Resource.device? address).elim (.ok (Resource.unknown address)) fun device =>
      (leasesOf h.store (.str device)).mapError .inr := by
  unfold resource
  cases Resource.device? address with
  | none => rfl
  | some device => simp only [found, Option.elim_some]

theorem resources_host (found : s.host = .ok (h, timeout)) : s.resources.2.host = .ok (h, timeout) := by
  simp only [resources, found]
  rfl

theorem listed_of_resources {rs : List Resource} (found : s.host = .ok (h, timeout)) (listed : s.resources.1 = .ok rs) :
    List.Forall₂ (fun d r => Resource.ofDevice d.name = .ok r) h.store.devices rs := by
  simp only [resources, found] at listed
  exact Reading.forall₂_of_mapM (Reading.mapError_ok listed)

theorem reads_back_iff {d : Device} (found : s.host = .ok (h, timeout)) (there : h.store.device? d.name = some d) :
    (s.resource (Resource.plainAddress d.name)).1 = .ok (d.view h.store.table) ↔
      ∃ name, d.name = .str name ∧ '/' ∉ name.toList := by
  rw [resource_read found]
  constructor
  · intro read
    cases cut : Resource.device? (Resource.plainAddress d.name) with
    | none =>
      rw [cut] at read
      exact absurd (Except.ok.inj read) (unknown_ne_view _)
    | some name =>
      rw [cut] at read
      exact ⟨name, name_of_leasesOf (Reading.mapError_ok read), Resource.device?_whole cut⟩
  · rintro ⟨name, named, whole⟩
    have read := leasesOf_device there (by simp [named, Scalar.isNaN])
    rw [named] at read ⊢
    rw [Resource.device?_plain whole]
    simp only [Option.elim_some, Value.str, read, Except.mapError]

/-- Of the resources on offer whose addresses give the names as they are, those are read back whose names are texts
without slashes, each as the leases of its own device; no other one is. -/
theorem listed_read_back {rs : List Resource} (found : s.host = .ok (h, timeout))
    (apart : (h.store.names.map Scalar.key).Nodup) (listed : s.resources.1 = .ok rs) :
    List.Forall₂ (fun d r => r.address = Resource.plainAddress d.name →
      ((s.resources.2.resource r.address).1 = .ok (d.view h.store.table) ↔
        ∃ name, d.name = .str name ∧ '/' ∉ name.toList) ∧
      (d.name.isNaN = false → leasesOf h.store (.scalar d.name) = .ok (d.view h.store.table))) h.store.devices rs := by
  have offered := listed_of_resources found listed
  have members : List.Forall₂ (fun d r => d ∈ h.store.devices ∧ Resource.ofDevice d.name = .ok r) h.store.devices rs :=
    (List.forall₂_and_left _ _).mpr ⟨fun _ there => there, offered⟩
  refine members.imp fun d r ⟨member, _⟩ plain => ?_
  have there := Store.device?_of_apart apart member
  rw [plain]
  exact ⟨reads_back_iff (resources_host found) there, leasesOf_device there⟩

def devicesOnly (names : List String) : Value :=
  .map [(.str "devices", .map (names.map fun name => (.str name, .map [])))]

theorem plain_names_read_back :
    let s := initial default (.ok (devicesOnly ["eth0", "br-lan.7", "a/b"])) "" fun _ _ => .ok .quiet
    ∃ h timeout rs, s.host = .ok (h, timeout) ∧ (h.store.names.map Scalar.key).Nodup ∧ s.resources.1 = .ok rs ∧
      rs.map Resource.address = h.store.names.map Resource.plainAddress ∧
      List.Forall₂ (fun d r => r.address = Resource.plainAddress d.name →
        ((s.resources.2.resource r.address).1 = .ok (d.view h.store.table) ↔
          ∃ name, d.name = .str name ∧ '/' ∉ name.toList) ∧
        (d.name.isNaN = false → leasesOf h.store (.scalar d.name) = .ok (d.view h.store.table))) h.store.devices rs := by
  intro s
  have opens : (s.host.toOption.map fun opened => opened.1.store.names) =
      some [.str "eth0", .str "br-lan.7", .str "a/b"] := by decide +kernel
  have offers : (s.resources.1.toOption.map fun rs => rs.map Resource.address) =
      some ["addrconf://eth0/leases", "addrconf://br-lan.7/leases", "addrconf://a/b/leases"] := by decide +kernel
  obtain ⟨⟨h, timeout⟩, host, names⟩ := Option.map_eq_some_iff.mp opens
  obtain ⟨rs, offer, addresses⟩ := Option.map_eq_some_iff.mp offers
  have found := Reading.ok_of_toOption host
  have listed := Reading.ok_of_toOption offer
  have apart : (h.store.names.map Scalar.key).Nodup := by
    rw [names]
    decide
  have plain : rs.map Resource.address = h.store.names.map Resource.plainAddress := by
    rw [names, addresses]
    decide
  exact ⟨h, timeout, rs, found, apart, listed, plain, listed_read_back found apart listed⟩

/-- All three devices are listed and have their leases shown; but one address is cut at its slash and stands for
nothing, and one stands for another device. -/
theorem slashed_names_unread :
    let names := ["eth0", "a/b", "eth0/leases/b"]
    let s := initial default (.ok (devicesOnly names)) "" fun _ _ => .ok .quiet
    let leases (name : String) : Value := .object [("name", .str name), ("ifindex", .int 0), ("leases", .list [])]
    (s.host.toOption.map fun opened => names.map fun name => (leasesOf opened.1.store (.str name)).toOption) =
        some (names.map fun name => some (leases name)) ∧
      (s.resources.1.toOption.map fun rs => rs.map Resource.address) =
        some ["addrconf://eth0/leases", "addrconf://a/b/leases", "addrconf://eth0/leases/b/leases"] ∧
      (s.resources.2.resource "addrconf://a/b/leases").1 = .ok (Resource.unknown "addrconf://a/b/leases") ∧
      (s.resources.2.resource "addrconf://eth0/leases/b/leases").1 = .ok (leases "eth0") := by
  exact ⟨rfl, by decide +kernel, rfl, rfl⟩

end Server

end Tools
end Leasehold
