import Leasehold.Proofs.AddressTexts
import Leasehold.Proofs.RemoteAnswers
import Leasehold.Proofs.UuidForms

/-! Requests given back as options. A request is what its options were read as, and whoever gives the fields of an
accepted request as options again gets the same request: text that is stripped has nothing to strip, names and numbers
are read as they are written, and the written form of a server's address is its own written form. -/

namespace Leasehold

namespace Address

variable {s : String} {a : Address}

/-- Read from stripped text, an address is written as stripped text. -/
theorem text_trimmed (read : parse? s = some a) (trimmed : Text.Trimmed Text.isWhiteSpace s.toList) :
    Text.Trimmed Text.isWhiteSpace a.text.toList := by
  cases a with
  | v4 octets => exact (octetsText_avoids (by decide) (by decide) octets).trimmed
  | v6 groups zone =>
    have digits : Text.Avoids Text.isWhiteSpace (groupsText groups) :=
      groupsText_avoids (by decide) (by decide) groups
    cases zone with
    | none => simpa [text] using digits.trimmed
    | some z =>
      obtain ⟨address, whole⟩ := parse?_zone read
      have same : ('%' :: z.toList).getLast? = s.toList.getLast? := by
        rw [whole, List.getLast?_append_of_ne_nil _ (List.cons_ne_nil _ _)]
      constructor
      · intro c first
        have word : Text.IsWord (groupsText groups) := groupsText_isWord (parse_filled read)
        obtain ⟨d, rest, begins⟩ := List.exists_cons_of_ne_nil fun empty => word.filled (String.toList_inj.mp empty)
        rw [text_zoned, begins] at first
        cases first
        exact digits c (begins ▸ List.mem_cons_self)
      · intro c last
        rw [text_zoned, List.getLast?_append_of_ne_nil _ (List.cons_ne_nil _ _), same] at last
        exact trimmed.back c last

end Address

namespace Request

variable {α : Type} {read : Intake → String → Value → Reading α} {give : α → Value} {intake : Intake} {place : String}
  {v : Value}

/-- What a reading gave is read as the same again, at every place and by every checker. -/
def Settles (read : Intake → String → Value → Reading α) (give : α → Value) : Prop :=
  ∀ intake place v a, read intake place v = .ok a → ∀ intake' place', read intake' place' (give a) = .ok a

theorem readText_trimmed {s : String} (first : readText intake place v = .ok s) :
    Text.Trimmed Text.isWhiteSpace s.toList := by
  unfold readText at first
  split at first
  next t given =>
    cases first
    rw [Text.trim, String.toList_ofList]
    exact Text.trimChars_trimmed _ _
  next => cases first

theorem readText_again {s : String} (trimmed : Text.Trimmed Text.isWhiteSpace s.toList) (intake : Intake)
    (place : String) : readText intake place (.str s) = .ok s := by
  simp only [readText, intake.text_str, Text.trim_trimmed trimmed]

theorem settles_text : Settles readText .str := fun _ _ _ _ first intake' place' =>
  readText_again (readText_trimmed first) intake' place'

theorem settles_hostname : Settles readHostname .str := by
  intro intake place v s first intake' place'
  obtain ⟨t, text, checked⟩ := Reading.bind_ok first
  split at checked
  next proper =>
    cases checked
    change (readText intake' place' (.str s) >>= fun s => if isHostname s then pure s else refuse place' .hostname) =
      .ok s
    rw [settles_text intake place v s text intake' place']
    exact if_pos proper
  next => cases checked

theorem settles_count : Settles readCount .int := by
  intro intake place v i first intake' place'
  unfold readCount at first
  split at first
  next j whole =>
    split at first
    next => cases first
    next count =>
      cases first
      simp only [readCount, intake'.whole_int]
      exact if_neg count
  next => cases first

theorem readWord_name {word? : String → Option α} {cause : Cause} {word : String} {a : α} (named : word? word = some a)
    (intake : Intake) (place : String) : readWord intake word? cause place (.str word) = .ok a := by
  simp only [readWord, intake.text_str, Except.toOption, Option.bind_some, named]

theorem Family.ofName?_name (family : Family) : Family.ofName? family.name = some family := by
  cases family <;> rfl

theorem Kind.ofName?_name (kind : Kind) : Kind.ofName? kind.name = some kind := by
  cases kind <;> rfl

theorem settles_family :
    Settles (fun intake => readWord intake Family.ofName? .family) fun family => .str family.name :=
  fun _ _ _ family _ intake' place' => readWord_name (Family.ofName?_name family) intake' place'

theorem settles_uuid : Settles (fun _ => readUuid) fun uuid => .scalar (.bytes uuid) := by
  intro intake place v uuid first intake' place'
  change readUuid place v = .ok uuid at first
  unfold readUuid at first
  split at first
  next uuid' parsed =>
    cases first
    simp only [readUuid, Uuid.Form.bytes.parse (Uuid.length_parse parsed)]
  next => cases first

theorem readItems_again {read : String → Value → Reading α} {as : List α}
    (each : ∀ a ∈ as, ∀ place', read place' (give a) = .ok a) (place : String) (index : Nat) :
    readItems read place index (as.map give) = .ok as := by
  induction as generalizing index with
  | nil => rfl
  | cons a rest ih =>
    obtain ⟨first, others⟩ := List.forall_mem_cons.mp each
    simp only [List.map_cons, readItems, first, ih others]

theorem readList_again {read : String → Value → Reading α} {as : List α}
    (each : ∀ a ∈ as, ∀ place', read place' (give a) = .ok a) (intake : Intake) (place : String) :
    readList intake read place (.list (as.map give)) = .ok as := by
  simp only [readList, intake.items_list, readItems_again each]

theorem mem_readItems {read : String → Value → Reading α} {items : List Value} {index : Nat} {as : List α}
    (first : readItems read place index items = .ok as) : ∀ a ∈ as, ∃ place' v, read place' v = .ok a := by
  induction items generalizing index as with
  | nil =>
    cases first
    simp
  | cons item rest ih =>
    unfold readItems at first
    simp only at first
    split at first
    next a others one more =>
      cases first
      exact List.forall_mem_cons.mpr ⟨⟨_, item, one⟩, ih more⟩
    next => cases first

theorem mem_readList {read : String → Value → Reading α} {as : List α}
    (first : readList intake read place v = .ok as) : ∀ a ∈ as, ∃ place' v', read place' v' = .ok a := by
  unfold readList at first
  split at first
  next => exact mem_readItems first
  next => cases first

theorem Settles.list (settles : Settles read give) :
    Settles (fun intake => readList intake (read intake)) fun as => .list (as.map give) := by
  intro intake place v as first intake' place'
  refine readList_again (fun a member => ?_) intake' place'
  obtain ⟨_, _, one⟩ := mem_readList first a member
  exact settles _ _ _ a one intake'

theorem settles_texts : Settles (fun intake => readList intake (readText intake)) .strs := settles_text.list

theorem settles_update : Settles readUpdate fun kinds => .strs (kinds.map Kind.name) := by
  intro intake place v kinds _ intake' place'
  have names : Value.strs (kinds.map Kind.name) = .list (kinds.map fun kind => .str kind.name) := by
    simp [Value.strs]
  simp only [names, readUpdate]
  exact readList_again (fun kind _ => readWord_name (Kind.ofName?_name kind) intake') intake' place'

/-- A server in its written form has nothing to strip, and is its own written form. -/
structure Normal (server : String) : Prop where
  trimmed : Text.Trimmed Text.isWhiteSpace server.toList
  written : ∀ place, normalizeServer place server = .ok server

theorem Normal.address {server : String} (normal : Normal server) :
    ∃ address, Address.parse? server = some address ∧ address.text = server := by
  have written := normal.written ""
  unfold normalizeServer at written
  split at written
  next address parsed => exact ⟨address, parsed, Except.ok.inj written⟩
  next => cases written

theorem readServers_normal {servers : List String} (first : readServers intake place v = .ok servers) :
    ∀ server ∈ servers, Normal server := by
  intro server member
  obtain ⟨spellings, listed, written⟩ := Reading.bind_ok first
  obtain ⟨spelled, given, normal⟩ := Reading.mem_of_mapM written server member
  obtain ⟨_, _, text⟩ := mem_readList listed spelled given
  unfold normalizeServer at normal
  split at normal
  next address parsed =>
    cases normal
    refine ⟨Address.text_trimmed parsed (readText_trimmed text), fun place' => ?_⟩
    simp only [normalizeServer, Address.parse?_text parsed]
  next => cases normal

theorem readServers_again {servers : List String} (normal : ∀ server ∈ servers, Normal server) (intake : Intake)
    (place : String) : readServers intake place (.strs servers) = .ok servers := by
  have texts : readList intake (readText intake) place (.strs servers) = .ok servers :=
    readList_again (fun server member => readText_again (normal server member).trimmed intake) intake place
  have written : servers.mapM (normalizeServer place) = .ok (servers.map id) :=
    Reading.mapM_ok fun server member => (normal server member).written place
  rw [List.map_id] at written
  unfold readServers
  rw [texts]
  exact written

theorem settles_servers : Settles readServers .strs := fun _ _ _ _ first intake' place' =>
  readServers_again (readServers_normal first) intake' place'

theorem readOptional_some {read : String → Value → Reading α} {field : Option Value} {a : α}
    (first : readOptional read place field = .ok (some a)) : ∃ v, read place v = .ok a := by
  unfold readOptional at first
  split at first
  next => cases first
  next => cases first
  next v _ =>
    refine ⟨v, ?_⟩
    cases one : read place v with
    | error problems =>
      rw [one] at first
      cases first
    | ok b =>
      rw [one] at first
      cases first
      rfl

theorem readOptional_again {offer : Option α → Value} {field : Option Value} {o : Option α}
    (settles : Settles read give) (null : offer none = .null) (given : ∀ a, offer (some a) = give a ∧ give a ≠ .null)
    (first : readOptional (read intake) place field = .ok o) (intake' : Intake) (place' : String) :
    readOptional (read intake') place' (some (offer o)) = .ok o := by
  cases o with
  | none =>
    rw [null]
    rfl
  | some a =>
    obtain ⟨same, filled⟩ := given a
    obtain ⟨v, one⟩ := readOptional_some first
    rw [same]
    unfold readOptional
    split
    next none => cases none
    next null => exact absurd (Option.some.inj null) filled
    next v' _ given =>
      rw [← Option.some.inj given, settles intake place v a one intake' place']
      rfl

theorem readOr_again {standing other a : α} {field : Option Value} (settles : Settles read give)
    (standard : ∀ intake' place', read intake' place' (give standing) = .ok standing)
    (intake : Intake) (first : readOr standing (read intake) place field = .ok a) (intake' : Intake) (place' : String) :
    readOr other (read intake') place' (some (give a)) = .ok a := by
  cases field with
  | none =>
    cases first
    exact standard intake' place'
  | some v => exact settles intake place v a first intake' place'

def fields (r : Request) : List (String × Value) :=
  [("uuid", .scalar (.bytes r.uuid)), ("family", .str r.family.name), ("hostname", .optStr r.hostname),
    ("client_id", .optStr r.clientId), ("vendor_class", .optStr r.vendorClass), ("lease_time", .optInt r.leaseTime),
    ("acquire_timeout", .optInt r.acquireTimeout), ("update", .strs (r.update.map Kind.name)),
    ("dns_servers", .strs r.servers), ("dns_search", .strs r.search), ("domain", .optStr r.domain)]

variable {entries : Entries} {options : Value} {r : Request}

theorem ReadFrom.again (first : ReadFrom intake entries r) (sixteen : intake.uuid.length = 16) (intake' : Intake) :
    ReadFrom intake' (r.fields.map fun (name, value) => (.str name, value)) r := by
  have text (s : String) : Value.optStr (some s) = .str s ∧ Value.str s ≠ .null :=
    ⟨rfl, by simp [Value.str, Value.null]⟩
  have count (i : Int) : Value.optInt (some i) = .int i ∧ Value.int i ≠ .null :=
    ⟨rfl, by simp [Value.int, Value.null]⟩
  constructor
  case uuid =>
    refine readOr_again settles_uuid (fun _ _ => ?_) intake first.uuid intake' "uuid"
    simp only [readUuid, Uuid.Form.bytes.parse sixteen]
  case family =>
    exact readOr_again settles_family (fun intake' => readWord_name (Family.ofName?_name .ipv4) intake') intake
      first.family intake' "family"
  case hostname => exact readOptional_again settles_hostname rfl text first.hostname intake' "hostname"
  case clientId => exact readOptional_again settles_text rfl text first.clientId intake' "client_id"
  case vendorClass => exact readOptional_again settles_text rfl text first.vendorClass intake' "vendor_class"
  case leaseTime => exact readOptional_again settles_count rfl count first.leaseTime intake' "lease_time"
  case acquireTimeout =>
    exact readOptional_again settles_count rfl count first.acquireTimeout intake' "acquire_timeout"
  case update =>
    have standing (intake' : Intake) (place' : String) :
        readUpdate intake' place' (.strs ([.hostname, .resolver].map Kind.name)) = .ok [.hostname, .resolver] :=
      settles_update intake' "" (.int 3) _ rfl intake' place'
    exact readOr_again settles_update standing intake first.update intake' "update"
  case servers =>
    exact readOr_again settles_servers (fun intake' => readServers_again (by simp) intake') intake first.servers
      intake' "dns_servers"
  case search =>
    exact readOr_again settles_texts (fun intake' => readList_again (by simp) intake') intake first.search intake'
      "dns_search"
  case domain => exact readOptional_again settles_text rfl text first.domain intake' "domain"
  case known =>
    intro entry member
    obtain ⟨field, listed, rfl⟩ := List.mem_map.mp member
    have names : r.fields.map Prod.fst = fieldNames := rfl
    have name : field.1 ∈ fieldNames := names ▸ List.mem_map_of_mem listed
    exact if_pos (List.contains_iff_mem.mpr name)

/-- Normalization is done once, whatever the checker of values accepts: the fields of an accepted request, given as
options, are accepted as the same request. Each of its servers is the written form of the address that it is read as,
and is accepted by itself as it is. -/
theorem accepted_again (sixteen : intake.uuid.length = 16) (accepted : ofOptions intake options = .ok r) :
    (∀ intake', ofOptions intake' (.object r.fields) = .ok r) ∧
      ∀ server ∈ r.servers, (∃ address, Address.parse? server = some address ∧ address.text = server) ∧
        ∀ intake' place, readServers intake' place (.strs [server]) = .ok [server] := by
  obtain ⟨entries, -, first⟩ := ofOptions_readFrom accepted
  refine ⟨fun intake' => (first.again sixteen intake').ofOptions (by simp [fields]), fun server member => ?_⟩
  -- The servers that were read are read again, so that each of them is in its written form.
  have written : readServers intake "dns_servers" (.strs r.servers) = .ok r.servers :=
    (first.again sixteen intake).servers
  have normal := readServers_normal written server member
  exact ⟨normal.address, readServers_again (List.forall_mem_singleton.mpr normal)⟩

/-- Spaces, capitals, spelled out zeros, an address within an address, a scope and a mask, in a tuple and a set. -/
theorem respelled_accepted_again :
    let servers := [" FE80:0::0:1%eth0 ", "::FFFF:192.0.2.1", "1:0:0:2:0:0:0:3", "192.0.2.53"]
    let options : Value := .map [(.str "uuid", .str "\x7b00112233-4455-6677-8899-AABBCCDDEEFF\x7d"),
      (.str "hostname", .str " host\t"), (.str "lease_time", .str "3_600"), (.str "update", .int 7),
      (.str "dns_servers", .tuple (servers.map .str)), (.str "dns_search", .set [.str "lab "])]
    ∃ r, ofOptions (.lenient nullUuid) options = .ok r ∧ r.hostname = some "host" ∧ r.leaseTime = some 3600 ∧
      r.update = [.hostname, .resolver, .ntp] ∧ r.search = ["lab"] ∧
      r.servers = ["fe80::1%eth0", "::ffff:c000:201", "1:0:0:2::3", "192.0.2.53"] ∧
      ∀ intake', ofOptions intake' (.object r.fields) = .ok r := by
  intro servers options
  let uuid : Bytes := [0x00, 0x11, 0x22, 0x33, 0x44, 0x55, 0x66, 0x77, 0x88, 0x99, 0xAA, 0xBB, 0xCC, 0xDD, 0xEE, 0xFF]
  let r : Request := ⟨uuid, .ipv4, some "host", none, none, some 3600, none, [.hostname, .resolver, .ntp],
    ["fe80::1%eth0", "::ffff:c000:201", "1:0:0:2::3", "192.0.2.53"], ["lab"], none⟩
  have accepted : ofOptions (.lenient nullUuid) options = .ok r := Reading.ok_of_toOption (by decide +kernel)
  exact ⟨r, accepted, rfl, rfl, rfl, rfl, rfl, (accepted_again (by decide) accepted).1⟩

end Request
end Leasehold
