import Leasehold.Acquisition.Static
import Leasehold.Artifact
import Leasehold.Proofs.AddressTexts

/-! What a resolver configuration says. It is meant to say what the request said: its domain, its search list and its
servers, a directive on each line. That is so exactly if these are words; only the host name is checked for blanks, so
that a domain, a search entry or the zone of a server's address may bring directives of its own. -/

namespace Leasehold

namespace Request

structure ReadFrom (intake : Intake) (entries : Entries) (r : Request) : Prop where
  uuid : readOr intake.uuid readUuid "uuid" (Entries.field? entries "uuid") = .ok r.uuid
  family : readOr .ipv4 (readWord intake Family.ofName? .family) "family" (Entries.field? entries "family") =
    .ok r.family
  hostname : readOptional (readHostname intake) "hostname" (Entries.field? entries "hostname") = .ok r.hostname
  clientId : readOptional (readText intake) "client_id" (Entries.field? entries "client_id") = .ok r.clientId
  vendorClass : readOptional (readText intake) "vendor_class" (Entries.field? entries "vendor_class") =
    .ok r.vendorClass
  leaseTime : readOptional (readCount intake) "lease_time" (Entries.field? entries "lease_time") = .ok r.leaseTime
  acquireTimeout :
    readOptional (readCount intake) "acquire_timeout" (Entries.field? entries "acquire_timeout") = .ok r.acquireTimeout
  update : readOr [.hostname, .resolver] (readUpdate intake) "update" (Entries.field? entries "update") = .ok r.update
  servers : readOr [] (readServers intake) "dns_servers" (Entries.field? entries "dns_servers") = .ok r.servers
  search : readOr [] (readList intake (readText intake)) "dns_search" (Entries.field? entries "dns_search") =
    .ok r.search
  domain : readOptional (readText intake) "domain" (Entries.field? entries "domain") = .ok r.domain
  known : ∀ entry ∈ entries, keyProblem? entry.1 = none

theorem ofEntries_readFrom {intake : Intake} {entries : Entries} {r : Request}
    (read : ofEntries intake entries = .ok r) :
    ReadFrom intake entries r := by
  unfold ofEntries at read
  simp only at read
  split at read
  next silent =>
    have known := (List.append_eq_nil_iff.mp (List.isEmpty_iff.mp silent)).2
    obtain ⟨uuid, readUuid, read⟩ := Reading.bind_ok read
    obtain ⟨family, readFamily, read⟩ := Reading.bind_ok read
    obtain ⟨hostname, readHostname, read⟩ := Reading.bind_ok read
    obtain ⟨clientId, readClientId, read⟩ := Reading.bind_ok read
    obtain ⟨vendorClass, readVendorClass, read⟩ := Reading.bind_ok read
    obtain ⟨leaseTime, readLeaseTime, read⟩ := Reading.bind_ok read
    obtain ⟨acquireTimeout, readAcquireTimeout, read⟩ := Reading.bind_ok read
    obtain ⟨update, readUpdate, read⟩ := Reading.bind_ok read
    obtain ⟨servers, readServers, read⟩ := Reading.bind_ok read
    obtain ⟨search, readSearch, read⟩ := Reading.bind_ok read
    obtain ⟨domain, readDomain, read⟩ := Reading.bind_ok read
    cases read
    exact ⟨readUuid, readFamily, readHostname, readClientId, readVendorClass, readLeaseTime, readAcquireTimeout,
      readUpdate, readServers, readSearch, readDomain, List.filterMap_eq_nil_iff.mp known⟩
  next => cases read

theorem ofOptions_readFrom {intake : Intake} {options : Value} {r : Request} (read : ofOptions intake options = .ok r) :
    ∃ entries, options = .map entries ∧ ReadFrom intake entries r := by
  unfold ofOptions at read
  split at read
  next => cases read
  next => cases read
  next entries _ =>
    refine ⟨entries, rfl, ofEntries_readFrom ?_⟩
    cases made : ofEntries intake entries with
    | error problems => simp [made, Except.mapError] at read
    | ok other =>
      rw [made] at read
      exact congrArg Except.ok (Except.ok.inj read)
  next => cases read

/-- The servers of a request are addresses in their written form. -/
theorem ReadFrom.server {intake : Intake} {entries : Entries} {r : Request} (read : ReadFrom intake entries r) :
    ∀ server ∈ r.servers, ∃ spelled address, Address.parse? spelled = some address ∧ server = address.text := by
  intro server member
  have servers := read.servers
  cases given : Entries.field? entries "dns_servers" with
  | none =>
    rw [given] at servers
    have none : [] = r.servers := Except.ok.inj servers
    rw [← none] at member
    cases member
  | some v =>
    rw [given] at servers
    obtain ⟨spellings, -, normalized⟩ := Reading.bind_ok servers
    obtain ⟨spelled, -, written⟩ := Reading.mem_of_mapM normalized server member
    unfold normalizeServer at written
    split at written
    next address parsed =>
      cases written
      exact ⟨spelled, address, parsed, rfl⟩
    next => cases written

def directives (r : Request) : List (List String) :=
  (if isGiven r.domain then [["domain", r.domain.getD ""]] else []) ++
    (if r.search.isEmpty then [] else ["search" :: r.search]) ++ r.servers.map fun server => ["nameserver", server]

/-- The values that no field checks are words: the domain if there is one, the search entries, and the addresses with
a zone. -/
structure Wordly (r : Request) : Prop where
  domain : ∀ domain, r.domain = some domain → domain ≠ "" → Text.IsWord domain
  search : ∀ entry ∈ r.search, Text.IsWord entry
  zones : ∀ server ∈ r.servers, '%' ∈ server.toList → Text.IsWord server

end Request

/-- Read line by line, a resolver configuration has a comment, and then what the request says. -/
def ReadsBack (lines : String → List String) (artifact : String) (r : Request) : Prop :=
  ∃ comment rest, lines artifact = ("#" ++ comment) :: rest ∧ rest.map Text.words = r.directives

namespace Request

variable {intake : Intake} {entries : Entries} {r : Request} {lines : String → List String} {artifact : String}

/-- The servers are words too, since an address without zone is one. -/
theorem ReadFrom.servers_words (read : ReadFrom intake entries r) (wordly : r.Wordly) :
    ∀ server ∈ r.servers, Text.IsWord server := by
  intro server member
  by_cases zoned : '%' ∈ server.toList
  · exact wordly.zones server member zoned
  · obtain ⟨spelled, address, parsed, rfl⟩ := read.server server member
    exact Address.text_isWord (Address.parse_filled parsed) zoned

/-- Whatever is read back is a word, for it stands between blanks. -/
theorem wordly_of_readsBack (back : ReadsBack lines artifact r) : r.Wordly := by
  obtain ⟨comment, rest, -, same⟩ := back
  have word : ∀ directive ∈ r.directives, ∀ word ∈ directive, Text.IsWord word := by
    intro directive listed word member
    rw [← same] at listed
    obtain ⟨line, -, rfl⟩ := List.mem_map.mp listed
    exact Text.isWord_of_mem_words member
  constructor
  · intro domain given filled
    refine word ["domain", domain] ?_ domain (by simp)
    simp [directives, given, isGiven, filled]
  · intro entry member
    have some : r.search ≠ [] := List.ne_nil_of_mem member
    refine word ("search" :: r.search) ?_ entry (List.mem_cons_of_mem _ member)
    simp [directives, some]
  · intro server member _
    refine word ["nameserver", server] ?_ server (by simp)
    exact List.mem_append_right _ (List.mem_map_of_mem member)

end Request

namespace Request

theorem directives_words (read : ReadFrom intake entries r) (wordly : r.Wordly) :
    ∀ directive ∈ r.directives, ∀ word ∈ directive, Text.IsWord word := by
  intro directive listed
  rcases List.mem_append.mp listed with first | nameserver
  · rcases List.mem_append.mp first with domain | search
    · split at domain
      next given =>
        rw [List.mem_singleton.mp domain]
        cases present : r.domain with
        | none => simp [present, isGiven] at given
        | some name =>
          have filled : name ≠ "" := by simpa [present, isGiven] using given
          exact List.forall_mem_cons.mpr ⟨by decide, List.forall_mem_singleton.mpr (wordly.domain name present filled)⟩
      next => cases domain
    · split at search
      next => cases search
      next =>
        rw [List.mem_singleton.mp search]
        exact List.forall_mem_cons.mpr ⟨by decide, wordly.search⟩
  · obtain ⟨server, member, rfl⟩ := List.mem_map.mp nameserver
    exact List.forall_mem_cons.mpr ⟨by decide, List.forall_mem_singleton.mpr (read.servers_words wordly server member)⟩

end Request

namespace Artifact

variable {r : Request}

/-- Each directive is written on a line of its own. -/
theorem resolverLines_eq (r : Request) :
    resolverLines ⟨r.domain, r.servers, r.search⟩ = r.directives.map (Text.join " ") := by
  unfold resolverLines Request.directives
  rw [List.map_append, List.map_append]
  refine congrArg₂ (· ++ ·) (congrArg₂ (· ++ ·) ?domain ?search) ?servers
  case domain =>
    cases r.domain with
    | none => rfl
    | some name => by_cases empty : name = "" <;> simp [isGiven, empty, Text.join]
  case search =>
    cases r.search with
    | nil => rfl
    | cons first rest => simp [Text.join]
  case servers => simp [Text.join, Function.comp_def]

theorem header_oneLine (lease : Lease) : Text.Avoids Text.isBreak (header lease) := by
  have number := (Text.int_isWord lease.seqno).oneLine
  have origin : Text.Avoids Text.isBreak lease.origin := by
    unfold Lease.origin
    cases lease.mode <;> cases lease.family <;> decide
  unfold header
  refine Text.avoids_append.mpr ⟨Text.avoids_append.mpr ⟨Text.avoids_append.mpr ⟨?_, origin⟩, ?_⟩, number⟩ <;> decide

theorem header_comment (lease : Lease) : ∃ comment, header lease = "#" ++ comment := by
  have cut : "# generated by mcp-addrconf from " = "#" ++ " generated by mcp-addrconf from " := rfl
  refine ⟨" generated by mcp-addrconf from " ++ lease.origin ++ " lease " ++ toString lease.seqno, ?_⟩
  unfold header
  rw [cut]
  simp only [String.append_assoc]

theorem resolver_of_provides {lease : Lease} (carried : lease.resolver = Static.resolver? r)
    (provides : lease.provides .resolver = true) : lease.resolver = some ⟨r.domain, r.servers, r.search⟩ := by
  have given : (Static.resolver? r).isSome := by
    rw [← carried]
    cases settings : lease.resolver with
    | none => simp [Lease.provides, settings] at provides
    | some info => rfl
  rw [carried]
  unfold Static.resolver? at given ⊢
  split at given
  next => simp at given
  next some => rw [if_neg some]

/-- Whoever reads the resolver configuration of an accepted request, be it as a file or at all line ends, reads what
the request said if and only if all of it are words. -/
theorem resolver_reads_back {intake : Intake} {options : Value} (accepted : Request.ofOptions intake options = .ok r)
    (mode : Mode) (seqno : Int) (now : Moment)
    (provides : (Service.stamp (Static.lease r) mode seqno now (some r)).provides .resolver = true) :
    ∃ artifact,
      Builders.standard.build .resolver (Service.stamp (Static.lease r) mode seqno now (some r)) = .ok artifact ∧
      (ReadsBack Text.fileLines artifact r ↔ r.Wordly) ∧ (ReadsBack Text.outputLines artifact r ↔ r.Wordly) := by
  obtain ⟨entries, -, read⟩ := Request.ofOptions_readFrom accepted
  have carried := resolver_of_provides rfl provides
  generalize Service.stamp (Static.lease r) mode seqno now (some r) = lease at carried ⊢
  have built : Builders.standard.build .resolver lease =
      .ok (Text.join "\n" (header lease :: r.directives.map (Text.join " ")) ++ "\n") := by
    have made : resolver lease = .ok (Text.join "\n" (header lease :: r.directives.map (Text.join " ")) ++ "\n") := by
      unfold resolver
      rw [carried, ← resolverLines_eq]
    exact made
  obtain ⟨comment, starts⟩ := header_comment lease
  have told (wordly : r.Wordly) : (∀ line ∈ header lease :: r.directives.map (Text.join " "),
        Text.Avoids Text.isBreak line) ∧ (r.directives.map (Text.join " ")).map Text.words = r.directives := by
    have words := Request.directives_words read wordly
    constructor
    · refine List.forall_mem_cons.mpr ⟨header_oneLine lease, fun line member => ?_⟩
      obtain ⟨directive, listed, rfl⟩ := List.mem_map.mp member
      exact Text.Avoids.join (by decide) fun word there => (words directive listed word there).oneLine
    · rw [List.map_map]
      exact (List.map_congr_left fun directive listed => Text.words_join (words directive listed)).trans (List.map_id _)
  refine ⟨_, built, ⟨Request.wordly_of_readsBack, fun wordly => ?_⟩, Request.wordly_of_readsBack, fun wordly => ?_⟩
  · obtain ⟨whole, same⟩ := told wordly
    exact ⟨comment, _, by rw [Text.fileLines_join whole, starts], same⟩
  · obtain ⟨whole, same⟩ := told wordly
    exact ⟨comment, _, by rw [Text.outputLines_join whole, starts], same⟩

theorem plain_request_reads_back :
    let options : Value := .map [(.str "domain", .str " lab "), (.str "dns_search", .strs ["a.lab", "b.lab"]),
      (.str "dns_servers", .strs ["192.0.2.53", "FE80:0::1%eth0"])]
    ∃ r artifact, Request.ofOptions (.lenient nullUuid) options = .ok r ∧
      Builders.standard.build .resolver (Service.stamp (Static.lease r) .static 1 default (some r)) = .ok artifact ∧
      ReadsBack Text.fileLines artifact r ∧ r.directives = [["domain", "lab"], ["search", "a.lab", "b.lab"],
        ["nameserver", "192.0.2.53"], ["nameserver", "fe80::1%eth0"]] := by
  intro options
  let r : Request := ⟨nullUuid, .ipv4, none, none, none, none, none, [.hostname, .resolver],
    ["192.0.2.53", "fe80::1%eth0"], ["a.lab", "b.lab"], some "lab"⟩
  have accepted : Request.ofOptions (.lenient nullUuid) options = .ok r :=
    Reading.ok_of_toOption (by decide +kernel)
  have wordly : r.Wordly := by
    refine ⟨fun domain given _ => ?_, by decide, by decide⟩
    rw [← Option.some.inj given]
    decide
  obtain ⟨artifact, built, back, -⟩ := resolver_reads_back accepted .static 1 default (by decide)
  exact ⟨r, artifact, accepted, built, back.mpr wordly, by decide⟩

/-- A domain with a line end in it is accepted, and adds a server that the request does not name. -/
theorem domain_adds_server :
    let options : Value := .map [(.str "domain", .str "lab\nnameserver 192.0.2.66"),
      (.str "dns_servers", .strs ["192.0.2.53"])]
    let r : Request := ⟨nullUuid, .ipv4, none, none, none, none, none, [.hostname, .resolver], ["192.0.2.53"], [],
      some "lab\nnameserver 192.0.2.66"⟩
    let lease := Service.stamp (Static.lease r) .static 1 default (some r)
    (Request.ofOptions (.lenient nullUuid) options).toOption = some r ∧ lease.canUpdate .resolver = true ∧
      (Builders.standard.build .resolver lease).toOption.map Text.fileLines =
        some ["# generated by mcp-addrconf from static/ipv4 lease 1", "domain lab", "nameserver 192.0.2.66",
          "nameserver 192.0.2.53"] ∧
      ∀ artifact, Builders.standard.build .resolver lease = .ok artifact → ¬ ReadsBack Text.fileLines artifact r := by
  intro options r lease
  refine ⟨by decide +kernel, by decide, by decide +kernel, fun artifact _ back => ?_⟩
  have word := (Request.wordly_of_readsBack back).domain _ rfl (by decide)
  exact absurd word (by decide)

end Artifact
end Leasehold
