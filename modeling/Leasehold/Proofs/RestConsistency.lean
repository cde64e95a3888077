import Leasehold.Proofs.HostMoves
import Leasehold.Proofs.PassProgress
import Leasehold.Proofs.StoreChanges

/-! A host at rest is consistent. However calls and reports fall between the script runs of passes, when no
pass is wanted any more and none is under way, each kind whose last outcome is a success is as the leases
in the store want it. -/

namespace Leasehold

namespace Engine

/-- How far each kind is, by the outcomes of the passes that are over and of the one under way. -/
def Stands (e : Engine) (history : List KindOutcome) : Prop :=
  match e.current with
  | none => ∀ kind, (e.registry.updater kind).Dealt history
  | some (_, pass) => pass.Stands e.registry history

/-- What the kinds know of the leases is up to date, or a pass is to come that takes stock. -/
def Notices (e : Engine) (store : Store) : Prop :=
  e.dirty = true ∨ Requester.runner ∈ e.line ∨ ∀ kind, (e.registry.updater kind).Reflects store

structure Unused (e : Engine) (history : List KindOutcome) : Prop where
  free : e.current = none
  none : history = []
  installed : ∀ kind, (e.registry.updater kind).installedSeqno = notInstalled

structure Tracks (e : Engine) (store : Store) (history : List KindOutcome) : Prop where
  coherent : e.Coherent
  proper : e.registry.Proper
  used : e.registry.configured = true ∨ e.Unused history
  weighed : ∀ kind, (e.registry.updater kind).Weighed store
  notices : e.Notices store
  stands : e.Stands history

variable {e next : Engine} {store : Store} {history : List KindOutcome}

theorem Tracks.fresh (tracks : e.Tracks store history) : e.registry.Fresh :=
  tracks.used.imp_right Unused.installed

/-- A pass under way has configured the kinds. -/
theorem Tracks.configured {who : Requester} {pass : Pass} (tracks : e.Tracks store history)
    (current : e.current = some (who, pass)) : e.registry.configured = true := by
  refine tracks.used.resolve_right fun unused => ?_
  rw [unused.free] at current
  cases current

theorem Tracks.of_registry (tracks : e.Tracks store history) (registry : next.registry = e.registry)
    (current : next.current = e.current) (coherent : next.Coherent) (notices : next.Notices store) :
    next.Tracks store history := by
  refine ⟨coherent, registry ▸ tracks.proper, ?_, registry ▸ tracks.weighed, notices, ?_⟩
  · rw [registry]
    exact tracks.used.imp_right fun unused => ⟨current.trans unused.free, unused.none, registry ▸ unused.installed⟩
  · have stands := tracks.stands
    unfold Stands at stands ⊢
    rw [registry, current]
    exact stands

theorem Tracks.schedule (tracks : e.Tracks store history) : e.schedule.Tracks store history :=
  tracks.of_registry rfl rfl tracks.coherent.schedule (Or.inl rfl)

theorem Tracks.store_same {store' : Store} (tracks : e.Tracks store history) (same : store.Same store')
    (ages : store.Ages store') : e.Tracks store' history :=
  { tracks with
    weighed := fun kind => (tracks.weighed kind).ages ages
    notices := tracks.notices.imp_right (Or.imp_right fun reflects kind => (reflects kind).same same) }

theorem Tracks.store_changed {store' : Store} (tracks : e.Tracks store history) (ages : store.Ages store') :
    e.schedule.Tracks store' history :=
  { tracks.schedule with
    weighed := fun kind => (tracks.weighed kind).ages ages
    notices := Or.inl rfl }

theorem Notices.proceed (notices : e.Notices store) (last : Option PassResult) : (e.proceed last).Notices store := by
  unfold Engine.proceed
  split
  next => exact Or.inr (Or.inl (by simp))
  next unwanted => exact Or.inr (notices.resolve_left unwanted)

theorem proceed_rest (e : Engine) (last : Option PassResult) :
    (e.proceed last).registry = e.registry ∧ (e.proceed last).current = e.current := by
  unfold Engine.proceed
  split <;> exact ⟨rfl, rfl⟩

theorem Tracks.wake (tracks : e.Tracks store history) : e.wake.Tracks store history := by
  have coherent := tracks.coherent.wake
  unfold Engine.wake at coherent ⊢
  split at coherent
  next =>
    obtain ⟨registry, current⟩ := e.proceed_rest none
    exact tracks.of_registry registry current coherent (tracks.notices.proceed none)
  next => exact tracks

theorem Tracks.request (tracks : e.Tracks store history) (name : Nat) : (e.request name).Tracks store history :=
  tracks.of_registry rfl rfl (tracks.coherent.request name)
    (tracks.notices.imp_right (Or.imp_left fun member => List.mem_append_left _ member))

theorem Tracks.begin (tracks : e.Tracks store history) (numbered : store.Numbered) :
    (e.begin store).engine.Tracks store history := by
  have coherent := tracks.coherent.begin store
  unfold Engine.begin at coherent ⊢
  split at coherent
  next who rest free line =>
    obtain ⟨proper, configured, stands, taken⟩ := Pass.start_goes store e.registry history tracks.proper
      tracks.fresh numbered tracks.weighed
    exact ⟨coherent, proper, Or.inl configured, fun kind => (taken kind).2,
      Or.inr (Or.inr fun kind => (taken kind).1), stands⟩
  next => exact tracks

theorem Tracks.resume (tracks : e.Tracks store history) (table : LeaseTable) (result : RunResult) :
    (e.resume table result).engine.Tracks store history := by
  have coherent := tracks.coherent.resume table result
  have stands := tracks.stands
  unfold Engine.resume at coherent ⊢
  unfold Stands at stands
  split at coherent
  next who pass current =>
    rw [current] at stands
    have goes := pass.resume_goes table result tracks.proper stands
    refine ⟨coherent, goes.yields.proper, Or.inl (goes.yields.configured.trans (tracks.configured current)),
      fun kind => (goes.yields.pares kind).weighed (tracks.weighed kind), ?_, goes.stands⟩
    exact tracks.notices.imp_right (Or.imp_right fun reflects kind => (goes.yields.pares kind).reflects (reflects kind))
  next => exact tracks

theorem Tracks.complete {who : Requester} {result : PassResult} (tracks : e.Tracks store history)
    (completed : e.complete? = some (who, result, next)) : next.Tracks store (history ++ result.outcomes) := by
  have coherent := tracks.coherent.complete completed
  obtain ⟨pass, current, waiting, rfl, cases⟩ := complete?_some completed
  have stands := tracks.stands
  simp only [Stands, current, Pass.Stands, waiting] at stands
  have rest : next.registry = e.registry ∧ next.current = none := by
    obtain ⟨-, rfl⟩ | ⟨-, rfl⟩ := cases
    · exact Engine.proceed_rest _ _
    · exact ⟨rfl, rfl⟩
  have notices : next.Notices store := by
    have notices : Engine.Notices { e with current := none } store := tracks.notices
    obtain ⟨-, rfl⟩ | ⟨-, rfl⟩ := cases
    · exact notices.proceed _
    · exact notices
  obtain ⟨registry, free⟩ := rest
  refine ⟨coherent, registry ▸ tracks.proper, Or.inl (registry ▸ tracks.configured current),
    registry ▸ tracks.weighed, notices, ?_⟩
  simp only [Stands, free, registry]
  exact stands

theorem Tracks.configure (tracks : e.Tracks store history) :
    Engine.Tracks { e with registry := e.registry.configure.1 } store history := by
  obtain configured | unused := tracks.used
  · have same : e.registry.configure.1 = e.registry := by simp [Registry.configure, configured]
    rw [same]
    exact tracks
  · obtain ⟨free, rfl, installed⟩ := unused
    obtain ⟨proper, sources⟩ := e.registry.configure_keeps tracks.proper tracks.fresh
    have pares (kind : Kind) : (e.registry.updater kind).Pares (e.registry.configure.1.updater kind) :=
      .of_sources ((proper kind).kind.trans (tracks.proper kind).kind.symm) (sources kind)
    have stands := tracks.stands
    simp only [Stands, free] at stands
    refine ⟨⟨tracks.coherent.wanted, tracks.coherent.single, tracks.coherent.working⟩, proper,
      Or.inl e.registry.configure_configured, fun kind => (pares kind).weighed (tracks.weighed kind),
      tracks.notices.imp_right (Or.imp_right fun reflects kind => (pares kind).reflects (reflects kind)), ?_⟩
    -- No kind has an outcome yet, so that those that are in service now need not be at their goal.
    simp only [Stands, free]
    refine fun kind => ⟨?_, fun _ o latest => by cases latest⟩
    simpa only [Updater.Pruned, sources] using (stands kind).pruned

/-- An engine that has nothing to do: its task is over, and no pass is under way. -/
structure AtRest (e : Engine) : Prop where
  task : e.task = none
  free : e.current = none

theorem Tracks.at_rest (tracks : e.Tracks store history) (rest : e.AtRest) (kind : Kind) :
    (e.registry.updater kind).Reflects store ∧ (e.registry.updater kind).Dealt history := by
  have wanted : e.dirty ≠ true := fun dirty => by simpa [rest.task] using tracks.coherent.wanted dirty
  -- A runner in line would be a pass of the task, and there is no task.
  have waiting : Requester.runner ∉ e.line := by
    intro member
    have some : e.runners ≠ 0 := by
      have positive := List.count_pos_iff.mpr member
      unfold runners
      omega
    simpa [rest.task] using tracks.coherent.working some
  have stands := tracks.stands
  simp only [Stands, rest.free] at stands
  exact ⟨(tracks.notices.resolve_left wanted).resolve_left waiting kind, stands kind⟩

end Engine

namespace Updater

variable {u : Updater} {kind : Kind} {store : Store} {history : List KindOutcome} {o : KindOutcome}

/-- A kind is as the leases want it: a heaviest of those that drive it is installed; if none does, the
host's own settings are back, if they can be; and its sources are those leases. -/
structure InLine (u : Updater) (kind : Kind) (store : Store) : Prop where
  installed : (∃ id, store.Drives kind id) → ∃ best, store.Drives kind best ∧
    u.installedSeqno = (store.lease best).seqno ∧
    ∀ id, store.Drives kind id → (store.lease id).weight ≤ (store.lease best).weight
  restored : (¬ ∃ id, store.Drives kind id) → u.restorable = true →
    u.installedSeqno = notInstalled ∧ u.haveBackup = false
  once : (u.sources.map Source.seqno).Nodup
  sources : ∀ n, n ∈ u.sources.map Source.seqno ↔ ∃ id, store.Drives kind id ∧ (store.lease id).seqno = n

theorem Reflects.lease (reflects : u.Reflects store) (weighed : u.Weighed store) {source : Source}
    (member : source ∈ u.sources) (seen : source.seen = true) :
    ∃ id, store.Drives u.kind id ∧ (store.lease id).seqno = source.seqno ∧
      (store.lease id).weight = source.weight := by
  obtain ⟨id, drives, number⟩ := (reflects source.seqno).mp ⟨source, member, seen, rfl⟩
  exact ⟨id, drives, number, weighed.weight (source.seqno, source.weight)
    (List.mem_map_of_mem (f := fun source => (source.seqno, source.weight)) member) id drives.1 number⟩

theorem Reflects.source (reflects : u.Reflects store) (weighed : u.Weighed store) {id : LeaseId}
    (drives : store.Drives u.kind id) :
    ∃ source ∈ u.sources, source.seen = true ∧ source.weight = (store.lease id).weight := by
  obtain ⟨source, member, seen, number⟩ := (reflects (store.lease id).seqno).mpr ⟨id, drives, rfl⟩
  exact ⟨source, member, seen, (weighed.weight (source.seqno, source.weight)
    (List.mem_map_of_mem (f := fun source => (source.seqno, source.weight)) member) id drives.1 number.symm).symm⟩

theorem in_line (proper : u.Proper kind) (weighed : u.Weighed store) (reflects : u.Reflects store)
    (dealt : u.Dealt history) (enabled : u.enabled = true) (latest : latest? history kind = some o)
    (success : o.success = true) : u.InLine kind store := by
  obtain rfl := proper.kind
  have goal := dealt.goal enabled o latest success
  refine ⟨?_, ?_, ?_, ?_⟩
  · rintro ⟨id, drives⟩
    cases selected : u.selectSource with
    | none =>
      obtain ⟨source, member, seen, -⟩ := reflects.source weighed drives
      simp [selectSource_none selected source member] at seen
    | some source =>
      obtain ⟨⟨member, seen⟩, heaviest⟩ := selectSource_some selected
      obtain ⟨best, bestDrives, number, weight⟩ := reflects.lease weighed member seen
      refine ⟨best, bestDrives, (goal.installed source selected).trans number.symm, fun other drives => ?_⟩
      obtain ⟨source', member', seen', weight'⟩ := reflects.source weighed drives
      rw [weight, ← weight']
      exact heaviest source' member' seen'
  · intro none_drives restorable
    cases selected : u.selectSource with
    | none => exact goal.restored selected restorable
    | some source =>
      obtain ⟨⟨member, seen⟩, -⟩ := selectSource_some selected
      obtain ⟨id, drives, -⟩ := reflects.lease weighed member seen
      exact absurd ⟨id, drives⟩ none_drives
  · have known := weighed.known
    rw [entries, List.map_map] at known
    exact known
  · intro n
    rw [← reflects n, List.mem_map]
    constructor
    · rintro ⟨source, member, number⟩
      exact ⟨source, member, dealt.pruned source member, number⟩
    · rintro ⟨source, member, -, number⟩
      exact ⟨source, member, number⟩

end Updater

namespace Host

variable {h : Host} {history : List KindOutcome}

/-- What holds of a host at all times, with the outcomes of the passes that are over. -/
structure Kept (h : Host) (history : List KindOutcome) : Prop where
  owned : h.service.Owned
  served : h.bus.Serves engineName
  tracks : h.engine.Tracks h.store history

theorem Kept.serve {m : Service.Move} (kept : h.Kept history) (permitted : h.service.Permits m) :
    (h.told (h.service.step m).1 (h.service.step m).2).Kept history := by
  obtain ⟨service, bus, engine⟩ := h.told_eq (h.service.step m).1 (h.service.step m).2 kept.served
  have owned := Service.step_owned permitted kept.owned
  have change := Service.step_change permitted kept.owned
  refine ⟨by rwa [service], ?_, ?_⟩
  · unfold Bus.Serves
    rw [bus]
    exact kept.served
  · rw [Host.store, service, engine, Engine.notices_eq]
    split
    next => exact kept.tracks.store_changed change.ages
    next silent =>
      -- What was not told has not changed the leases that are held.
      have same := change.told.resolve_right fun announced => silent (events_announce.mpr announced)
      exact kept.tracks.store_same same change.ages

theorem step_kept {m : Move} (permitted : h.Permits m) (kept : h.Kept history) :
    (h.step m).1.Kept (history ++ (h.step m).2.flatMap PassResult.outcomes) := by
  have numbered : h.store.Numbered := kept.owned.numbered
  have goes_on {engine : Engine} (tracks : engine.Tracks h.store history) :
      Kept { h with engine := engine } (history ++ []) :=
    (List.append_nil history).symm ▸ ⟨kept.owned, kept.served, tracks⟩
  cases m with
  | serve m => exact (List.append_nil history).symm ▸ kept.serve permitted
  | rewire bus => exact (List.append_nil history).symm ▸ ⟨kept.owned, permitted, kept.tracks⟩
  | configure =>
    exact (List.append_nil history).symm ▸ ⟨kept.owned, kept.served, kept.tracks.configure⟩
  | wake => exact goes_on kept.tracks.wake
  | request name => exact goes_on (kept.tracks.request name)
  | begin => exact (List.append_nil history).symm ▸ ⟨kept.owned, kept.served, kept.tracks.begin numbered⟩
  | resume result =>
    exact (List.append_nil history).symm ▸ ⟨kept.owned, kept.served, kept.tracks.resume h.store.table result⟩
  | complete =>
    simp only [step]
    split
    next who result engine completed =>
      rw [List.flatMap_singleton]
      exact ⟨kept.owned, kept.served, kept.tracks.complete completed⟩
    next => exact goes_on kept.tracks

theorem run_kept {moves : List Move} (permitted : h.PermitsAll moves) (kept : h.Kept history) :
    (h.run moves).1.Kept (history ++ (h.run moves).2.flatMap PassResult.outcomes) := by
  induction moves generalizing h history with
  | nil => simpa [run] using kept
  | cons m rest ih =>
    have after := ih permitted.2 (step_kept permitted.1 kept)
    simpa only [run, List.flatMap_append, List.append_assoc] using after

/-- A host over devices without leases, whose engine watches the bus and has configured nothing yet. -/
def initial (now : Moment) (negotiator : Negotiator) (mode : Mode) (devices : List (Scalar × Int))
    (scripts : PerKind (Option Scripts)) (builders : Artifact.Builders) : Host :=
  (bare now negotiator mode (.ofDevices devices) (.ofScripts scripts builders)).watch

end Host

section

variable (now : Moment) (negotiator : Negotiator) (mode : Mode) (devices : List (Scalar × Int))
  (scripts : PerKind (Option Scripts)) (builders : Artifact.Builders)

theorem Host.initial_kept : (initial now negotiator mode devices scripts builders).Kept [] := by
  have blank (kind : Kind) : (Registry.ofScripts scripts builders).updater kind = .blank kind :=
    PerKind.get_ofFn _ _
  have empty (id : LeaseId) : ¬ (Store.ofDevices devices).Holds id := by
    rintro ⟨d, member, held⟩
    rw [(Store.ofDevices_empty devices).1 d member] at held
    cases held
  refine ⟨Service.initial_owned devices mode, ⟨_, .head _, rfl, rfl⟩, ?_⟩
  have coherent : (initial now negotiator mode devices scripts builders).engine.Coherent :=
    ⟨fun dirty => absurd dirty (by simp [initial, watch, bare, Engine.ofRegistry]), Nat.zero_le _,
      fun some => absurd rfl some⟩
  refine ⟨coherent, fun kind => ?_, Or.inr ⟨rfl, rfl, fun kind => ?_⟩, fun kind => ?_,
    Or.inr (Or.inr fun kind n => ?_), fun kind => ?_⟩
  all_goals simp only [initial, watch, bare, Engine.ofRegistry, blank]
  · exact ⟨rfl, fun _ _ => rfl⟩
  · rfl
  · exact ⟨.nil, by simp [Updater.entries, Updater.blank], by simp [Updater.entries, Updater.blank]⟩
  · simp [Updater.Marks, Updater.blank, Host.store, Store.Drives, empty]
  · exact ⟨by simp [Updater.Pruned, Updater.blank], fun _ o latest => by cases latest⟩

/-- However calls, reports, passes and the scripts' ends follow each other: at rest each kind in service whose
most recent outcome is a success is as the leases in the store want it. -/
theorem Host.rest_consistent (moves : List Host.Move)
    (permitted : (initial now negotiator mode devices scripts builders).PermitsAll moves) :
    let h := ((initial now negotiator mode devices scripts builders).run moves).1
    let results := ((initial now negotiator mode devices scripts builders).run moves).2
    h.engine.AtRest → ∀ kind, (h.engine.registry.updater kind).enabled = true →
      ∀ o, latest? (results.flatMap PassResult.outcomes) kind = some o → o.success = true →
        (h.engine.registry.updater kind).InLine kind h.store := by
  intro h results rest kind enabled o latest success
  have kept := run_kept permitted (initial_kept now negotiator mode devices scripts builders)
  rw [List.nil_append] at kept
  obtain ⟨reflects, dealt⟩ := kept.tracks.at_rest rest kind
  exact Updater.in_line (kept.tracks.proper kind) (kept.tracks.weighed kind) reflects dealt enabled latest success

end

/-- A lease that is renewed while its settings are being backed up: the next pass installs what it is then. -/
theorem Host.renewed_consistent :
    let options : Value := .map [(.str "family", .scalar (.str "ipv4"))]
    let moves : List Host.Move := [
      .serve (.draft 0 { Lease.blank .dhcp with hostname := some "node1" }),
      .serve (.acquire (.str "eth0") options (.lenient (List.replicate 16 1)) .accepted),
      .serve (.completeAcquire ⟨.str "eth0", 1, none⟩ 0 default),
      .wake, .begin,
      .serve (.acquire (.str "eth0") options (.lenient (List.replicate 16 2)) .accepted),
      .serve (.completeAcquire ⟨.str "eth0", 2, none⟩ 0 default),
      .resume (.ended true "" none), .resume (.ended true "" none), .complete,
      .begin, .resume (.ended true "" none), .complete]
    let h := ((initial default (.static true) .dhcp [(.str "eth0", 1)]
      ⟨some ⟨some ["set"], some ["save"], some ["undo"], none⟩, none, none, none⟩ .standard).run moves).1
    (h.engine.registry.updater .hostname).installedSeqno = 2 ∧
      (h.engine.registry.updater .hostname).InLine .hostname h.store :=
  ⟨by decide +kernel, rest_consistent _ _ _ _ _ _ _ (by decide +kernel)
    ⟨by decide +kernel, Option.isNone_iff_eq_none.mp (by decide +kernel)⟩ .hostname (by decide +kernel)
    ⟨.hostname, .install, true, 2, [.install], none⟩ (by decide +kernel) rfl⟩

end Leasehold
