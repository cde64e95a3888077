import Leasehold.Proofs.BackupDiscipline
import Leasehold.Proofs.Readings

/-! From the configuration to the scripts that run. Whatever an engine runs stands in the configuration: each command
is read from the entry of its role in the block of its kind, and has words. A kind needs a command to install its
settings and a builder when the kinds are configured, and its other two scripts run only together. -/

namespace Leasehold

theorem Command.parse_filled {v : Value} {argv : List String} (parsed : parse v = .ok (some argv)) : argv ≠ [] := by
  obtain ⟨found, -, parsed⟩ := Reading.bind_ok parsed
  split at parsed
  next => cases parsed
  next filled =>
    cases parsed
    simpa using filled

namespace Inventory

variable {inv : Inventory} {kind : Kind} {role : Role} {block : Entries} {s : Scripts} {argv : List String}

def HasBlock (inv : Inventory) (kind : Kind) (block : Entries) : Prop :=
  ∃ updaters v, (inv.part "updaters").unfold = .map updaters ∧
    Entries.field? updaters kind.name = some v ∧ v.unfold = .map block

def Commands (block : Entries) (role : Role) (argv : List String) : Prop :=
  ∃ v, Entries.field? block role.name = some v ∧ Command.parse v = .ok (some argv)

/-- The time limit of a block: none if nothing is given, or else the number that its entry reads as. -/
def Limits (block : Entries) (timeout : Option Number) : Prop :=
  match given? block "timeout" with
  | none => timeout = none
  | some v => ∃ x, readFloat v = .ok x ∧ timeout = some (.float x)

/-- All that a command which is handed out rests on in the configuration. -/
structure Warrants (inv : Inventory) (block : Entries) (call : Call) : Prop where
  origin : inv.HasBlock call.kind block
  command : Commands block call.role call.argv
  filled : call.argv ≠ []
  limit : Limits block call.timeout
  installs : ∃ argv, Commands block .install argv ∧ argv ≠ []
  pairs : call.role ≠ .install → (∃ argv, Commands block .backup argv ∧ argv ≠ []) ∧
    ∃ argv, Commands block .restore argv ∧ argv ≠ []

theorem Commands.filled (has : Commands block role argv) : argv ≠ [] := by
  obtain ⟨v, -, parsed⟩ := has
  exact Command.parse_filled parsed

theorem commands_of_command (read : command block role.name = .ok (some argv)) : Commands block role argv := by
  unfold command at read
  split at read
  next v entry => exact ⟨v, entry, Reading.mapError_ok read⟩
  next => cases read

/-- The scripts of a block are what its entries say. -/
theorem scriptsOfBlock_read (read : scriptsOfBlock block = .ok s) :
    (∀ role argv, s.command? role = some argv → Commands block role argv) ∧ Limits block s.timeout := by
  obtain ⟨install, first, read⟩ := Reading.bind_ok read
  obtain ⟨backup, second, read⟩ := Reading.bind_ok read
  obtain ⟨restore, third, read⟩ := Reading.bind_ok read
  obtain ⟨timeout, limit, read⟩ := Reading.bind_ok read
  cases read
  refine ⟨fun role argv given => ?_, ?_⟩
  · apply commands_of_command
    cases role with
    | install => exact first.trans (congrArg Except.ok given)
    | backup => exact second.trans (congrArg Except.ok given)
    | restore => exact third.trans (congrArg Except.ok given)
  · unfold Limits
    cases entry : given? block "timeout" with
    | none =>
      rw [entry] at limit
      cases limit
      rfl
    | some v =>
      rw [entry, Option.mapM_some] at limit
      obtain ⟨x, number, limit⟩ := Reading.bind_ok limit
      cases limit
      exact ⟨x, number, rfl⟩

theorem mapOf_ok {v : Value} {asked name : String} {entries : Entries} {field : Value}
    (read : mapOf v asked = .ok entries) (there : Entries.field? entries name = some field) :
    v.unfold = .map entries := by
  unfold mapOf at read
  split at read
  · cases read
    cases there
  · split at read
    next same =>
      cases read
      exact same
    next => cases read

theorem scripts?_read (read : inv.scripts? kind = .ok (some s)) :
    ∃ block, inv.HasBlock kind block ∧ scriptsOfBlock block = .ok s := by
  obtain ⟨updaters, listed, read⟩ := Reading.bind_ok read
  split at read
  next => cases read
  next v given =>
    have entry : Entries.field? updaters kind.name = some v := (Option.filter_eq_some_iff.mp given).1
    split at read
    next block same =>
      obtain ⟨scripts, parsed, read⟩ := Reading.bind_ok read
      cases read
      exact ⟨block, ⟨updaters, v, mapOf_ok listed entry, entry, same⟩, parsed⟩
    next => cases read

end Inventory

theorem Registry.ofInventory_read {inv : Inventory} {builders : Artifact.Builders} {r : Registry}
    (read : ofInventory inv builders = .ok r) :
    ∃ scripts, r = ofScripts scripts builders ∧ ∀ kind, inv.scripts? kind = .ok (scripts.get kind) := by
  obtain ⟨hostname, first, read⟩ := Reading.bind_ok read
  obtain ⟨resolver, second, read⟩ := Reading.bind_ok read
  obtain ⟨ntp, third, read⟩ := Reading.bind_ok read
  obtain ⟨nis, fourth, read⟩ := Reading.bind_ok read
  cases read
  exact ⟨_, rfl, fun kind => by cases kind <;> assumption⟩

/-- A kind in service has the scripts that were given for it, as far as they can be used, and one of them installs. -/
def Equipped (given : Option Scripts) (u : Updater) : Prop :=
  u.enabled = true → ∃ s, given = some s ∧ s.install.isSome ∧ u.scripts = some (Registry.usable s)

namespace Equipped

variable {given : Option Scripts} {u u' : Updater}

theorem faulted (equipped : Equipped given u) (fault : ApplyFault) : Equipped given (u.afterFault fault) := by
  cases fault with
  | script | other => exact equipped
  | unsupported => exact nofun

theorem planned {builders : Artifact.Builders} {table : LeaseTable} {next : Next} (equipped : Equipped given u)
    (planned : Pass.Planned builders table u next u') : Equipped given u' := by
  cases planned with
  | unbuilt source fault => exact equipped.faulted fault
  | standing | bare | restoring | saving | installing => exact equipped

theorem lasting (scripts : PerKind (Option Scripts)) :
    Lasting fun kind u _ => Equipped (scripts.get kind) u where
  sources _ equipped := equipped
  planned equipped _ planned := equipped.planned planned
  concluded equipped _ _ concluded := by
    cases concluded with
    | crashed fault => exact equipped.faulted fault
    | unwritten | failed | restored | saved | installed => exact equipped

theorem configured (given : Option Scripts) (kind : Kind) (builders : Artifact.Builders) :
    Equipped given (Registry.configureKind builders (.blank kind) given).1 := by
  unfold Registry.configureKind
  cases given with
  | none => exact nofun
  | some s =>
    simp only
    split
    next => exact nofun
    next installs =>
      split
      next => exact fun _ => ⟨s, rfl, by simpa [Option.isSome_iff_ne_none] using installs, rfl⟩
      next => exact nofun

/-- The scripts that are used are among the given ones. -/
theorem command_given {s : Scripts} {role : Role} {argv : List String}
    (used : (Registry.usable s).command? role = some argv) : s.command? role = some argv := by
  unfold Registry.usable at used
  split at used
  · exact used
  · cases role with
    | install => exact used
    | backup | restore => cases used

theorem both_given {s : Scripts} {role : Role} {argv : List String} (other : role ≠ .install)
    (used : (Registry.usable s).command? role = some argv) : s.backup.isSome ∧ s.restore.isSome := by
  cases both : s.hasBackupRestore with
  | true => simpa [Scripts.hasBackupRestore] using both
  | false => simp [Registry.usable_bare both other] at used

theorem usable_timeout (s : Scripts) : (Registry.usable s).timeout = s.timeout := by
  unfold Registry.usable
  split <;> rfl

/-- A kind in service finds the command of the script that it runs. -/
theorem command {base : Updater} {before : List ScriptRun} {r : Running} (equipped : Equipped given u)
    (enabled : u.enabled = true) (heading : Pass.Heading base before u r) :
    u.command? r.call.role = some r.call.argv ∧ r.call.timeout = u.scripts.bind Scripts.timeout := by
  obtain ⟨s, -, installs, scripts⟩ := equipped enabled
  obtain ⟨install, installs⟩ := Option.isSome_iff_exists.mp installs
  have used : (Registry.usable s).install = some install := by
    unfold Registry.usable
    split <;> exact installs
  have found : u.command? .install = some ((u.command? .install).getD []) := by
    simp [Updater.command?, scripts, Scripts.command?, used]
  cases heading with
  | restoring argv selected backed command => exact ⟨command, rfl⟩
  | saving source artifact argv selected unsaved command => exact ⟨command, rfl⟩
  | installing | saved => exact ⟨found, rfl⟩

end Equipped

theorem Registry.configure_again (r : Registry) : r.configure.1.configure.1 = r.configure.1 := by
  conv_lhs => rw [configure, if_pos r.configure_configured]

/-- A pass that begins with kinds that are not configured configures them, and so it may as well find them so. -/
theorem Pass.start_configured (store : Store) (r : Registry) :
    (start store r.configure.1).registry = (start store r).registry := by
  simp only [start, Stretch.after, r.configure_again]

namespace Engine

variable {e : Engine} {kind : Kind}

theorem underway?_of_call? {call : Call} (asked : e.call? = some call) :
    ∃ running, e.underway? = some (running, e.registry.updater call.kind) ∧ running.call = call := by
  obtain ⟨⟨who, pass⟩, current, asked⟩ := Option.bind_eq_some_iff.mp asked
  obtain ⟨⟨running, rest⟩, waiting, rfl⟩ := Option.map_eq_some_iff.mp asked
  refine ⟨running, ?_, rfl⟩
  simp only [underway?, current]
  rw [Option.bind_eq_bind, Option.bind_some, waiting]
  rfl

/-- The move at which the kinds are configured leaves a kind without builder out of service. -/
theorem configuring_excludes (orderly : e.Orderly) (fresh : e.registry.configured = false)
    (off : ∀ kind, (e.registry.updater kind).enabled = false) {m : Move}
    (configures : (e.step m).1.registry.configured = true) (lacking : e.registry.builders.has kind = false) :
    ((e.step m).1.registry.updater kind).enabled = false := by
  have excluded : (e.registry.configure.1.updater kind).enabled = false := by
    rw [Registry.configure_updater, fresh, if_neg Bool.false_ne_true]
    unfold Registry.configureKind
    rw [orderly.label kind]
    cases e.registry.scripts.get kind with
    | none => exact off kind
    | some s =>
      simp only [lacking]
      split
      next => exact off kind
      next => rfl
  have moved := e.step_moved m
  generalize (e.step m).1 = next, (e.step m).2 = ended at moved configures ⊢
  cases moved with
  | configured => exact excluded
  | idle registry current =>
    rw [registry, fresh] at configures
    cases configures
  | rebuilt builders =>
    rw [show e.registry.configured = true from configures] at fresh
    cases fresh
  | resumed before table result registry current =>
    rw [orderly.begun (by rw [before]; rfl)] at fresh
    cases fresh
  | begun free who store registry current =>
    have upholds : e.registry.configure.1.Upholds [] fun other u runs =>
        other = kind → u.enabled = false ∧ runs = [] := by
      refine ⟨?_, fun again => ?_⟩
      · rintro other rfl
        exact ⟨excluded, rfl⟩
      · rw [e.registry.configure_configured] at again
        cases again
    rw [registry, ← Pass.start_configured]
    exact (Pass.start_keeps (lasting_disabled kind) store upholds kind rfl).1

/-- Until the kinds are configured, nothing happens to them. -/
theorem Moved.updater_fresh {next : Engine} {ended : List ScriptRun} (moved : e.Moved next ended) (orderly : e.Orderly)
    (fresh : next.registry.configured = false) (kind : Kind) :
    next.registry.updater kind = e.registry.updater kind := by
  cases moved with
  | idle registry current => rw [registry]
  | rebuilt builders => rfl
  | configured =>
    rw [e.registry.configure_configured] at fresh
    cases fresh
  | begun free who store registry current =>
    rw [registry, (Pass.start_settings store e.registry).1] at fresh
    cases fresh
  | @resumed next who pass before table result registry current =>
    have configured : e.registry.configured = true := orderly.begun (by rw [before]; rfl)
    rw [registry] at fresh ⊢
    match waiting : pass.waiting with
    | none => simp [Pass.resume, waiting]
    | some (running, rest) =>
      rw [(Pass.resume_resumed waiting table e.registry result).settings.1, configured] at fresh
      cases fresh

/-- The kinds were configured at some point of a run, and a builder for a kind was there. -/
def FittedIn (e : Engine) (moves : List Move) (kind : Kind) : Prop :=
  ∃ first m rest, moves = first ++ m :: rest ∧ (e.run first).1.registry.configured = false ∧
    (e.run (first ++ [m])).1.registry.configured = true ∧ (e.run first).1.registry.builders.has kind = true

theorem FittedIn.later {m : Move} {moves : List Move} (fitted : (e.step m).1.FittedIn moves kind) :
    e.FittedIn (m :: moves) kind := by
  obtain ⟨first, last, rest, rfl, before, after, builder⟩ := fitted
  exact ⟨m :: first, last, rest, rfl, before, after, builder⟩

/-- A kind gets into service only when the kinds are configured, and only with a builder. -/
theorem fitted_of_enabled (orderly : e.Orderly) (fresh : e.registry.configured = false)
    (off : ∀ kind, (e.registry.updater kind).enabled = false) {moves : List Move}
    (enabled : ((e.run moves).1.registry.updater kind).enabled = true) : e.FittedIn moves kind := by
  induction moves generalizing e with
  | nil =>
    rw [run, off kind] at enabled
    cases enabled
  | cons m rest ih =>
    have moved := e.step_moved m
    have orderly' := moved.orderly orderly
    cases configured : (e.step m).1.registry.configured with
    | false =>
      exact (ih orderly' configured (fun kind => moved.updater_fresh orderly configured kind ▸ off kind) enabled).later
    | true =>
      cases builder : e.registry.builders.has kind with
      | true => exact ⟨[], m, rest, rfl, fresh, configured, builder⟩
      | false =>
        have excluded := configuring_excludes orderly fresh off configured builder
        rw [show (e.run (m :: rest)).1 = ((e.step m).1.run rest).1 from rfl,
          (disabled_stays orderly' configured excluded rest).1] at enabled
        cases enabled

/-- Whatever the builders are and become, every command that an engine hands out is the one that the configuration has
for the kind and the script's role, with the time limit of the kind's block; the kind finds it among its own scripts.
The kind has a command to install its settings, for a backup or a restoration it has both of these, and its builder was
there when the kinds were configured. -/
theorem run_commands_configured {inv : Inventory} {builders : Artifact.Builders} {r : Registry}
    (read : Registry.ofInventory inv builders = .ok r) (moves : List Move) {call : Call}
    (asked : ((ofRegistry r).run moves).1.call? = some call) :
    (∃ block, inv.Warrants block call) ∧
      (((ofRegistry r).run moves).1.registry.updater call.kind).command? call.role = some call.argv ∧
      (ofRegistry r).FittedIn moves call.kind := by
  obtain ⟨scripts, rfl, listed⟩ := Registry.ofInventory_read read
  have upholds : (initial scripts builders).registry.Upholds [] fun kind u _ => Equipped (scripts.get kind) u :=
    initial_upholds (fun _ => nofun) fun _ _ => .configured _ _ _
  obtain ⟨orderly, kept⟩ := run_keeps (Equipped.lasting scripts) moves (initial_orderly scripts builders) upholds
  obtain ⟨running, underway, rfl⟩ := underway?_of_call? asked
  obtain ⟨enabled, base, before, heading⟩ := orderly.heading underway
  have equipped := kept.now running.call.kind
  have fitted : (initial scripts builders).FittedIn moves running.call.kind :=
    fitted_of_enabled (initial_orderly scripts builders) rfl (fun kind => by cases kind <;> rfl) enabled
  obtain ⟨command, timeout⟩ := equipped.command enabled heading
  obtain ⟨s, given, installs, used⟩ := equipped enabled
  obtain ⟨block, there, parsed⟩ := Inventory.scripts?_read ((listed running.call.kind).trans (congrArg Except.ok given))
  obtain ⟨entries, limit⟩ := Inventory.scriptsOfBlock_read parsed
  have found (role : Role) (has : (s.command? role).isSome) :
      ∃ argv, Inventory.Commands block role argv ∧ argv ≠ [] :=
    have ⟨argv, has⟩ := Option.isSome_iff_exists.mp has
    ⟨argv, entries role argv has, (entries role argv has).filled⟩
  rw [Updater.command?, used, Option.bind_some] at command
  have own := entries running.call.role running.call.argv (Equipped.command_given command)
  rw [used, Option.bind_some, Equipped.usable_timeout] at timeout
  refine ⟨⟨block, there, own, own.filled, timeout ▸ limit, found .install installs, fun other => ?_⟩, ?_, fitted⟩
  · obtain ⟨backs, restores⟩ := Equipped.both_given other command
    exact ⟨found .backup backs, found .restore restores⟩
  · rw [Updater.command?, used, Option.bind_some]
    exact command

/-- A backup has run and the builders are gone; the installation is as configured. -/
theorem unfitted_install_configured :
    let block : Value := .map [(.str "install", .str "/i 'a b'"), (.str "backup", .strs ["/b"]),
      (.str "restore", .str "/r"), (.str "timeout", .int 5)]
    let inv : Inventory := ⟨[(.str "updaters", .map [(.str "hostname", block)])]⟩
    let lease : Lease := { Lease.blank .dhcp with seqno := 1, hostname := some "a" }
    let store : Store := ⟨[lease], [⟨.str "eth0", 1, [0]⟩], 1⟩
    let moves : List Move := [.request 0, .begin store, .rebuild [], .resume store.table (.ended true "" none)]
    let call : Call := ⟨.hostname, .install, ["/i", "a b"], some "a\n", some (.float (.ofInt 5))⟩
    ∃ r, Registry.ofInventory inv .standard = .ok r ∧ ((ofRegistry r).run moves).1.call? = some call ∧
      (∃ block, inv.Warrants block call) ∧
      (((ofRegistry r).run moves).1.registry.updater .hostname).command? .install = some ["/i", "a b"] ∧
      (ofRegistry r).FittedIn moves .hostname := by
  intro block inv lease store moves call
  have asked : ((Registry.ofInventory inv .standard).toOption.bind fun r => ((ofRegistry r).run moves).1.call?) =
      some call := by decide +kernel
  obtain ⟨r, read, asked⟩ := Option.bind_eq_some_iff.mp asked
  have read := Reading.ok_of_toOption read
  exact ⟨r, read, asked, run_commands_configured read moves asked⟩

end Engine
end Leasehold
