import Leasehold.Artifact
import Leasehold.Inventory
import Leasehold.Updater

/-! The registry: one updater for each kind of setting, configured once from the scripts at hand. A
kind is put in service if it has an install script and a builder for its artifact. -/

namespace Leasehold

/-- The configured scripts, the builders, and the updater of each kind. -/
structure Registry where
  scripts : PerKind (Option Scripts)
  builders : Artifact.Builders
  updaters : PerKind Updater
  configured : Bool

namespace Registry

def ofScripts (scripts : PerKind (Option Scripts)) (builders : Artifact.Builders) : Registry :=
  ⟨scripts, builders, .ofFn Updater.blank, false⟩

def ofInventory (inv : Inventory) (builders : Artifact.Builders) :
    Except Inventory.Fault Registry := do
  let hostname ← inv.scripts? .hostname
  let resolver ← inv.scripts? .resolver
  let ntp ← inv.scripts? .ntp
  let nis ← inv.scripts? .nis
  return ofScripts ⟨hostname, resolver, ntp, nis⟩ builders

/-- The name under which messages speak of a kind's updater. -/
def extensionName (kind : Kind) : String :=
  kind.name ++ "-updater"

/-- Scripts of which backup and restore are used together or not at all. -/
def usable (s : Scripts) : Scripts :=
  if s.hasBackupRestore then s else { s with backup := none, restore := none }

/-- Why a kind without builder is out of service. -/
def builderReason (kind : Kind) : String :=
  "cannot install " ++ kind.name ++ " settings - no artifact builder"

/-- The updater of a kind with its scripts, and what there is to say about it. -/
def configureKind (builders : Artifact.Builders) (u : Updater) (scripts : Option Scripts) :
    Updater × List Log.Record :=
  let name := extensionName u.kind
  match scripts with
  | none => (u, [])
  | some s =>
    if s.install.isNone then
      (u, [Log.warning ("extension " ++ name ++ " configured, but no install script defined")])
    else
      let said := if s.hasBackupRestore then [] else
        [Log.warning ("extension " ++ name ++ " configured, but no backup/restore script defined")]
      let u := { u with scripts := some (usable s), enabled := true }
      if builders.has u.kind then (u, said)
      else
        let reason := builderReason u.kind
        (u.disable reason,
          said ++ [Log.error ("extension " ++ name ++ ": " ++ reason ++ "; disabling")])

/-- Configures the updaters. Only the first time has any effect. -/
def configure (r : Registry) : Registry × List Log.Record :=
  if r.configured then (r, [])
  else
    let result := PerKind.ofFn fun kind =>
      configureKind r.builders (r.updaters.get kind) (r.scripts.get kind)
    ({ r with updaters := result.map (·.1), configured := true }, result.toList.flatMap (·.2))

def updater (r : Registry) (kind : Kind) : Updater :=
  r.updaters.get kind

def modify (r : Registry) (kind : Kind) (change : Updater → Updater) : Registry :=
  { r with updaters := r.updaters.set kind (change (r.updater kind)) }

def modifyAll (r : Registry) (change : Updater → Updater) : Registry :=
  { r with updaters := r.updaters.map change }

def enabled (r : Registry) : List Kind :=
  Kind.all.filter fun kind => (r.updater kind).enabled

def view (r : Registry) (table : LeaseTable) : Value :=
  .list (r.updaters.toList.map fun u => u.view table)

end Registry

end Leasehold
