import Leasehold.Value

/-! The external scripts of one kind of setting. -/

namespace Leasehold

inductive Role
  | backup
  | restore
  | install
deriving DecidableEq, Repr, Inhabited

namespace Role

def name : Role → String
  | backup => "backup"
  | restore => "restore"
  | install => "install"

def all : List Role := [backup, restore, install]

def ofName? (s : String) : Option Role :=
  all.find? fun role => role.name == s

end Role

/-- The commands of one kind of setting, and how long each may run. -/
structure Scripts where
  install : Option (List String)
  backup : Option (List String)
  restore : Option (List String)
  timeout : Option Number
deriving DecidableEq, Repr, Inhabited

namespace Scripts

def hasBackupRestore (s : Scripts) : Bool :=
  s.backup.isSome && s.restore.isSome

def view (s : Scripts) : Value :=
  .object [("install", .optStrs s.install), ("backup", .optStrs s.backup),
    ("restore", .optStrs s.restore),
    ("timeout", (s.timeout.map fun n => .scalar n.toScalar).getD .null),
    ("has_backup_restore", .bool s.hasBackupRestore)]

def command? (s : Scripts) : Role → Option (List String)
  | .backup => s.backup
  | .restore => s.restore
  | .install => s.install

end Scripts

end Leasehold
