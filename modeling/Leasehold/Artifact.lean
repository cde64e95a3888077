import Leasehold.Lease

/-! Settings artifacts: the file that an install script gets, made from a lease by the builder of the
kind of setting. -/

namespace Leasehold

/-- What goes wrong while settings are applied: a script fails, a kind turns out to be unsupported, or
anything else. Builders and script runs may break down with any of these. -/
inductive ApplyFault
  | script (message : String)
  | unsupported (message : String)
  | other (message : String)
deriving DecidableEq, Repr, Inhabited

def ApplyFault.message : ApplyFault → String
  | .script message | .unsupported message | .other message => message

namespace Artifact

abbrev Builder := Lease → Except ApplyFault String

def hostname : Builder := fun lease =>
  .ok (lease.hostname.getD "None" ++ "\n")

/-- The lines of a resolver configuration after its header. -/
def resolverLines (r : ResolverInfo) : List String :=
  (match r.domain with
    | some domain => if domain == "" then [] else ["domain " ++ domain]
    | none => []) ++
  (if r.search.isEmpty then [] else ["search " ++ Text.join " " r.search]) ++
  r.servers.map ("nameserver " ++ ·)

def header (lease : Lease) : String :=
  "# generated by mcp-addrconf from " ++ lease.origin ++ " lease " ++ toString lease.seqno

/-- A resolver configuration: the header, then domain, search list and servers as far as given. -/
def resolver : Builder := fun lease =>
  match lease.resolver with
  | some r => .ok (Text.join "\n" (header lease :: resolverLines r) ++ "\n")
  | none => .error (.other "'NoneType' object has no attribute 'default_domain'")

/-- The builders by kind, in the order in which they were first registered. -/
abbrev Builders := List (Kind × Builder)

def unknown (kind : Kind) : ApplyFault :=
  .unsupported ("cannot install new " ++ kind.name ++ " settings - file format not understood")

namespace Builders

/-- Builders for the settings whose file formats are known. -/
def standard : Builders := [(.hostname, hostname), (.resolver, resolver)]

def get? (builders : Builders) (kind : Kind) : Option Builder :=
  builders.lookup kind

def has (builders : Builders) (kind : Kind) : Bool :=
  (builders.get? kind).isSome

/-- Sets the builder of a kind. A known kind keeps its place. -/
def register (builders : Builders) (kind : Kind) (builder : Builder) : Builders :=
  if builders.has kind then
    builders.map fun entry => if entry.1 = kind then (kind, builder) else entry
  else builders ++ [(kind, builder)]

def unregister (builders : Builders) (kind : Kind) : Builders :=
  builders.filter fun entry => entry.1 ≠ kind

def build (builders : Builders) (kind : Kind) (lease : Lease) : Except ApplyFault String :=
  match builders.get? kind with
  | none => .error (unknown kind)
  | some builder => builder lease

end Builders

end Artifact

end Leasehold
