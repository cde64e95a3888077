import Leasehold.Acquisition.Service

/-! The methods that remote callers have on one device. Whatever they do wrong comes back as a fault of
one of two domains: the arguments are bad, or the operation failed. -/

namespace Leasehold.Remote

/-- Where the blame for a fault lies. -/
inductive Domain
  | invalidArguments
  | failed
deriving DecidableEq, Repr

def Domain.name : Domain → String
  | invalidArguments => "org.freedesktop.DBus.Error.InvalidArgs"
  | failed => "org.freedesktop.DBus.Error.Failed"

structure MethodFault where
  domain : Domain
  message : String
deriving DecidableEq, Repr

def MethodFault.text (f : MethodFault) : String :=
  f.domain.name ++ ": " ++ f.message

def MethodFault.view (f : MethodFault) : Value :=
  .object [("domain", .str f.domain.name), ("message", .str f.message)]

/-- Why a method gives no answer: a fault for the caller, or a negotiator that broke down. -/
inductive Fault
  | method (fault : MethodFault)
  | crash (message : String)
deriving DecidableEq, Repr

/-- A fault of the service as the caller of a method is told; `doing` says what could not be done. -/
def reportFault (doing : String) : ServiceFault → Fault
  | .invalid fault => .method ⟨.invalidArguments, fault.message⟩
  | .crash message => .crash message
  | fault => .method ⟨.failed, doing ++ fault.message⟩

def acquire (s : Service) (device : Scalar) (options : Value) (intake : Intake) (reply : Reply) :
    Outcome Fault Unit :=
  (s.acquire device options intake reply).reported fun result =>
    (result.map fun _ => ()).mapError
      (reportFault ("Cannot configure interface " ++ device.display ++ ": "))

/-- The uuid that a caller's argument names. Null names none. -/
def leaseUuid : Value → Except MethodFault (Option Bytes)
  | .scalar .null => .ok none
  | .scalar (.bytes bytes) =>
    if bytes.length = 16 then .ok (some bytes) else .error ⟨.invalidArguments, "bad uuid argument"⟩
  | _ => .error ⟨.invalidArguments, "bad uuid argument"⟩

/-- Starts to release the device's lease, or only the one of a uuid. -/
def drop (s : Service) (device : Scalar) (uuid : Value) (reply : Reply) : Outcome Fault Unit :=
  match leaseUuid uuid with
  | .error fault => ⟨.error (.method fault), s, []⟩
  | .ok uuid =>
    (s.release device uuid reply).reported fun result =>
      result.mapError (reportFault ("Unable to drop lease for interface " ++ device.display ++ ": "))

def properties (s : Service) (device : Scalar) : Except UnknownDevice Value × Service :=
  match s.openSession device with
  | .error fault => (.error fault, s)
  | .ok (session, s) =>
    (.ok (.object ([("name", .scalar device), ("mode", .str s.mode.name)] ++ session.fields s.store)),
      s)

end Leasehold.Remote
