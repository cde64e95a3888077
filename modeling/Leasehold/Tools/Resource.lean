import Leasehold.Tools.Call
import Leasehold.Url

/-! Resources: the leases of each device under an address of their own. -/

namespace Leasehold.Tools

structure Resource where
  address : String
  name : String
  description : String
  mediaType : String
deriving DecidableEq, Repr

namespace Resource

def scheme : String := "addrconf://"

inductive Fault
  /-- Its name is a number with too many digits to be written. -/
  | unwritable
  /-- Its name makes a text that is no address. -/
  | address (text : String) (fault : Url.Fault)
deriving DecidableEq, Repr

def Fault.message : Fault → String
  | .unwritable => Whole.unwritable
  | .address text fault =>
    "1 validation error for function-wrap[wrap_val()]\n  Input should be a valid URL, " ++
      fault.message ++ " [type=url_parsing, input_value=" ++ Utf8.clipped (Quoted.text text) ++
      ", input_type=str]"

def ofDevice (name : Scalar) : Except Fault Resource := do
  if !name.isWritable then throw .unwritable
  let rest := name.display ++ "/leases"
  let address ← (Url.written scheme rest).mapError (.address (scheme ++ rest))
  return {
    address := address
    name := name.display ++ " Leases"
    description := "Active leases of " ++ name.display
    mediaType := "application/json" }

/-- The resources of a store, in the order of its devices. All of them are lost if one cannot be made. -/
def all (store : Store) : Except Fault (List Resource) :=
  store.devices.mapM fun d => ofDevice d.name

/-- The name of the device whose leases an address stands for. -/
def device? (address : String) : Option String :=
  if scheme.toList.isPrefixOf address.toList then
    match Text.splitAt '/' (address.toList.drop scheme.length) with
    | device :: what :: _ => if String.ofList what == "leases" then some (String.ofList device) else none
    | _ => none
  else none

def unknown (address : String) : Value :=
  .object [("error", .str ("Unknown resource: " ++ address))]

end Resource

end Leasehold.Tools
