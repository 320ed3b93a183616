import RunControl.Address
import RunControl.Files.Tree
import RunControl.Json.Fault

namespace RunControl

inductive StorageFault where
  | readOnly (key : String)
  | makeDirectory (path : String) (cause : Files.Fault)
  | write (path : String) (cause : Files.Fault)
  | refused (count : Nat)
  deriving DecidableEq, Repr

def StorageFault.message : StorageFault → String
  | .readOnly key => "Storage is read-only, cannot write " ++ key
  | .makeDirectory path cause => s!"Failed to create {path}: {cause.message}"
  | .write path cause => s!"Failed to write {path}: {cause.message}"
  | .refused count => s!"write {count} failed"

inductive ConfigFault where
  | unreadable (path : String) (cause : Files.Fault)
  | malformed
  | zeroStep
  | smoothing (given : String)
  | maximumTooSmall (maximum initial : UInt64)
  deriving DecidableEq, Repr

def ConfigFault.message : ConfigFault → String
  | .unreadable path cause => s!"Failed to read {path}: {cause.message}"
  | .malformed => "TOML parse error"
  | .zeroStep => "initial_step_size must be positive"
  | .smoothing given => "smoothing must be within [0, 1], got " ++ given
  | .maximumTooSmall maximum initial =>
      s!"max_step_size ({maximum}) is below initial_step_size ({initial})"

inductive Error where
  | noBreakpoint (address : Address)
  | storage (fault : StorageFault)
  | payload (what : String) (fault : Json.Fault)
  | addressKey (key : String) (fault : NumeralFault)
  | config (fault : ConfigFault)
  | imageNotText (name : String) (fault : Text.Utf8.Fault)
  | unreadable (path : String) (cause : Files.Fault)
  | unresolved (target : String)
  deriving DecidableEq, Repr

namespace Error

/-- What is wrong with a document, without the line and the column that it was found at. Every document that is no JSON
is reported alike, and nothing tells which rule of the grammar it breaks or where in its values it does so. -/
def payloadMessage (what : String) : Json.Fault → String
  | .grammar => what ++ ": JSON syntax"
  | .data path reason => s!"{what} at `{path.text}`: {reason.text}"

def message : Error → String
  | .noBreakpoint address => "No breakpoint at " ++ address.marked
  | .storage fault => "Storage error: " ++ fault.message
  | .payload what fault => "Malformed engine payload: " ++ payloadMessage what fault
  | .addressKey key fault =>
      s!"Malformed engine payload: bad address key {Text.Quoted.encode key}: {fault.message}"
  | .config fault => "Configuration error: " ++ fault.message
  | .imageNotText name fault => s!"Engine error: {name} is not UTF-8: {fault.message}"
  | .unreadable path cause => s!"Invalid arguments: Failed to read {path}: {cause.message}"
  | .unresolved target =>
      s!"Invalid arguments: Cannot resolve {Text.Quoted.encode target} to a label or hex address"

end Error

end RunControl
