import RunControl.Address

namespace RunControl

inductive HostEvent where
  | exit (code : UInt32)
  | windowChanged
  | showTab (name : String)
  | error (message : String)
  | output (text : String)
  deriving DecidableEq, Repr

abbrev HostLog := Array HostEvent

def breakpointsTab : String := "breakpoints"

end RunControl
