import RunControl.Address
import RunControl.Json.Decoder

namespace RunControl

open Json

structure Flags where
  disabled : Bool
  oneShot : Bool
  deriving DecidableEq, Repr

structure Breakpoint extends Flags where
  address : Address
  deriving DecidableEq, Repr

namespace Breakpoint

def standing (a : Address) : Breakpoint :=
  { address := a, disabled := false, oneShot := false }

def single (a : Address) : Breakpoint :=
  { address := a, disabled := false, oneShot := true }

def isEnabled (b : Breakpoint) : Bool :=
  !b.disabled

def describe (b : Breakpoint) : String :=
  b.address.marked ++
    match b.disabled, b.oneShot with
    | false, false => ""
    | true, false => " (disabled)"
    | false, true => " (one-shot)"
    | true, true => " (disabled, one-shot)"

def flagMember (name : String) (set : Bool) : List (String × Node) :=
  if set then [(name, .bool true)] else []

def toNode (b : Breakpoint) : Node :=
  .object ([("address", .ofNat b.address.toNat)] ++ flagMember "disabled" b.disabled ++
    flagMember "oneShot" b.oneShot)

def ofFields (a : Address) (disabled oneShot : Bool) : Breakpoint :=
  { address := a, disabled, oneShot }

def decode : Decoder Breakpoint :=
  (ofFields <$> .required "address" .word32 <*> .optional "disabled" .boolean false <*>
    .optional "oneShot" .boolean false : Record Breakpoint).decode "struct Breakpoint" false

end Breakpoint

end RunControl
