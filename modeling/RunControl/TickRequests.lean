namespace RunControl

/-- A queue from which ticks are taken as long as somebody is attached to it, or a mere count. -/
inductive TickRequests where
  | queue (waiting : Nat) (attached : Bool)
  | counter (requests : Nat)
  deriving DecidableEq, Repr

namespace TickRequests

def channel : TickRequests := .queue 0 true

def request : TickRequests → TickRequests
  | .queue n true => .queue (n + 1) true
  | .queue n false => .queue n false
  | .counter n => .counter (n + 1)

def waiting : TickRequests → Nat
  | .queue n _ => n
  | .counter _ => 0

def take? : TickRequests → Option TickRequests
  | .queue (n + 1) attached => some (.queue n attached)
  | _ => none

def detach : TickRequests → TickRequests
  | .queue _ _ => .queue 0 false
  | .counter n => .counter n

def requests : TickRequests → Nat
  | .queue _ _ => 0
  | .counter n => n

end TickRequests

end RunControl
