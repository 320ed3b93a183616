import RunControl.Engine.Basic
import RunControl.Host
import RunControl.Store

namespace RunControl

inductive Hit where
  | none
  | transient (address : Address)
  | persistent (address : Address)
  deriving DecidableEq, Repr

def Hit.stops : Hit → Bool
  | .none => false
  | _ => true

structure Arming where
  armed : List Address
  deriving DecidableEq, Repr

namespace Arming

variable {ε σ : Type} [Engine ε] [Storage σ]

def idle : Arming := ⟨[]⟩

def arm (s : Store σ) (e : ε) : Arming × ε :=
  (⟨s.set.enabled⟩, s.set.enabled.foldl Engine.register e)

def disarm (a : Arming) (e : ε) : Arming × ε :=
  (idle, a.armed.foldl Engine.clear e)

def checkHit (s : Store σ) (e : ε) (host : HostLog) : Except Error Hit × Store σ × HostLog :=
  let a := Engine.instructionPointer e
  match (s.set.at? a).filter Breakpoint.isEnabled with
  | none => (.ok .none, s, host)
  | some b =>
      if b.oneShot then
        let (r, s) := s.remove a
        (r.map fun _ => .transient a, s, host)
      else (.ok (.persistent a), s, host.push (.showTab breakpointsTab))

end Arming

end RunControl
