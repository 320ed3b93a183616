import RunControl.Breakpoint
import RunControl.Storage.Basic

namespace RunControl

open Json

abbrev BreakpointSet := Table Address Flags

namespace BreakpointSet

def put (s : BreakpointSet) (b : Breakpoint) : BreakpointSet :=
  s.insert b.address b.toFlags

def at? (s : BreakpointSet) (a : Address) : Option Breakpoint :=
  (s.get? a).map fun f => { f with address := a }

def toList (s : BreakpointSet) : List Breakpoint :=
  s.entries.map fun e => { e.2 with address := e.1 }

def putBack (s : BreakpointSet) (a : Address) : Option Breakpoint → BreakpointSet
  | some b => s.insert a b.toFlags
  | none => s.erase a

def ofList (bs : List Breakpoint) : BreakpointSet :=
  bs.foldl put .empty

def enabled (s : BreakpointSet) : List Address :=
  (s.toList.filter Breakpoint.isEnabled).map (·.address)

def isArmedAt (s : BreakpointSet) (a : Address) : Bool :=
  (s.at? a).any Breakpoint.isEnabled

def text (s : BreakpointSet) : String :=
  (Node.list (s.toList.map Breakpoint.toNode)).text

def ofText (text : String) : BreakpointSet :=
  match decodeWhole? (.list Breakpoint.decode) text with
  | some bs => ofList bs
  | none => .empty

end BreakpointSet

structure Store (σ : Type) where
  key : String
  storage : σ
  set : BreakpointSet
  deriving DecidableEq

namespace Store

variable {σ : Type} [Storage σ]

def saved? (s : Store σ) : Option String :=
  Storage.get? s.storage s.key

def restore (key : String) (storage : σ) : BreakpointSet :=
  match Storage.get? storage key with
  | some text => .ofText text
  | none => .empty

def load (key : String) (storage : σ) : Store σ :=
  ⟨key, storage, restore key storage⟩

def persist (s : Store σ) : Except Error Unit × Store σ :=
  let (r, storage) := Storage.set s.storage s.key s.set.text
  (r.mapError .storage, { s with storage })

def persistOrRevert (s : Store σ) (a : Address) (previous : Option Breakpoint) :
    Except Error Unit × Store σ :=
  match s.persist with
  | (.ok (), t) => (.ok (), t)
  | (.error e, t) => (.error e, { t with set := t.set.putBack a previous })

def add (s : Store σ) (b : Breakpoint) : Except Error Unit × Store σ :=
  ({ s with set := s.set.put b } : Store σ).persistOrRevert b.address (s.set.at? b.address)

def remove (s : Store σ) (a : Address) : Except Error Bool × Store σ :=
  match s.set.at? a with
  | none => (.ok false, s)
  | some b =>
      let (r, t) := ({ s with set := s.set.erase a } : Store σ).persistOrRevert a (some b)
      (r.map fun _ => true, t)

def toggle (s : Store σ) (a : Address) : Except Error Breakpoint × Store σ :=
  match s.set.at? a with
  | none => (.error (.noBreakpoint a), s)
  | some b =>
      let b' := { b with disabled := !b.disabled }
      let (r, t) := ({ s with set := s.set.put b' } : Store σ).persistOrRevert a (some b)
      (r.map fun _ => b', t)

def inspectBreakpoint (b : Breakpoint) : String :=
  s!"Breakpoint \x7b address: {b.address}, disabled: {b.disabled}, one_shot: {b.oneShot} \x7d"

def inspect (s : Store σ) : String :=
  let items := ", ".intercalate (s.set.toList.map inspectBreakpoint)
  s!"BreakpointStore \x7b key: {Text.Quoted.encode s.key}, breakpoints: [{items}] \x7d"

end Store

end RunControl
