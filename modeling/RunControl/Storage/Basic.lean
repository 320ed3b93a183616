import RunControl.Error

namespace RunControl

class Storage (σ : Type) where
  get? : σ → String → Option String
  set : σ → String → String → Except StorageFault Unit × σ

structure MemoryStorage where
  entries : Table String String
  deriving DecidableEq

namespace MemoryStorage

def empty : MemoryStorage := ⟨.empty⟩

instance : Storage MemoryStorage where
  get? s key := s.entries.get? key
  set s key value := (.ok (), ⟨s.entries.insert key value⟩)

end MemoryStorage

structure ReadOnlyStorage where
  snapshot : Option String
  deriving DecidableEq

instance : Storage ReadOnlyStorage where
  get? s _ := s.snapshot
  set s key _ := (.error (.readOnly key), s)

structure FlakyStorage where
  entries : Table String String
  writes : Nat
  refused : List Nat
  deriving DecidableEq

instance : Storage FlakyStorage where
  get? s key := s.entries.get? key
  set s key value :=
    let n := s.writes + 1
    if n ∈ s.refused then (.error (.refused n), { s with writes := n })
    else (.ok (), { s with writes := n, entries := s.entries.insert key value })

end RunControl
