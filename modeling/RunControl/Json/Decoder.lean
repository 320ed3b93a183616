import RunControl.Json.Fault
import RunControl.Json.Reader
import RunControl.Json.Writer
import RunControl.Table

namespace RunControl.Json

abbrev Decoder (α : Type) := Node → Except Fault α

def within {α : Type} (seg : Segment) (r : Except Fault α) : Except Fault α :=
  r.mapError (Fault.within seg)

def Node.found? : Node → Option Found
  | .null => some .null
  | .bool b => some (.bool b)
  | .num lexeme =>
      match Number.ofLexeme? lexeme with
      | some (.natural n) => some (.integer n)
      | some (.negative n) => some (.integer (-n))
      | some (.real x) => (realLexeme? x).map fun cs => .real (String.ofList cs)
      | none => none
  | .str text => text.map .string
  | .seq _ => some .sequence
  | .map _ => some .map
  | .broken => none

def unexpected (n : Node) (expected : String) : Fault :=
  match n.found? with
  | some f => .data [] (.invalidType f expected)
  | none => .grammar

namespace Decoder

variable {α β : Type}

def natural (bound : Nat) (expected : String) : Decoder Nat
  | .num lexeme =>
      match Number.ofLexeme? lexeme with
      | some (.natural n) =>
          if n < bound then .ok n else .error (.data [] (.invalidValue n expected))
      | some (.negative n) => .error (.data [] (.invalidValue (-n) expected))
      | _ => .error (unexpected (.num lexeme) expected)
  | n => .error (unexpected n expected)

def word32 : Decoder UInt32 := fun n =>
  (natural 0x100000000 "u32" n).map UInt32.ofNat

def word64 (expected : String) : Decoder UInt64 := fun n =>
  (natural 0x10000000000000000 expected n).map UInt64.ofNat

def real : Decoder Float
  | .num lexeme =>
      match Number.ofLexeme? lexeme with
      | some (.natural n) => .ok (UInt64.ofNat n).toFloat
      | some (.negative n) => .ok (-(UInt64.ofNat n).toFloat)
      | some (.real x) => .ok x
      | none => .error .grammar
  | n => .error (unexpected n "f64")

def boolean : Decoder Bool
  | .bool b => .ok b
  | n => .error (unexpected n "a boolean")

def string : Decoder String
  | .str (some s) => .ok s
  | n => .error (unexpected n "a string")

def unit (expected : String) : Decoder Unit
  | .null => .ok ()
  | n => .error (unexpected n expected)

def nullable (d : Decoder α) : Decoder (Option α)
  | .null => .ok none
  | n => (d n).map some

def itemsFrom (d : Decoder α) (i : Nat) : Items → Except Fault (List α)
  | .closed => .ok []
  | .broken => .error .grammar
  | .cons n r =>
      match within (.index i) (d n) with
      | .error e => .error e
      | .ok a =>
          match itemsFrom d (i + 1) r with
          | .error e => .error e
          | .ok as => .ok (a :: as)

def list (d : Decoder α) : Decoder (List α)
  | .seq items => itemsFrom d 0 items
  | n => .error (unexpected n "a sequence")

def membersInto (d : Decoder α) (t : Table String α) : Members → Except Fault (Table String α)
  | .closed => .ok t
  | .cons (some k) n r =>
      match within (.name k) (d n) with
      | .error e => .error e
      | .ok a => membersInto d (t.insert k a) r
  | _ => .error .grammar

def table (d : Decoder α) : Decoder (Table String α)
  | .map members => membersInto d .empty members
  | n => .error (unexpected n "a map")

end Decoder

structure Field where
  name : String
  check : Node → Except Fault Unit

structure Slots where
  expected : String
  names : List String
  listed : Bool
  found : List (String × Node)

def expectedLength (expected : String) (count : Nat) : String :=
  s!"{expected} with {count} " ++ if count = 1 then "element" else "elements"

def Slots.missing (s : Slots) (name : String) : Fault :=
  if s.listed then
    .data [] (.invalidLength (s.names.idxOf name) (expectedLength s.expected s.names.length))
  else .data [] (.missingField name)

structure Record (α : Type) where
  fields : List Field
  build : Slots → Except Fault α

namespace Record

variable {α β : Type}

def required (name : String) (d : Decoder α) : Record α where
  fields := [⟨name, fun n => (d n).map fun _ => ()⟩]
  build s :=
    match s.found.lookup name with
    | some n => d n
    | none => .error (s.missing name)

def optional (name : String) (d : Decoder α) (default : α) : Record α where
  fields := [⟨name, fun n => (d n).map fun _ => ()⟩]
  build s :=
    match s.found.lookup name with
    | some n => d n
    | none => .ok default

instance : Functor Record where
  map f r := ⟨r.fields, fun s => (r.build s).map f⟩

instance : Seq Record where
  seq f r := ⟨f.fields ++ (r ()).fields, fun s => do
    let g ← f.build s
    let a ← (r ()).build s
    .ok (g a)⟩

def collect (fields : List Field) (strict : Bool) (found : List (String × Node)) :
    Members → Except Fault (List (String × Node))
  | .closed => .ok found
  | .cons (some k) n r =>
      match fields.find? (fun f => f.name == k) with
      | some f =>
          if (found.lookup k).isSome then .error (.data [] (.duplicateField k))
          else
            match within (.name k) (f.check n) with
            | .error e => .error e
            | .ok _ => collect fields strict ((k, n) :: found) r
      | none =>
          if strict then .error (.data [.name k] (.unknownField k (fields.map Field.name)))
          else if n.intact then collect fields strict found r
          else .error .grammar
  | _ => .error .grammar

def place (i : Nat) (found : List (String × Node)) :
    List Field → Items → Except Fault (List (String × Node) × Items)
  | [], rest => .ok (found, rest)
  | _ :: _, .closed => .ok (found, .closed)
  | _ :: _, .broken => .error .grammar
  | f :: fs, .cons n r =>
      match within (.index i) (f.check n) with
      | .error e => .error e
      | .ok _ => place (i + 1) ((f.name, n) :: found) fs r

def decode (r : Record α) (expected : String) (strict : Bool) : Decoder α
  | .map members => do
      let found ← collect r.fields strict [] members
      r.build ⟨expected, r.fields.map Field.name, false, found⟩
  | .seq items => do
      let (found, rest) ← place 0 [] r.fields items
      let a ← r.build ⟨expected, r.fields.map Field.name, true, found⟩
      match rest with
      | .closed => .ok a
      | _ => .error .grammar
  | n => .error (unexpected n expected)

end Record

inductive Content (α : Type) where
  | unit (a : α)
  | value (d : Decoder α)
  | record (d : Decoder α)

structure Variant (α : Type) where
  name : String
  content : Content α

namespace Variant

variable {α : Type}

def bare (v : Variant α) : Except Fault α :=
  match v.content with
  | .unit a => .ok a
  | .value _ => .error (.data [.name v.name] (.invalidType .unitVariant "newtype variant"))
  | .record _ => .error (.data [.name v.name] (.invalidType .unitVariant "struct variant"))

def decodeContent (v : Variant α) (n : Node) : Except Fault α :=
  within (.name v.name) <|
    match v.content with
    | .unit a => (Decoder.unit "unit" n).map fun _ => a
    | .value d => d n
    | .record d => d n

def select (variants : List (Variant α)) (name : String) : Except Fault (Variant α) :=
  match variants.find? (fun v => v.name == name) with
  | some v => .ok v
  | none => .error (.data [] (.unknownVariant name (variants.map Variant.name)))

def decode (variants : List (Variant α)) : Decoder α
  | .str (some name) => do (← select variants name).bare
  | .map (.cons (some name) n rest) => do
      let v ← select variants name
      let a ← v.decodeContent n
      match rest with
      | .closed => .ok a
      | _ => .error .grammar
  | _ => .error .grammar

end Variant

def decodeText {α : Type} (d : Decoder α) (text : String) : Except Fault α :=
  d (read text.toList).1

def decodeWhole? {α : Type} (d : Decoder α) (text : String) : Option α :=
  let (n, rest) := read text.toList
  match d n with
  | .ok a => if rest.all isBlank then some a else none
  | .error _ => none

end RunControl.Json
