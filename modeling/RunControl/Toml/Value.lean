namespace RunControl.Toml

/-- How a table came about: on the way to a header, by dotted keys, by its own header, or as a
value between braces, which is closed for good. -/
inductive Origin where
  | implied
  | dotted
  | header
  | inline
  deriving DecidableEq, Repr

inductive Value where
  | string (s : String)
  | integer (n : Int)
  | float (x : Float)
  | boolean (b : Bool)
  | moment
  | array (items : List Value)
  | tables (items : List Value)
  | table (origin : Origin) (entries : List (String × Value))
  deriving Repr, Inhabited

abbrev Entries := List (String × Value)

def Entries.put (es : Entries) (k : String) (v : Value) : Entries :=
  if es.any (·.1 == k) then es.map fun e => if e.1 == k then (k, v) else e
  else es ++ [(k, v)]

def Entries.within (dotted : Bool) (f : Entries → Option Entries) :
    List String → Entries → Option Entries
  | [], es => f es
  | k :: ks, es =>
      match es.lookup k with
      | none => do
          let inner ← Entries.within dotted f ks []
          return es.put k (.table (if dotted then .dotted else .implied) inner)
      | some (.table origin inner) =>
          if origin = .inline ∨ (dotted ∧ origin = .header) then none
          else do
            let inner ← Entries.within dotted f ks inner
            return es.put k (.table origin inner)
      | some (.tables items) =>
          match items.getLast? with
          | some (.table origin inner) => do
              let inner ← Entries.within dotted f ks inner
              return es.put k (.tables (items.dropLast ++ [.table origin inner]))
          | _ => none
      | some _ => none

def Entries.define (k : String) (v : Value) (es : Entries) : Option Entries :=
  if es.any (·.1 == k) then none else some (es ++ [(k, v)])

def Entries.assign (path : List String) (k : String) (v : Value) (es : Entries) : Option Entries :=
  es.within true (Entries.define k v) path

def Entries.openTable (path : List String) (k : String) (es : Entries) : Option Entries :=
  es.within false (fun inner =>
    match inner.lookup k with
    | none => some (inner ++ [(k, .table .header [])])
    | some (.table .implied old) => some (inner.put k (.table .header old))
    | some _ => none) path

def Entries.openElement (path : List String) (k : String) (es : Entries) : Option Entries :=
  es.within false (fun inner =>
    match inner.lookup k with
    | none => some (inner ++ [(k, .tables [.table .header []])])
    | some (.tables items) => some (inner.put k (.tables (items ++ [.table .header []])))
    | some _ => none) path

def Entries.assignUnder (header : List String) (path : List String) (k : String) (v : Value)
    (es : Entries) : Option Entries :=
  es.within false (Entries.assign path k v) header

end RunControl.Toml
