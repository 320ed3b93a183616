import RunControl.Text.Quoted

namespace RunControl.Json

inductive Segment where
  | index (n : Nat)
  | name (s : String)
  deriving DecidableEq, Repr

abbrev Path := List Segment

def Path.text : Path → String
  | [] => "."
  | first :: rest =>
      let head := match first with
        | .index n => s!"[{n}]"
        | .name s => s
      rest.foldl (fun acc seg => match seg with
        | .index n => acc ++ s!"[{n}]"
        | .name s => acc ++ "." ++ s) head

inductive Found where
  | null
  | bool (b : Bool)
  | integer (n : Int)
  | real (numeral : String)
  | string (s : String)
  | sequence
  | map
  | unitVariant
  deriving DecidableEq, Repr

def Found.text : Found → String
  | .null => "null"
  | .bool b => s!"boolean `{b}`"
  | .integer n => s!"integer `{n}`"
  | .real numeral => s!"floating point `{numeral}`"
  | .string s => "string " ++ Text.Quoted.encode s
  | .sequence => "sequence"
  | .map => "map"
  | .unitVariant => "unit variant"

inductive Reason where
  | invalidType (found : Found) (expected : String)
  | invalidValue (n : Int) (expected : String)
  | invalidLength (n : Nat) (expected : String)
  | unknownVariant (name : String) (known : List String)
  | unknownField (name : String) (known : List String)
  | missingField (name : String)
  | duplicateField (name : String)
  deriving DecidableEq, Repr

def alternatives (known : List String) : String :=
  ", ".intercalate (known.map fun s => s!"`{s}`")

def Reason.text : Reason → String
  | .invalidType found expected => s!"invalid type: {found.text}, expected {expected}"
  | .invalidValue n expected => s!"invalid value: integer `{n}`, expected {expected}"
  | .invalidLength n expected => s!"invalid length {n}, expected {expected}"
  | .unknownVariant name known =>
      s!"unknown variant `{name}`, expected one of {alternatives known}"
  | .unknownField name known => s!"unknown field `{name}`, expected one of {alternatives known}"
  | .missingField name => s!"missing field `{name}`"
  | .duplicateField name => s!"duplicate field `{name}`"

inductive Fault where
  | grammar
  | data (path : Path) (reason : Reason)
  deriving DecidableEq, Repr

def Fault.within (seg : Segment) : Fault → Fault
  | .grammar => .grammar
  | .data path reason => .data (seg :: path) reason

end RunControl.Json
