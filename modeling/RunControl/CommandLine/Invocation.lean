import RunControl.Address

namespace RunControl.CommandLine

inductive LogFormat where
  | text
  | json
  deriving DecidableEq, Repr

namespace LogFormat

def name : LogFormat → String
  | .text => "text"
  | .json => "json"

def ofName? (s : String) : Option LogFormat :=
  [text, json].find? (·.name == s)

end LogFormat

inductive Verbosity where
  | quiet
  | normal
  | verbose
  | trace
  deriving DecidableEq, Repr

namespace Verbosity

def level : Verbosity → String
  | .quiet => "error"
  | .normal => "warn"
  | .verbose => "debug"
  | .trace => "trace"

def ofWishes (quiet : Bool) (verbose : Nat) : Verbosity :=
  if quiet then .quiet
  else
    match verbose with
    | 0 => .normal
    | 1 => .verbose
    | _ => .trace

end Verbosity

structure StoreArguments where
  session : String
  storageDir : Option String
  deriving DecidableEq, Repr

structure RunArguments where
  trace : String
  session : Option String
  labels : Option String
  script : Option String
  storageDir : Option String
  relocate : Bool
  deriving DecidableEq, Repr

inductive Command where
  | add (target : String) (oneShot : Bool) (labels : Option String) (store : StoreArguments)
  | remove (address : Address) (store : StoreArguments)
  | toggle (address : Address) (store : StoreArguments)
  | list (store : StoreArguments)
  | resolve (name : String) (labels : Option String)
  | run (arguments : RunArguments)
  deriving DecidableEq, Repr

structure Invocation where
  verbose : Nat
  quiet : Bool
  logFormat : LogFormat
  config : Option String
  command : Command
  deriving DecidableEq, Repr

def Invocation.verbosity (i : Invocation) : Verbosity :=
  .ofWishes i.quiet i.verbose

end RunControl.CommandLine
