import RunControl.Address
import RunControl.CommandLine.Grammar

namespace RunControl.CommandLine

inductive UsageFault where
  | helpAsked (p : Place)
  | versionAsked
  | nothingSaid (p : Place)
  | commandMissing (p : Place)
  | unknownCommand (word : String)
  | unknownWord (word : String)
  | missing (f : Field)
  | noValue (f : Field)
  | badChoice (f : Field) (text : String)
  | badAddress (text : String) (fault : NumeralFault)
  | repeated (p : Parameter)
  | conflict (a b : Switch)
  | valueOnSwitch (s : Switch)
  deriving DecidableEq, Repr

namespace UsageFault

def synopsis (p : Place) : String :=
  let commands := p.subcommands.map (·.1)
  let operands := p.operands.map fun f => "<" ++ f.long ++ ">"
  let parameters := p.parameters.map fun q => "[--" ++ q.long ++ "]"
  let choice := if commands.isEmpty then [] else ["(" ++ " | ".intercalate commands ++ ")"]
  "Usage: emu-debug " ++ " ".intercalate (parameters ++ operands ++ choice)

def message : UsageFault → String
  | .helpAsked p => synopsis p
  | .versionAsked => "emu-debug 0.1.0"
  | .nothingSaid p => synopsis p
  | .commandMissing p => "a command is missing\n" ++ synopsis p
  | .unknownCommand word => s!"there is no command '{word}'"
  | .unknownWord word => s!"'{word}' is not expected here"
  | .missing f => s!"<{f.long}> is missing"
  | .noValue f => s!"<{f.long}> has no value"
  | .badChoice f text => s!"'{text}' is no value for <{f.long}>"
  | .badAddress text fault => Address.readMessage text fault
  | .repeated p => s!"'--{p.long}' can be given only once"
  | .conflict a b => s!"'--{a.long}' cannot be used with '--{b.long}'"
  | .valueOnSwitch s => s!"'--{s.long}' takes no value"

end UsageFault

end RunControl.CommandLine
