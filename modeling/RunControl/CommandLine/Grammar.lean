namespace RunControl.CommandLine

inductive Switch where
  | help
  | version
  | verbose
  | quiet
  | oneShot
  | relocate
  deriving DecidableEq, Repr

inductive Field where
  | logFormat
  | config
  | session
  | storageDir
  | labels
  | script
  | trace
  | target
  | address
  deriving DecidableEq, Repr

inductive Parameter where
  | switch (s : Switch)
  | option (f : Field)
  deriving DecidableEq, Repr

namespace Switch

def long : Switch → String
  | .help => "help"
  | .version => "version"
  | .verbose => "verbose"
  | .quiet => "quiet"
  | .oneShot => "one-shot"
  | .relocate => "relocate"

def short? : Switch → Option Char
  | .help => some 'h'
  | .version => some 'V'
  | .verbose => some 'v'
  | .quiet => some 'q'
  | .oneShot => none
  | .relocate => none

end Switch

namespace Field

def long : Field → String
  | .logFormat => "log-format"
  | .config => "config"
  | .session => "session"
  | .storageDir => "storage-dir"
  | .labels => "labels"
  | .script => "script"
  | .trace => "trace"
  | .target => "target"
  | .address => "address"

def short? : Field → Option Char
  | .session => some 's'
  | .trace => some 't'
  | _ => none

end Field

namespace Parameter

def long : Parameter → String
  | .switch s => s.long
  | .option f => f.long

def short? : Parameter → Option Char
  | .switch s => s.short?
  | .option f => f.short?

end Parameter

inductive Verb where
  | add
  | remove
  | toggle
  | list
  | resolve
  | run
  deriving DecidableEq, Repr

inductive Place where
  | program
  | breakpoints
  | command (v : Verb)
  deriving DecidableEq, Repr

namespace Place

def subcommands : Place → List (String × Place)
  | .program =>
      [("break", .breakpoints), ("resolve", .command .resolve), ("run", .command .run)]
  | .breakpoints =>
      [("add", .command .add), ("remove", .command .remove), ("toggle", .command .toggle),
        ("list", .command .list)]
  | .command _ => []

def subcommand? (p : Place) (word : String) : Option Place :=
  p.subcommands.lookup word

def sharedParameters : List Parameter :=
  [.switch .help, .switch .verbose, .switch .quiet, .option .logFormat, .option .config]

def storeParameters : List Parameter :=
  [.option .session, .option .storageDir]

def ownParameters : Place → List Parameter
  | .program => [.switch .version]
  | .breakpoints => []
  | .command .add => [.switch .oneShot, .option .labels] ++ storeParameters
  | .command .remove => storeParameters
  | .command .toggle => storeParameters
  | .command .list => storeParameters
  | .command .resolve => [.option .labels]
  | .command .run =>
      [.option .trace, .option .labels, .option .script, .switch .relocate] ++ storeParameters

def parameters (p : Place) : List Parameter :=
  sharedParameters ++ p.ownParameters

def long? (p : Place) (name : String) : Option Parameter :=
  p.parameters.find? (·.long == name)

def short? (p : Place) (c : Char) : Option Parameter :=
  p.parameters.find? (·.short? == some c)

def operands : Place → List Field
  | .command .add => [.target]
  | .command .remove => [.address]
  | .command .toggle => [.address]
  | .command .resolve => [.target]
  | _ => []

end Place

end RunControl.CommandLine
