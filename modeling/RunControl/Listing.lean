import RunControl.Address
import RunControl.Json.Decoder

namespace RunControl

open Json

structure Mapping where
  addr : Address
  size : UInt32
  module : Option String
  desc : String
  deriving DecidableEq, Repr

namespace Mapping

def toNode (m : Mapping) : Node :=
  .object ([("addr", .ofNat m.addr.toNat), ("size", .ofNat m.size.toNat)] ++
    (m.module.toList.map fun s => ("module", .ofString s)) ++ [("desc", .ofString m.desc)])

def decode : Decoder Mapping :=
  (Mapping.mk <$> .required "addr" .word32 <*> .required "size" .word32 <*>
    .optional "module" (.nullable .string) none <*> .required "desc" .string : Record Mapping).decode
    "struct Mapping" false

end Mapping

structure InstructionPart where
  kind : String
  text : String
  deriving DecidableEq, Repr

namespace InstructionPart

def toNode (p : InstructionPart) : Node :=
  .object [("kind", .ofString p.kind), ("text", .ofString p.text)]

def decode : Decoder InstructionPart :=
  (InstructionPart.mk <$> .required "kind" .string <*> .required "text" .string :
    Record InstructionPart).decode "struct InstructionPart" false

end InstructionPart

structure Instruction where
  addr : Address
  bytes : String
  code : List InstructionPart
  ops : List String
  deriving DecidableEq, Repr

namespace Instruction

def text (i : Instruction) : String :=
  String.join (i.code.map InstructionPart.text)

def toNode (i : Instruction) : Node :=
  .object [("addr", .ofNat i.addr.toNat), ("bytes", .ofString i.bytes),
    ("code", .list (i.code.map InstructionPart.toNode)),
    ("ops", .list (i.ops.map Node.ofString))]

def decode : Decoder Instruction :=
  (Instruction.mk <$> .required "addr" .word32 <*> .required "bytes" .string <*>
    .required "code" (.list InstructionPart.decode) <*> .optional "ops" (.list .string) [] :
    Record Instruction).decode "struct Instruction" false

end Instruction

end RunControl
