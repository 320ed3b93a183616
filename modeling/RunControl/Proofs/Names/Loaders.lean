import RunControl.Proofs.Json.Records
import RunControl.Proofs.Names.SymbolTables

namespace RunControl

open Json Json.Record

namespace Trace

inductive Frame where
  | object (before : List (Option String × Node)) (after : Members)
  | list (program : Node) (after : Items)

def Frame.fill (table : Node) : Frame → Node
  | .object before after => .map (Members.ofList (.cons (some "imports") table after) before)
  | .list program after => .seq (.cons program (.cons table after))

def record : Record Trace :=
  Trace.mk <$> .required "program" (.list .word32) <*>
    .optional "imports" (.table .string) .empty <*>
    .optional "blocks" (.list (.natural 0x10000000000000000 "usize")) [] <*>
    .optional "exit_code" .word32 0 <*> .optional "mappings" (.list Mapping.decode) []

end Trace

namespace SymbolTable

end SymbolTable

end RunControl
