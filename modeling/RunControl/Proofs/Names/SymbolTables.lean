import RunControl.Proofs.BreakpointSet
import RunControl.Proofs.Json.ReadBack
import RunControl.Proofs.Names.ByteOrder
import RunControl.Proofs.RunInputs

namespace RunControl

open Json

namespace SymbolTable

def object (ms : List (String × String)) : Node :=
  .object (ms.map fun e => (e.1, .ofString e.2))

end SymbolTable

end RunControl
