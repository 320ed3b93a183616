import Mathlib.Data.String.Basic
import Mathlib.Tactic.SplitIfs
import RunControl.Proofs.Files.Spelling

namespace RunControl.Text

def bytes (s : String) : List UInt8 :=
  s.toUTF8.toList

end RunControl.Text
