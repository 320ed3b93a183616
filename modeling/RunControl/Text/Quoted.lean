import RunControl.Text.Hidden

namespace RunControl.Text.Quoted

def spellChar (c : Char) : List Char :=
  match c with
  | '\x00' => ['\\', '0']
  | '\t' => ['\\', 't']
  | '\n' => ['\\', 'n']
  | '\r' => ['\\', 'r']
  | '"' => ['\\', '"']
  | '\\' => ['\\', '\\']
  | c =>
      if isHidden c then '\\' :: 'u' :: '\x7b' :: (Nat.toDigits 16 c.toNat ++ ['\x7d'])
      else [c]

def encode (s : String) : String :=
  String.ofList ('"' :: s.toList.flatMap spellChar ++ ['"'])

end RunControl.Text.Quoted
