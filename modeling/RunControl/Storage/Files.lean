import RunControl.Storage.Basic

namespace RunControl

structure FileStorage where
  dir : String
  tree : Files.Tree
  deriving DecidableEq

namespace FileStorage

def isPlainByte (b : UInt8) : Bool :=
  (0x61 ≤ b && b ≤ 0x7a) || (0x41 ≤ b && b ≤ 0x5a) || (0x30 ≤ b && b ≤ 0x39) ||
    b == 0x2d || b == 0x5f || b == 0x2e

def upperHexDigit (n : Nat) : Char :=
  (Nat.digitChar n).toUpper

def spellByte (b : UInt8) : List Char :=
  if isPlainByte b then [Char.ofNat b.toNat]
  else ['%', upperHexDigit (b.toNat / 16), upperHexDigit (b.toNat % 16)]

def fileName (key : String) : String :=
  String.ofList (key.toUTF8.toList.flatMap spellByte ++ ".json".toList)

def pathIn (dir key : String) : String :=
  Files.join dir (fileName key)

def pathFor (s : FileStorage) (key : String) : String :=
  pathIn s.dir key

def write (s : FileStorage) (key value : String) : Except StorageFault Unit × FileStorage :=
  match s.tree.makeDirectories s.dir with
  | (.error cause, t) => (.error (.makeDirectory s.dir cause), { s with tree := t })
  | (.ok (), t) =>
      match t.writeBytes (s.pathFor key) value.toUTF8 with
      | .error cause => (.error (.write (s.pathFor key) cause), { s with tree := t })
      | .ok t' => (.ok (), { s with tree := t' })

instance : Storage FileStorage where
  get? s key := (s.tree.readText (s.pathFor key)).toOption
  set := write

end FileStorage

end RunControl
