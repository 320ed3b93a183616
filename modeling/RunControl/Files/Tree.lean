import RunControl.Files.Path
import RunControl.Table
import RunControl.Text.Utf8

namespace RunControl.Files

inductive Fault where
  | notFound
  | exists
  | notDirectory
  | isDirectory
  | nameTooLong
  | zeroByte
  | notText
  deriving DecidableEq, Repr

def Fault.message : Fault → String
  | .notFound => "No such file or directory (os error 2)"
  | .exists => "File exists (os error 17)"
  | .notDirectory => "Not a directory (os error 20)"
  | .isDirectory => "Is a directory (os error 21)"
  | .nameTooLong => "File name too long (os error 36)"
  | .zeroByte => "file name contained an unexpected NUL byte"
  | .notText => "stream did not contain valid UTF-8"

inductive Entry where
  | directory
  | file (bytes : ByteArray)

instance : DecidableEq Entry
  | .directory, .directory => isTrue rfl
  | .directory, .file _ => isFalse nofun
  | .file _, .directory => isFalse nofun
  | .file a, .file b =>
      match ByteArray.instDecidableEq a b with
      | isTrue h => isTrue (congrArg Entry.file h)
      | isFalse h => isFalse fun e => h (Entry.file.inj e)

structure Tree where
  entries : Table Location Entry
  deriving DecidableEq

namespace Tree

def empty : Tree := ⟨.empty⟩

instance : Inhabited Tree := ⟨empty⟩

def entry? (t : Tree) (loc : Location) : Option Entry :=
  if loc = root ∨ loc = here then some .directory else t.entries.get? loc

def put (t : Tree) (loc : Location) (e : Entry) : Tree :=
  ⟨t.entries.insert loc e⟩

def follow (t : Tree) (loc : Location) : List String → Except Fault Location
  | [] => .ok loc
  | c :: cs =>
      match t.entry? loc with
      | none => .error .notFound
      | some (.file _) => .error .notDirectory
      | some .directory =>
          if c = ".." then follow t (above loc) cs
          else if 255 < c.utf8ByteSize then .error .nameTooLong
          else follow t (below loc c) cs

def refusal? (path : String) : Option Fault :=
  if path.toList.contains '\x00' then some .zeroByte
  else if tooLong path then some .nameTooLong
  else none

def locate (t : Tree) (path : String) : Except Fault Location :=
  if path.isEmpty then .error .notFound
  else
    match refusal? path with
    | some e => .error e
    | none => t.follow (start path) (names path)

def readBytes (t : Tree) (path : String) : Except Fault ByteArray :=
  match t.locate path with
  | .error e => .error e
  | .ok loc =>
      match t.entry? loc with
      | none => .error .notFound
      | some .directory => .error .isDirectory
      | some (.file bytes) =>
          if meansDirectory path then .error .notDirectory else .ok bytes

def readText (t : Tree) (path : String) : Except Fault String :=
  match t.readBytes path with
  | .error e => .error e
  | .ok bytes =>
      match Text.Utf8.decode? bytes with
      | some s => .ok s
      | none => .error .notText

def pathExists (t : Tree) (path : String) : Bool :=
  match t.locate path with
  | .error _ => false
  | .ok loc =>
      match t.entry? loc with
      | none => false
      | some .directory => true
      | some (.file _) => !meansDirectory path

def writeBytes (t : Tree) (path : String) (bytes : ByteArray) : Except Fault Tree :=
  match t.locate path with
  | .error e => .error e
  | .ok loc =>
      match t.entry? loc with
      | some .directory => .error .isDirectory
      | some (.file _) =>
          if meansDirectory path then .error .notDirectory else .ok (t.put loc (.file bytes))
      | none => if meansDirectory path then .error .isDirectory else .ok (t.put loc (.file bytes))

def settle (t : Tree) (base : Location) (reversed : List String) :
    Except Fault Location × Tree :=
  match t.follow base reversed.reverse with
  | .error e => (.error e, t)
  | .ok loc =>
      match t.entry? loc with
      | none => (.ok loc, t.put loc .directory)
      | some .directory => (.ok loc, t)
      | some (.file _) => (.error .exists, t)

def settleAll (t : Tree) (base : Location) : List String → Except Fault Location × Tree
  | [] => (.ok base, t)
  | name :: above =>
      match t.settle base (name :: above) with
      | (.error .notFound, _) =>
          match settleAll t base above with
          | (.ok loc, t') => t'.settle loc [name]
          | failed => failed
      | r => r

def findDirectory (t : Tree) (base : Location) (path : List String) : Except Fault Location :=
  match t.follow base path with
  | .error e => .error e
  | .ok loc =>
      match t.entry? loc with
      | none => .error .notFound
      | some (.file _) => .error .notDirectory
      | some .directory => .ok loc

def settleAbove (t : Tree) (base : Location) (reversed : List String) :
    Except Fault Location × Tree :=
  match t.findDirectory base reversed.reverse with
  | .error .notFound =>
      match t.settleAll base reversed.tail with
      | (.ok _, t') => (t'.findDirectory base reversed.reverse, t')
      | failed => failed
  | r => (r, t)

def makeDirectories (t : Tree) (path : String) : Except Fault Unit × Tree :=
  match refusal? path with
  | some e => (.error e, t)
  | none =>
      let reversed := (names path).reverse
      let r := if endsInPoint path then t.settleAbove (start path) reversed
        else t.settleAll (start path) reversed
      (r.1.map fun _ => (), r.2)

end Tree

end RunControl.Files
