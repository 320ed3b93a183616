namespace RunControl.Files

def join (dir file : String) : String :=
  if dir.isEmpty || dir.toList.getLast? == some '/' then dir ++ file else dir ++ "/" ++ file

def splitSlash : List Char → List (List Char)
  | [] => [[]]
  | c :: cs =>
      if c = '/' then [] :: splitSlash cs
      else
        match splitSlash cs with
        | p :: ps => (c :: p) :: ps
        | [] => [[c]]

def names (path : String) : List String :=
  ((splitSlash path.toList).map String.ofList).filter fun s => !(s.isEmpty || s == ".")

abbrev Location := String

def root : Location := ""

def here : Location := "."

def below (dir : Location) (name : String) : Location :=
  dir ++ "/" ++ name

def above (loc : Location) : Location :=
  if loc.toList.contains '/' then
    String.ofList (loc.toList.reverse.dropWhile (· != '/')).tail.reverse
  else loc

def start (path : String) : Location :=
  if path.toList.head? == some '/' then root else here

def tooLong (path : String) : Bool :=
  4096 ≤ path.utf8ByteSize

def meansDirectory (path : String) : Bool :=
  match (splitSlash path.toList).getLast? with
  | some last => (last.isEmpty && !path.isEmpty) || last == ['.']
  | none => false

def endsInPoint (path : String) : Bool :=
  ((splitSlash path.toList).filter (!·.isEmpty)).getLast? == some ['.']

def fileName? (path : String) : Option String :=
  (names path).getLast?.filter (· != "..")

def stem (name : String) : String :=
  let cs := name.toList
  let before := (cs.reverse.dropWhile (· != '.')).tail.reverse
  if before.isEmpty then name else String.ofList before

def fileStem? (path : String) : Option String :=
  (fileName? path).map stem

end RunControl.Files
