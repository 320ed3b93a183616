import RunControl.Toml.Quoted
import RunControl.Toml.Scalar

namespace RunControl.Toml

open Quoted (Rest isSpace isPlain afterBreak?)

def skipSpace (cs : List Char) : Rest :=
  cs.dropWhile isSpace

def afterComment? (cs : List Char) : Option Rest :=
  match cs with
  | '#' :: cs => some (cs.dropWhile isPlain)
  | cs => some cs

def endLine? (cs : List Char) : Option Rest := do
  let cs ← afterComment? (skipSpace cs)
  match cs with
  | [] => some []
  | cs => afterBreak? cs

def skipFiller : Nat → List Char → Rest
  | 0, cs => cs
  | fuel + 1, cs =>
      match skipSpace cs with
      | '#' :: rest => skipFiller fuel (rest.dropWhile isPlain)
      | rest =>
          match afterBreak? rest with
          | some rest => skipFiller fuel rest
          | none => rest

def isBareChar (c : Char) : Bool :=
  c.isAlphanum || c == '_' || c == '-'

def simpleKey? (cs : List Char) : Option (String × Rest) :=
  match cs.takeWhile isBareChar with
  | [] => Quoted.line? cs
  | bare => some (String.ofList bare, cs.dropWhile isBareChar)

def maxDepth : Nat := 79

def keysWithin? : Nat → List Char → Option (List String × Rest)
  | 0, _ => none
  | room + 1, cs => do
      let (k, rest) ← simpleKey? (skipSpace cs)
      match skipSpace rest with
      | '.' :: rest => do
          let (ks, rest) ← keysWithin? room rest
          return (k :: ks, rest)
      | rest => return ([k], rest)

def keys? (cs : List Char) : Option (List String × Rest) :=
  keysWithin? maxDepth cs

def splitLast? (ks : List String) : Option (List String × String) :=
  ks.getLast?.map fun k => (ks.dropLast, k)

mutual

def value? : Nat → Nat → List Char → Option (Value × Rest)
  | 0, _, _ => none
  | fuel + 1, room, cs =>
      match cs with
      | '[' :: cs => if room = 0 then none else arrayFrom fuel (room - 1) [] cs
      | '\x7b' :: cs =>
          if room = 0 then none
          else
            match skipSpace cs with
            | '\x7d' :: rest => some (.table .inline [], rest)
            | rest => tableFrom fuel (room - 1) [] rest
      | '"' :: _ => (Quoted.read? cs).map fun (s, rest) => (.string s, rest)
      | '\'' :: _ => (Quoted.read? cs).map fun (s, rest) => (.string s, rest)
      | cs => Scalar.read? cs

def arrayFrom : Nat → Nat → List Value → List Char → Option (Value × Rest)
  | 0, _, _, _ => none
  | fuel + 1, room, reversed, cs =>
      match skipFiller cs.length cs with
      | ']' :: rest => some (.array reversed.reverse, rest)
      | cs => do
          let (v, rest) ← value? fuel room cs
          match skipFiller rest.length rest with
          | ',' :: rest => arrayFrom fuel room (v :: reversed) rest
          | ']' :: rest => some (.array (v :: reversed).reverse, rest)
          | _ => none

def tableFrom : Nat → Nat → Entries → List Char → Option (Value × Rest)
  | 0, _, _, _ => none
  | fuel + 1, room, es, cs => do
      let (ks, rest) ← keys? cs
      let '=' :: rest := rest | none
      let (v, rest) ← value? fuel room (skipSpace rest)
      let (path, k) ← splitLast? ks
      let es ← es.assign path k v
      match skipSpace rest with
      | ',' :: rest => tableFrom fuel room es rest
      | '\x7d' :: rest => some (.table .inline es, rest)
      | _ => none

end

structure Progress where
  header : List String
  entries : Entries

def line? (p : Progress) (cs : List Char) : Option (Progress × Rest) :=
  match skipSpace cs with
  | '[' :: '[' :: rest => do
      let (ks, rest) ← keys? rest
      let ']' :: ']' :: rest := rest | none
      let rest ← endLine? rest
      let (path, k) ← splitLast? ks
      return (⟨ks, ← p.entries.openElement path k⟩, rest)
  | '[' :: rest => do
      let (ks, rest) ← keys? rest
      let ']' :: rest := rest | none
      let rest ← endLine? rest
      let (path, k) ← splitLast? ks
      return (⟨ks, ← p.entries.openTable path k⟩, rest)
  | [] => some (p, [])
  | '#' :: rest => (endLine? ('#' :: rest)).map fun rest => (p, rest)
  | cs =>
      match afterBreak? cs with
      | some rest => some (p, rest)
      | none => do
          let (ks, rest) ← keys? cs
          let '=' :: rest := rest | none
          let (v, rest) ← value? (rest.length + 1) maxDepth (skipSpace rest)
          let rest ← endLine? rest
          let (path, k) ← splitLast? ks
          return (⟨p.header, ← p.entries.assignUnder p.header path k v⟩, rest)

def linesFrom (p : Progress) : Nat → List Char → Option Entries
  | _, [] => some p.entries
  | 0, _ => none
  | fuel + 1, cs => do
      let (p, rest) ← line? p cs
      linesFrom p fuel rest

def read? (text : String) : Option Entries :=
  let cs := match text.toList with
    | '\ufeff' :: cs => cs
    | cs => cs
  linesFrom ⟨[], []⟩ (cs.length + 1) cs

end RunControl.Toml
