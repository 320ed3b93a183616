namespace RunControl.Toml.Quoted

abbrev Rest := List Char

def isPlain (c : Char) : Bool :=
  c == '\t' || (0x20 ≤ c.toNat && c.toNat != 0x7f)

def hexDigit? (c : Char) : Option Nat :=
  if c.isDigit then some (c.toNat - '0'.toNat)
  else if 'a' ≤ c ∧ c ≤ 'f' then some (c.toNat - 'a'.toNat + 10)
  else if 'A' ≤ c ∧ c ≤ 'F' then some (c.toNat - 'A'.toNat + 10)
  else none

def hex? : Nat → Nat → List Char → Option (Nat × Rest)
  | 0, n, cs => some (n, cs)
  | k + 1, n, c :: cs => (hexDigit? c).bind fun d => hex? k (n * 16 + d) cs
  | _ + 1, _, [] => none

def scalar? (n : Nat) : Option Char :=
  if n < 0xd800 ∨ (0xe000 ≤ n ∧ n < 0x110000) then some (Char.ofNat n) else none

def escape? : List Char → Option (Char × Rest)
  | 'b' :: cs => some ('\x08', cs)
  | 't' :: cs => some ('\t', cs)
  | 'n' :: cs => some ('\n', cs)
  | 'f' :: cs => some ('\x0c', cs)
  | 'r' :: cs => some ('\r', cs)
  | '"' :: cs => some ('"', cs)
  | '\\' :: cs => some ('\\', cs)
  | 'u' :: cs => (hex? 4 0 cs).bind fun (n, rest) => (scalar? n).map fun c => (c, rest)
  | 'U' :: cs => (hex? 8 0 cs).bind fun (n, rest) => (scalar? n).map fun c => (c, rest)
  | _ => none

def afterBreak? : List Char → Option Rest
  | '\n' :: cs => some cs
  | '\r' :: '\n' :: cs => some cs
  | _ => none

def isSpace (c : Char) : Bool :=
  c == ' ' || c == '\t'

def skipBlank : List Char → Rest
  | ' ' :: cs => skipBlank cs
  | '\t' :: cs => skipBlank cs
  | '\n' :: cs => skipBlank cs
  | '\r' :: '\n' :: cs => skipBlank cs
  | cs => cs

def afterLineEnd? (cs : List Char) : Option Rest :=
  (afterBreak? (cs.dropWhile isSpace)).map skipBlank

def basicFrom (reversed : List Char) : Nat → List Char → Option (String × Rest)
  | 0, _ => none
  | _ + 1, [] => none
  | _ + 1, '"' :: cs => some (String.ofList reversed.reverse, cs)
  | fuel + 1, '\\' :: cs => (escape? cs).bind fun (c, rest) => basicFrom (c :: reversed) fuel rest
  | fuel + 1, c :: cs => if isPlain c then basicFrom (c :: reversed) fuel cs else none

def literalFrom (reversed : List Char) : List Char → Option (String × Rest)
  | [] => none
  | '\'' :: cs => some (String.ofList reversed.reverse, cs)
  | c :: cs => if isPlain c then literalFrom (c :: reversed) cs else none

def closing? (mark : Char) (cs : List Char) : Option (List Char × Rest) :=
  let marks := cs.takeWhile (· == mark)
  if marks.length < 3 then none
  else
    let inside := min (marks.length - 3) 2
    some (List.replicate inside mark, cs.drop (inside + 3))

def blockFrom (mark : Char) (reversed : List Char) : Nat → List Char → Option (String × Rest)
  | 0, _ => none
  | fuel + 1, cs =>
      match closing? mark cs with
      | some (inside, rest) => some (String.ofList (reversed.reverse ++ inside), rest)
      | none =>
          match afterBreak? cs with
          | some rest => blockFrom mark ('\n' :: reversed) fuel rest
          | none =>
              match cs with
              | [] => none
              | c :: rest =>
                  if c = '\\' ∧ mark = '"' then
                    match afterLineEnd? rest with
                    | some rest => blockFrom mark reversed fuel rest
                    | none =>
                        (escape? rest).bind fun (c, rest) =>
                          blockFrom mark (c :: reversed) fuel rest
                  else if isPlain c then blockFrom mark (c :: reversed) fuel rest
                  else none

def line? : List Char → Option (String × Rest)
  | '"' :: cs => basicFrom [] (cs.length + 1) cs
  | '\'' :: cs => literalFrom [] cs
  | _ => none

def block (mark : Char) (cs : List Char) : Option (String × Rest) :=
  let cs := (afterBreak? cs).getD cs
  blockFrom mark [] (cs.length + 1) cs

def read? : List Char → Option (String × Rest)
  | '"' :: '"' :: '"' :: cs => block '"' cs
  | '\'' :: '\'' :: '\'' :: cs => block '\'' cs
  | cs => line? cs

end RunControl.Toml.Quoted
