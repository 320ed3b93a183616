namespace RunControl.Text

def isBlank (c : Char) : Bool :=
  let n := c.toNat
  (9 ≤ n && n ≤ 13) || n == 0x20 || n == 0x85 || n == 0xa0 || n == 0x1680 ||
    (0x2000 ≤ n && n ≤ 0x200a) || n == 0x2028 || n == 0x2029 || n == 0x202f || n == 0x205f ||
    n == 0x3000

def trim (cs : List Char) : List Char :=
  ((cs.dropWhile isBlank).reverse.dropWhile isBlank).reverse

def closeLine (revLine : List Char) : List Char :=
  match revLine with
  | '\r' :: r => r.reverse
  | r => r.reverse

def linesFrom (revLine : List Char) : List Char → List (List Char)
  | [] => if revLine.isEmpty then [] else [revLine.reverse]
  | '\n' :: cs => closeLine revLine :: linesFrom [] cs
  | c :: cs => linesFrom (c :: revLine) cs

def lines (cs : List Char) : List (List Char) :=
  linesFrom [] cs

end RunControl.Text
