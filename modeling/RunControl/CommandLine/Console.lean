import RunControl.Host

namespace RunControl.CommandLine

inductive Style where
  | bold
  | boldRed
  | red
  | cyan
  | dimmed
  deriving DecidableEq, Repr

namespace Style

def reset : String := "\x1b[0m"

def opening : Style → String
  | .bold => "\x1b[1m"
  | .boldRed => "\x1b[1;31m"
  | .red => "\x1b[31m"
  | .cyan => "\x1b[36m"
  | .dimmed => "\x1b[2m"

def resumed (start : List Char) : List Char → List Char
  | '\x1b' :: '[' :: '0' :: 'm' :: cs => reset.toList ++ start ++ resumed start cs
  | c :: cs => c :: resumed start cs
  | [] => []

def paint (s : Style) (color : Bool) (text : String) : String :=
  if color then s.opening ++ String.ofList (resumed s.opening.toList text.toList) ++ reset
  else text

end Style

namespace Console

def note (color : Bool) : HostEvent → String
  | .exit code => Style.bold.paint color "exit:" ++ s!" program exited with code {code}\n"
  | .windowChanged => ""
  | .showTab _ => ""
  | .error message => Style.boldRed.paint color "error:" ++ s!" {message}\n"
  | .output text => text

def notes (color : Bool) (log : HostLog) : String :=
  String.join (log.toList.map (note color))

end Console

end RunControl.CommandLine
