import FleetDispatch.Text.Substitute

namespace FleetDispatch.Program

inductive Paint where
  | green
  | red
  | yellow
  | bold
  deriving DecidableEq

namespace Paint

def start : Paint → String
  | green => "\x1b[32m"
  | red => "\x1b[31m"
  | yellow => "\x1b[33m"
  | bold => "\x1b[1m"

def reset : String := "\x1b[0m"

/-- Marks a text if marks are wanted. Where a mark inside the text ends, this one starts anew. -/
def on (color : Bool) (p : Paint) (s : String) : String :=
  if color then
    p.start ++ String.ofList (Text.substitute reset.toList (reset ++ p.start).toList s.toList) ++
      reset
  else s

end FleetDispatch.Program.Paint
