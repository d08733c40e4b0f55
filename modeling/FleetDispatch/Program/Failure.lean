import FleetDispatch.Text.Pad

namespace FleetDispatch.Program

/-- Why the program ends early: what it was about to do, and the causes, each under the one before
it. -/
structure Failure where
  message : String
  causes : List String
  deriving DecidableEq

namespace Failure

def plain (message : String) : Failure :=
  ⟨message, []⟩

def during (context : String) (f : Failure) : Failure :=
  ⟨context, f.message :: f.causes⟩

def indent (first later : String) (s : String) : String :=
  match s.splitOn "\n" with
  | [] => ""
  | l :: ls =>
    let show_ (mark : String) (l : String) : String := if l.isEmpty then "" else mark ++ l
    "\n".intercalate (show_ first l :: ls.map (show_ later))

def numbered (n : Nat) : List String → List String
  | [] => []
  | c :: cs => indent (Text.padLeft 4 (toString n) ++ ": ") "      " c :: numbered (n + 1) cs

def causeLines : List String → List String
  | [] => []
  | [c] => [indent "    " "    " c]
  | cs => numbered 0 cs

def text (f : Failure) : String :=
  let head := "Error: " ++ f.message
  match causeLines f.causes with
  | [] => head
  | lines => head ++ "\n\nCaused by:\n" ++ "\n".intercalate lines

end FleetDispatch.Program.Failure
