namespace FleetDispatch

/-- The steps of a path from the root on. A step of two dots goes back by one. -/
abbrev Path := List String

namespace Path

def text (p : Path) : String :=
  "/" ++ "/".intercalate p

def steps (s : String) : Path :=
  (s.splitOn "/").filter fun step => !step.isEmpty && step != "."

def resolve (p : Path) : Path :=
  (p.foldl (fun taken step => if step = ".." then taken.drop 1 else step :: taken) []).reverse

def isAbsolute (s : String) : Bool :=
  s.toList.head? == some '/'

/-- Drops slashes, and dots that lead nowhere, from a path that is read from its end. -/
def trimmed : List Char → List Char
  | '/' :: cs => trimmed cs
  | '.' :: '/' :: cs => trimmed cs
  | cs => cs

def parent (s : String) : Option String :=
  let cs := (trimmed s.toList.reverse).dropWhile (· != '/')
  let kept := trimmed cs
  if cs.isEmpty then none
  else if kept.isEmpty then some "/"
  else some (String.ofList kept.reverse)

/-- The path to the root and those to each directory on the way, the path itself last. -/
def stages (p : Path) : List Path :=
  (List.range (p.length + 1)).map fun n => resolve (p.take n)

def longestStep : Nat := 255

def isLong (step : String) : Bool :=
  longestStep < step.utf8ByteSize

end Path

end FleetDispatch
