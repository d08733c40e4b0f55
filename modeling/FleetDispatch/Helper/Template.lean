import FleetDispatch.Procedure
import FleetDispatch.Text.Substitute

namespace FleetDispatch

/-- The arguments of a helper program, with marks that a call fills in. -/
abbrev Template := List String

namespace Template

def endpointMark : String := "\x7bendpoint\x7d"

def functionMark : String := "\x7bfunction\x7d"

def argsMark : String := "\x7bargs\x7d"

def kwargsMark : String := "\x7bkwargs\x7d"

/-- Puts the endpoint in place of its mark, and then the function in place of its own. -/
def fill (endpoint function entry : String) : String :=
  String.ofList (Text.substitute functionMark.toList function.toList
    (Text.substitute endpointMark.toList endpoint.toList entry.toList))

/-- An entry that is nothing but the mark of the arguments stands for all of them. -/
def expand (endpoint : String) (p : Procedure) (entry : String) : List String :=
  if entry = argsMark then p.args.map Json.render
  else if entry = kwargsMark then p.kwargs.map fun f => f.1 ++ "=" ++ f.2.render
  else [fill endpoint p.function entry]

def render (endpoint : String) (p : Procedure) (t : Template) : List String :=
  t.flatMap (expand endpoint p)

def standard : Template :=
  ["--out=json", "--static", endpointMark, functionMark, argsMark, kwargsMark]

end FleetDispatch.Template
