namespace FleetDispatch

inductive OutputFormat where
  | text
  | json
  deriving DecidableEq, Inhabited

namespace OutputFormat

def name : OutputFormat → String
  | text => "text"
  | json => "json"

def ofText? (s : String) : Option OutputFormat :=
  match s.map Char.toLower with
  | "text" => some text
  | "plain" => some text
  | "json" => some json
  | _ => none

def unknownMessage (s : String) : String :=
  s!"Unknown format: {s}. Use: text or json"

end FleetDispatch.OutputFormat
