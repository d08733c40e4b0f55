import FleetDispatch.Json.Value

namespace FleetDispatch.Json

/-- The members of a structure with these fields, written as an object or as the list of the
fields in their order, of which the first `least` must be there. -/
def members (names : List String) (least : Nat) : Json → Option (String → Option Json)
  | .obj fields => some fun key => fields.lookup key
  | .arr items =>
    if least ≤ items.length && items.length ≤ names.length then
      some fun key => (names.zip items).lookup key
    else none
  | _ => none

def required (decode : Json → Option α) (member : Option Json) : Option α :=
  member.bind decode

def optional (decode : Json → Option α) : Option Json → Option (Option α)
  | none => some none
  | some .null => some none
  | some v => (decode v).map some

def defaulted (default : α) (decode : Json → Option α) : Option Json → Option α
  | none => some default
  | some v => decode v

def distinctMembers (names : List String) : Json → Bool
  | .obj fields => names.all fun n => (fields.filter (·.1 == n)).length ≤ 1
  | _ => true

end FleetDispatch.Json
