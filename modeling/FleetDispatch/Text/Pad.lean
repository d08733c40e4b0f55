namespace FleetDispatch.Text

def spaces (n : Nat) : String :=
  String.ofList (List.replicate n ' ')

def padRight (width : Nat) (s : String) : String :=
  s ++ spaces (width - s.length)

def padLeft (width : Nat) (s : String) : String :=
  spaces (width - s.length) ++ s

/-- Centres in `width` characters; of an odd number of fillers the extra one goes to the right. -/
def centre (fill : Char) (width : Nat) (s : String) : String :=
  let missing := width - s.length
  String.ofList (List.replicate (missing / 2) fill) ++ s ++
    String.ofList (List.replicate (missing - missing / 2) fill)

def cut (n : Nat) (s : String) : String :=
  String.ofList (s.toList.take n)

end FleetDispatch.Text
