namespace FleetDispatch.Text.Utf8

/-- Where a reader of UTF-8 stands inside a character: the octets it has, how many it still
needs, and the least and greatest octet that may come next. -/
structure Pending where
  code : Nat
  owed : Nat
  least : Nat
  greatest : Nat

/-- What a first octet announces; `none` if no character starts with it. -/
def announce (b : Nat) : Option Pending :=
  if b < 0x80 then some ⟨b, 0, 0x80, 0xBF⟩
  else if b < 0xC2 then none
  else if b < 0xE0 then some ⟨b - 0xC0, 1, 0x80, 0xBF⟩
  else if b = 0xE0 then some ⟨0, 2, 0xA0, 0xBF⟩
  else if b = 0xED then some ⟨0xD, 2, 0x80, 0x9F⟩
  else if b < 0xF0 then some ⟨b - 0xE0, 2, 0x80, 0xBF⟩
  else if b = 0xF0 then some ⟨0, 3, 0x90, 0xBF⟩
  else if b < 0xF4 then some ⟨b - 0xF0, 3, 0x80, 0xBF⟩
  else if b = 0xF4 then some ⟨4, 3, 0x80, 0x8F⟩
  else none

def replacement : Char := '\uFFFD'

/-- The longest beginning of the octets that a character may have is replaced as one. -/
def tails (code owed least greatest : Nat) : List Nat → Char × List Nat
  | [] => if owed = 0 then (Char.ofNat code, []) else (replacement, [])
  | b :: bs =>
    if owed = 0 then (Char.ofNat code, b :: bs)
    else if least ≤ b && b ≤ greatest then
      tails (code * 64 + (b - 0x80)) (owed - 1) 0x80 0xBF bs
    else (replacement, b :: bs)

theorem tails_length_le (code owed least greatest : Nat) (bs : List Nat) :
    (tails code owed least greatest bs).2.length ≤ bs.length := by
  induction bs generalizing code owed least greatest with
  | nil => unfold tails; split <;> simp
  | cons b bs ih =>
    unfold tails
    split
    · simp
    · split
      · exact Nat.le_succ_of_le (ih _ _ _ _)
      · simp

def decodeLossy : List Nat → List Char
  | [] => []
  | b :: bs =>
    match announce b with
    | none => replacement :: decodeLossy bs
    | some p =>
      let r := tails p.code p.owed p.least p.greatest bs
      r.1 :: decodeLossy r.2
termination_by bs => bs.length
decreasing_by
  · simp
  · have := tails_length_le p.code p.owed p.least p.greatest bs
    simp only [List.length_cons]
    omega

end FleetDispatch.Text.Utf8
