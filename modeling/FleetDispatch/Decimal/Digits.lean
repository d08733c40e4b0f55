namespace FleetDispatch.Decimal

def digitChar (n : Nat) : Char :=
  Char.ofNat (48 + n % 10)

def isDigit (c : Char) : Bool :=
  48 ≤ c.toNat && c.toNat ≤ 57

def digitValue (c : Char) : Nat :=
  c.toNat - 48

def digits (n : Nat) : List Char :=
  if n < 10 then [digitChar n] else digits (n / 10) ++ [digitChar n]
termination_by n
decreasing_by omega

/-- The number that starts with `acc` and goes on with the digits `cs`. -/
def ofDigits (acc : Nat) (cs : List Char) : Nat :=
  cs.foldl (fun n c => n * 10 + digitValue c) acc

def signed (n : Int) : List Char :=
  if n < 0 then '-' :: digits n.natAbs else digits n.natAbs

def padded (width n : Nat) : List Char :=
  let ds := digits n
  List.replicate (width - ds.length) '0' ++ ds

theorem digitValue_digitChar (n : Nat) : digitValue (digitChar n) = n % 10 := by
  have h : ∀ m, m < 10 → digitValue (Char.ofNat (48 + m)) = m := by decide
  exact h _ (Nat.mod_lt _ (by omega))

theorem isDigit_digitChar (n : Nat) : isDigit (digitChar n) = true := by
  have h : ∀ m, m < 10 → isDigit (Char.ofNat (48 + m)) = true := by decide
  exact h _ (Nat.mod_lt _ (by omega))

theorem ofDigits_append (acc : Nat) (xs ys : List Char) :
    ofDigits acc (xs ++ ys) = ofDigits (ofDigits acc xs) ys := by
  simp [ofDigits]

theorem ofDigits_digits (n : Nat) : ofDigits 0 (digits n) = n := by
  induction n using Nat.strongRecOn with
  | _ n ih =>
    rw [digits]
    split
    · simp [ofDigits, digitValue_digitChar]; omega
    · rw [ofDigits_append, ih (n / 10) (by omega)]
      simp [ofDigits, digitValue_digitChar]; omega

theorem isDigit_of_mem_digits {n : Nat} {c : Char} (h : c ∈ digits n) : isDigit c = true := by
  induction n using Nat.strongRecOn with
  | _ n ih =>
    rw [digits] at h
    split at h
    · simp at h; exact h ▸ isDigit_digitChar n
    · rcases List.mem_append.1 h with h | h
      · exact ih (n / 10) (by omega) h
      · simp at h; exact h ▸ isDigit_digitChar n

end FleetDispatch.Decimal
