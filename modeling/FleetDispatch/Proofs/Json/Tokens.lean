import FleetDispatch.Json.Parser
import FleetDispatch.Json.Printer

namespace FleetDispatch

namespace Decimal

theorem digits_ne_nil (n : Nat) : digits n ≠ [] := by
  rw [digits]
  split <;> simp

theorem digitChar_ne_zero {n : Nat} (h : n % 10 ≠ 0) : digitChar n ≠ '0' := by
  have hall : ∀ m, m < 10 → m ≠ 0 → Char.ofNat (48 + m) ≠ '0' := by decide
  exact hall _ (Nat.mod_lt _ (by omega)) h

theorem head_digits {n : Nat} (h : 0 < n) : ∃ c cs, digits n = c :: cs ∧ c ≠ '0' := by
  induction n using Nat.strongRecOn with
  | _ n ih =>
    rw [digits]
    split
    · exact ⟨_, _, rfl, digitChar_ne_zero (by omega)⟩
    · obtain ⟨c, cs, hd, hc⟩ := ih (n / 10) (by omega) (by omega)
      exact ⟨c, cs ++ [digitChar n], by rw [hd, List.cons_append], hc⟩

theorem le_ofDigits (acc : Nat) (cs : List Char) : acc ≤ ofDigits acc cs := by
  induction cs generalizing acc with
  | nil => exact Nat.le_refl acc
  | cons c cs ih =>
    have hi := ih (acc * 10 + digitValue c)
    have hd : ofDigits acc (c :: cs) = ofDigits (acc * 10 + digitValue c) cs := rfl
    omega

end Decimal

namespace Json

open Decimal

/-- What may come after a value: the end of the text, or a mark that goes on with a list or an
object or ends it. -/
def Closes (rest : List Char) : Prop :=
  ∀ c ∈ rest.head?, c = ',' ∨ c = ']' ∨ c = '\x7d'

theorem closes_cons {c : Char} {rest : List Char} (h : c = ',' ∨ c = ']' ∨ c = '\x7d') :
    Closes (c :: rest) := by
  intro d hd
  cases hd
  exact h

section number

variable {rest : List Char}

theorem takeDigits_digits (n : Nat) (h : Closes rest) :
    takeDigits (digits n ++ rest) = (digits n, rest) := by
  have hd : ∀ c ∈ digits n, isDigit c = true := fun c hc => isDigit_of_mem_digits hc
  have hrest : rest.takeWhile isDigit = [] ∧ rest.dropWhile isDigit = rest := by
    cases rest with
    | nil => exact ⟨rfl, rfl⟩
    | cons c cs => rcases h c rfl with rfl | rfl | rfl <;> exact ⟨rfl, rfl⟩
  unfold takeDigits
  rw [List.takeWhile_append_of_pos hd, List.dropWhile_append_of_pos hd, hrest.1, hrest.2,
    List.append_nil]

theorem wholePart_digits (n : Nat) (h : Closes rest) :
    wholePart (digits n ++ rest) = .ok (digits n, rest) := by
  unfold wholePart
  rw [takeDigits_digits n h]
  split
  · next he => exact absurd (congrArg Prod.fst he) (digits_ne_nil n)
  · next c cs _ he =>
    have hzero : digits n = '0' :: c :: cs := congrArg Prod.fst he
    cases n with
    | zero =>
      rw [digits] at hzero
      cases hzero
    | succ n =>
      obtain ⟨d, ds, hd, hne⟩ := head_digits (Nat.succ_pos n)
      rw [hd] at hzero
      exact absurd (List.cons.inj hzero).1 hne
  · next he =>
    cases he
    rfl

theorem fractionPart_of_closes (h : Closes rest) : fractionPart rest = .ok ([], rest) := by
  unfold fractionPart
  split
  · rcases h '.' rfl with h | h | h <;> cases h
  · rfl

theorem exponentPart_of_closes (h : Closes rest) : exponentPart rest = .ok (none, rest) := by
  unfold exponentPart
  split
  · rcases h 'e' rfl with h | h | h <;> cases h
  · rcases h 'E' rfl with h | h | h <;> cases h
  · rfl

theorem numeral_signed (n : Int) (h : Closes rest) :
    numeral (signed n ++ rest) = .ok (⟨decide (n < 0), digits n.natAbs, [], none⟩, rest) := by
  have hparts : ∀ negative, ((wholePart (digits n.natAbs ++ rest)).bind fun w =>
      (fractionPart w.2).bind fun f => (exponentPart f.2).bind fun e =>
        .ok (⟨negative, w.1, f.1, e.1⟩, e.2) : Reading (Numeral × List Char)) =
      .ok (⟨negative, digits n.natAbs, [], none⟩, rest) := by
    intro negative
    rw [wholePart_digits _ h]
    change ((fractionPart rest).bind _ : Reading _) = _
    rw [fractionPart_of_closes h]
    change ((exponentPart rest).bind _ : Reading _) = _
    rw [exponentPart_of_closes h]
    rfl
  unfold numeral signed
  by_cases hn : n < 0
  · rw [if_pos hn, decide_eq_true hn]
    exact hparts true
  · rw [if_neg hn, decide_eq_false hn]
    split
    · next hc =>
      split at hc
      · next cs he =>
        have hmem : '-' ∈ digits n.natAbs := by
          cases hd : digits n.natAbs with
          | nil => exact absurd hd (digits_ne_nil _)
          | cons d ds =>
            rw [hd, List.cons_append] at he
            rw [(List.cons.inj he).1]
            exact List.mem_cons_self
        have hdigit := isDigit_of_mem_digits hmem
        cases hdigit
      · cases hc
        exact hparts false

theorem significand_digits {acc : Nat} {ds : List Char} (h : ofDigits acc ds ≤ Width.most64) :
    significand acc ds = (ofDigits acc ds, 0) := by
  induction ds generalizing acc with
  | nil => rfl
  | cons c cs ih =>
    have hd : ofDigits acc (c :: cs) = ofDigits (acc * 10 + digitValue c) cs := rfl
    have hle := le_ofDigits (acc * 10 + digitValue c) cs
    rw [hd] at h ⊢
    unfold significand
    simp only [if_pos (Nat.le_trans hle h), ih h]

theorem number_signed {n : Int} (hlow : Width.least64 ≤ n) (hhigh : n ≤ Width.most64)
    (h : Closes rest) : number (signed n ++ rest) = .ok (.int n, rest) := by
  have hle : n.natAbs ≤ Width.most64 := by
    simp only [Width.least64, Width.most64] at *
    omega
  have hs : significand 0 (digits n.natAbs) = (n.natAbs, 0) := by
    have hd := ofDigits_digits n.natAbs
    rw [significand_digits (by rw [hd]; exact hle), hd]
  have hv : Numeral.value ⟨decide (n < 0), digits n.natAbs, [], none⟩ = some (.int n) := by
    unfold Numeral.value
    simp only [hs, List.isEmpty_nil, Option.isNone_none, Bool.and_self, ↓reduceIte,
      decide_eq_true_eq, Bool.or_eq_true]
    by_cases hn : n < 0
    · have habs : -(n.natAbs : Int) = n := by omega
      rw [if_pos hn, if_neg (by omega), habs]
    · have habs : (n.natAbs : Int) = n := by omega
      rw [if_neg hn, habs]
  unfold number
  rw [numeral_signed n h]
  simp only [bind, Except.bind, hv]
  exact Eq.refl _

end number

theorem hexValue_hexDigit (n : Nat) : hexValue (hexDigit n) = some (n % 16) := by
  have hall : ∀ m, m < 16 →
      hexValue (if m < 10 then Char.ofNat (48 + m) else Char.ofNat (87 + m)) = some m := by decide
  exact hall _ (Nat.mod_lt _ (by omega))

theorem unicodeEscape_hexDigit {c : Char} (h : c.toNat < 0x20) (rest : List Char) :
    unicodeEscape ('0' :: '0' :: hexDigit (c.toNat / 16) :: hexDigit c.toNat :: rest) =
      .ok (c, rest) := by
  have hzero : hexValue '0' = some 0 := by decide
  have hsum : ((0 * 16 + 0) * 16 + c.toNat / 16 % 16) * 16 + c.toNat % 16 = c.toNat := by omega
  have htrailing : isTrailing c.toNat = false := by
    simp only [isTrailing, Bool.and_eq_false_iff, decide_eq_false_iff_not]
    omega
  have hleading : isLeading c.toNat = false := by
    simp only [isLeading, Bool.and_eq_false_iff, decide_eq_false_iff_not]
    omega
  have hread : hex4 ('0' :: '0' :: hexDigit (c.toNat / 16) :: hexDigit c.toNat :: rest) =
      .ok (c.toNat, rest) := by
    simp only [hex4, hzero, hexValue_hexDigit, hsum]
  unfold unicodeEscape
  rw [hread]
  change (if isTrailing c.toNat = true then _ else if isLeading c.toNat = true then _ else _) = _
  rw [htrailing, hleading]
  change Except.ok (Char.ofNat c.toNat, rest) = _
  rw [Char.ofNat_toNat]

theorem stringRest_escapeChar (c : Char) (fuel : Nat) (rest : List Char) :
    stringRest (fuel + 1) (escapeChar c ++ rest) =
      (stringRest fuel rest).map fun r => (c :: r.1, r.2) := by
  have hbind : ∀ x : Reading (List Char × List Char),
      (x.bind fun r => .ok (c :: r.1, r.2)) = x.map fun r => (c :: r.1, r.2) := by
    intro x
    cases x <;> rfl
  have hescape : ∀ cs, escape cs = .ok (c, rest) →
      stringRest (fuel + 1) ('\\' :: cs) =
        (stringRest fuel rest).map fun r => (c :: r.1, r.2) := by
    intro cs hcs
    rw [← hbind]
    change ((escape cs >>= _ : Reading (List Char × List Char))) = _
    rw [hcs]
    rfl
  unfold escapeChar
  by_cases hquote : c = '"'
  · subst hquote
    exact hescape _ rfl
  by_cases hback : c = '\\'
  · subst hback
    exact hescape _ rfl
  rw [if_neg hquote, if_neg hback]
  -- below the space the character is escaped, with a letter where there is one
  by_cases hlow : 0x20 ≤ c.toNat
  · rw [if_pos hlow, List.singleton_append, ← hbind]
    rw [stringRest]
    · rw [if_neg (by omega)]
      rfl
    · exact fun h => hquote h
    · exact fun h => hback h
  · have hn : ∀ n, c.toNat = n → Char.ofNat n = c := fun n hn => hn ▸ Char.ofNat_toNat c
    rw [if_neg hlow]
    split
    · next h => exact hescape _ (hn 8 h ▸ rfl)
    · next h => exact hescape _ (hn 9 h ▸ rfl)
    · next h => exact hescape _ (hn 10 h ▸ rfl)
    · next h => exact hescape _ (hn 12 h ▸ rfl)
    · next h => exact hescape _ (hn 13 h ▸ rfl)
    · exact hescape _ (unicodeEscape_hexDigit (Nat.not_le.mp hlow) rest)

theorem stringRest_escaped {fuel : Nat} (s rest : List Char) (h : s.length < fuel) :
    stringRest fuel (s.flatMap escapeChar ++ '"' :: rest) = .ok (s, rest) := by
  induction s generalizing fuel with
  | nil =>
    obtain ⟨fuel, rfl⟩ := Nat.exists_eq_succ_of_ne_zero (Nat.ne_of_gt h)
    rfl
  | cons c s ih =>
    rw [List.length_cons] at h
    obtain ⟨fuel, rfl⟩ := Nat.exists_eq_succ_of_ne_zero (Nat.ne_zero_of_lt h)
    rw [List.flatMap_cons, List.append_assoc, stringRest_escapeChar, ih (by omega)]
    rfl

theorem length_le_escaped (s : List Char) : s.length ≤ (s.flatMap escapeChar).length := by
  induction s with
  | nil => exact Nat.le_refl 0
  | cons c s ih =>
    have hc : 1 ≤ (escapeChar c).length := by
      unfold escapeChar
      repeat' split
      all_goals simp
    rw [List.flatMap_cons, List.length_append, List.length_cons]
    omega

theorem string_quoted (s : String) (rest : List Char) :
    string (s.toList.flatMap escapeChar ++ '"' :: rest) = .ok (s, rest) := by
  have hlen := length_le_escaped s.toList
  unfold string
  rw [stringRest_escaped s.toList rest (by simp only [List.length_append]; omega)]
  change Except.ok (String.ofList s.toList, rest) = _
  rw [String.ofList_toList]

end Json

end FleetDispatch
