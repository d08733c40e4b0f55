import FleetDispatch.Text.Octets
import Mathlib.Data.String.Basic

namespace FleetDispatch.Octets

theorem loop_eq (b : ByteArray) (i : Nat) (acc : List UInt8) :
    ByteArray.toList.loop b i acc = acc.reverse ++ b.data.toList.drop i := by
  induction h : b.size - i generalizing i acc with
  | zero =>
    have hend : b.data.toList.length ≤ i := by
      rw [Array.length_toList]
      exact Nat.sub_eq_zero_iff_le.mp h
    rw [ByteArray.toList.loop, if_neg (by omega), List.drop_of_length_le hend, List.append_nil]
  | succ n ih =>
    have hi : i < b.size := by omega
    have hdrop : b.data.toList.drop i = b.get! i :: b.data.toList.drop (i + 1) := by
      rw [List.drop_eq_getElem_cons (by rwa [Array.length_toList]), Array.getElem_toList]
      congr 1
      exact (getElem!_pos b.data i hi).symm
    rw [ByteArray.toList.loop, if_pos hi, ih _ _ (by omega), hdrop, List.reverse_cons,
      List.append_assoc, List.singleton_append]

theorem toList_eq (b : ByteArray) : b.toList = b.data.toList :=
  loop_eq b 0 []

def numbers (c : Char) : List Nat :=
  (String.utf8EncodeChar c).map UInt8.toNat

theorem ofString_eq (s : String) : ofString s = (s.toList.flatMap numbers).map Char.ofNat := by
  have hbytes : s.toUTF8 = s.toList.utf8Encode := by
    rw [String.toUTF8_eq_toByteArray]
    simp
  rw [ofString, toList_eq, hbytes, List.utf8Encode, List.toList_data_toByteArray, List.map_flatMap,
    List.map_flatMap]
  simp only [numbers, List.map_map]
  rfl

theorem lt_of_mem_numbers {n : Nat} {c : Char} (h : n ∈ numbers c) : n < 256 := by
  obtain ⟨b, -, rfl⟩ := List.mem_map.mp h
  exact b.toNat_lt

theorem toNat_ofNat {n : Nat} (h : n < 256) : (Char.ofNat n).toNat = n := by
  have hvalid : n.isValidChar := .inl (by omega)
  rw [Char.ofNat, dif_pos hvalid]
  rfl

theorem le_map_iff {ms ns : List Nat} (hms : ∀ m ∈ ms, m < 256) (hns : ∀ n ∈ ns, n < 256) :
    le (ms.map Char.ofNat) (ns.map Char.ofNat) = true ↔ ¬ns < ms := by
  induction ms generalizing ns with
  | nil => simp [le]
  | cons m ms ih =>
    cases ns with
    | nil => simp [le]
    | cons n ns =>
      obtain ⟨hm, hms⟩ := List.forall_mem_cons.mp hms
      obtain ⟨hn, hns⟩ := List.forall_mem_cons.mp hns
      have heq : Char.ofNat m = Char.ofNat n ↔ m = n := by
        refine ⟨fun h => ?_, congrArg Char.ofNat⟩
        have hnat := congrArg Char.toNat h
        rwa [toNat_ofNat hm, toNat_ofNat hn] at hnat
      rw [List.map_cons, List.map_cons, le, Bool.or_eq_true, Bool.and_eq_true, decide_eq_true_eq,
        beq_iff_eq, ih hms hns, toNat_ofNat hm, toNat_ofNat hn, heq, List.cons_lt_cons_iff]
      grind

theorem numbers_eq (c : Char) : numbers c =
    if c.toNat < 0x80 then [c.toNat]
    else if c.toNat < 0x800 then [0xC0 + c.toNat / 64, 0x80 + c.toNat % 64]
    else if c.toNat < 0x10000 then
      [0xE0 + c.toNat / 4096, 0x80 + c.toNat / 64 % 64, 0x80 + c.toNat % 64]
    else [0xF0 + c.toNat / 262144, 0x80 + c.toNat / 4096 % 64, 0x80 + c.toNat / 64 % 64,
      0x80 + c.toNat % 64] := by
  have hlt : c.val.toNat < 0x110000 := by
    have hvalid : c.val.toNat.isValidChar := c.valid
    unfold Nat.isValidChar at hvalid
    omega
  unfold numbers String.utf8EncodeChar Char.toNat
  generalize c.val.toNat = n at hlt
  simp only
  split_ifs <;> simp <;> omega

theorem numbers_append_lt {c d : Char} (h : c < d) (x y : List Nat) :
    numbers c ++ x < numbers d ++ y := by
  have hlt : c.toNat < d.toNat := h
  rw [numbers_eq, numbers_eq]
  generalize c.toNat = m at hlt
  generalize d.toNat = n at hlt
  split_ifs <;> simp only [List.cons_append, List.nil_append, List.cons_lt_cons_iff] <;> omega

theorem numbers_ne_nil (c : Char) : numbers c ≠ [] := by
  simp [numbers]

theorem flatMap_numbers_lt {cs ds : List Char} (h : cs < ds) :
    cs.flatMap numbers < ds.flatMap numbers := by
  induction cs generalizing ds with
  | nil =>
    cases ds with
    | nil => exact absurd h (List.lt_irrefl [])
    | cons d ds =>
      obtain ⟨n, ns, hn⟩ := List.exists_cons_of_ne_nil (numbers_ne_nil d)
      rw [List.flatMap_nil, List.flatMap_cons, hn]
      exact List.nil_lt_cons _ _
  | cons c cs ih =>
    cases ds with
    | nil => cases h
    | cons d ds =>
      rw [List.flatMap_cons, List.flatMap_cons]
      -- the first characters decide, since no encoding is the beginning of another
      rcases List.cons_lt_cons_iff.mp h with hlt | ⟨rfl, hlt⟩
      · exact numbers_append_lt hlt _ _
      · exact List.append_left_lt (ih hlt)

theorem strictMono_numbers : StrictMono fun s : String => s.toList.flatMap numbers :=
  fun _ _ h => flatMap_numbers_lt h

/-- Texts are in the order of their octets. -/
theorem le_ofString_iff {s t : String} : le (ofString s) (ofString t) = true ↔ s ≤ t := by
  have hlt (u : String) : ∀ n ∈ u.toList.flatMap numbers, n < 256 := by
    intro n hn
    obtain ⟨c, -, hc⟩ := List.mem_flatMap.mp hn
    exact lt_of_mem_numbers hc
  have hmono : t.toList.flatMap numbers < s.toList.flatMap numbers ↔ t < s :=
    strictMono_numbers.lt_iff_lt
  rw [ofString_eq, ofString_eq, le_map_iff (hlt s) (hlt t), hmono, String.not_lt]

end FleetDispatch.Octets
