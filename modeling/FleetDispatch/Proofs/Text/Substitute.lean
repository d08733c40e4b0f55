import FleetDispatch.Text.Substitute
import Mathlib.Data.List.Infix

namespace FleetDispatch.Text

variable {mark other value cs rest u w : List Char} {c : Char}

theorem dropMark_append (mark rest : List Char) : dropMark mark (mark ++ rest) = some rest := by
  induction mark with
  | nil => rfl
  | cons m mark ih => rw [List.cons_append, dropMark, if_pos rfl, ih]

theorem dropMark_eq_none : dropMark mark cs = none ↔ ¬ mark <+: cs := by
  refine ⟨fun h ⟨rest, hrest⟩ => ?_, fun h => ?_⟩
  · rw [← hrest, dropMark_append] at h
    cases h
  · exact Option.eq_none_iff_forall_ne_some.mpr fun rest hrest =>
      h ⟨rest, (dropMark_eq_some hrest).symm⟩

theorem length_lt_of_dropMark (ne : mark ≠ []) (h : dropMark mark cs = some rest) :
    rest.length < cs.length := by
  have := List.length_pos_iff.mpr ne
  rw [dropMark_eq_some h, List.length_append]
  omega

/-- A text is empty, goes on from a mark, or goes on from a character at which no mark begins. -/
@[elab_as_elim]
theorem scan {mark : List Char} (ne : mark ≠ []) {P : List Char → Prop} (nil : P [])
    (found : ∀ rest, P rest → P (mark ++ rest))
    (past : ∀ c cs, ¬ mark <+: c :: cs → P cs → P (c :: cs)) (cs : List Char) : P cs := by
  induction h : cs.length using Nat.strong_induction_on generalizing cs with
  | _ n ih =>
    cases cs with
    | nil => exact nil
    | cons c cs =>
      by_cases begins : mark <+: c :: cs
      · obtain ⟨rest, hrest⟩ := begins
        have shorter : rest.length < n :=
          h ▸ length_lt_of_dropMark ne (hrest ▸ dropMark_append mark rest)
        exact hrest ▸ found rest (ih _ shorter rest rfl)
      · exact past c cs begins (ih _ (by simp [← h]) cs rfl)

theorem substitute_mark (ne : mark ≠ []) :
    substitute mark value (mark ++ rest) = value ++ substitute mark value rest := by
  obtain ⟨m, mark', rfl⟩ := List.exists_cons_of_ne_nil ne
  rw [List.cons_append, substitute, if_neg ne, ← List.cons_append]
  split
  · next rest' h =>
    rw [dropMark_append] at h
    rw [Option.some.inj h]
  · next h =>
    rw [dropMark_append] at h
    cases h

theorem substitute_char (h : ¬ mark <+: c :: cs) :
    substitute mark value (c :: cs) = c :: substitute mark value cs := by
  have ne : mark ≠ [] := fun hnil => h (hnil ▸ List.nil_prefix)
  rw [substitute, if_neg ne]
  split
  · next rest' hrest =>
    rw [dropMark_eq_none.mpr h] at hrest
    cases hrest
  · rfl

def places (mark cs : List Char) : Nat :=
  cs.tails.countP (mark.isPrefixOf ·)

theorem places_mark_nil (ne : mark ≠ []) : places mark [] = 0 := by
  cases mark with
  | nil => exact absurd rfl ne
  | cons => rfl

theorem places_char (h : ¬ mark <+: c :: cs) : places mark (c :: cs) = places mark cs := by
  rw [places, List.tails_cons, List.countP_cons_of_neg (by simpa using h), places]

theorem places_eq_zero : places mark cs = 0 ↔ ¬ mark <:+: cs := by
  simp only [places, List.countP_eq_zero, List.mem_tails, List.isPrefixOf_iff_prefix,
    List.infix_iff_prefix_suffix, not_exists, not_and]
  exact ⟨fun h t begins ends => h t ends begins, fun h t ends begins => h t begins ends⟩

/-- In none of the places inside of a text does a mark begin, however the text goes on. -/
def Clear (mark cs : List Char) : Prop :=
  ∀ x ∈ cs.tails, x ≠ [] → ¬ x <+: mark ∧ ¬ mark <+: x

instance (mark cs : List Char) : Decidable (Clear mark cs) :=
  inferInstanceAs (Decidable (∀ x ∈ cs.tails, x ≠ [] → ¬ x <+: mark ∧ ¬ mark <+: x))

namespace Clear

theorem tail (h : Clear mark (c :: cs)) : Clear mark cs := fun x hx =>
  h x (by rw [List.tails_cons]; exact List.mem_cons_of_mem _ hx)

theorem head (h : Clear mark (c :: cs)) (rest : List Char) : ¬ mark <+: c :: (cs ++ rest) := by
  obtain ⟨hshort, hlong⟩ := h (c :: cs) (by simp) (List.cons_ne_nil c cs)
  intro begins
  rcases List.prefix_or_prefix_of_prefix begins (List.prefix_append (c :: cs) rest) with h | h
  · exact hlong h
  · exact hshort h

theorem substitute_over (h : Clear mark cs) :
    substitute mark value (cs ++ rest) = cs ++ substitute mark value rest := by
  induction cs with
  | nil => rfl
  | cons c cs ih =>
    rw [List.cons_append, substitute_char (h.head rest), ih h.tail, List.cons_append]

theorem places_over (h : Clear mark cs) : places mark (cs ++ rest) = places mark rest := by
  induction cs with
  | nil => rfl
  | cons c cs ih => rw [List.cons_append, places_char (h.head rest), ih h.tail]

theorem prefix_iff (h : Clear other mark.tail) (c : Char) (cs w : List Char) :
    mark <+: c :: (cs ++ (other ++ w)) ↔ mark <+: c :: cs := by
  rw [← List.cons_append]
  refine ⟨fun begins => ?_, fun begins => begins.trans (List.prefix_append _ _)⟩
  rcases List.prefix_or_prefix_of_prefix begins (List.prefix_append (c :: cs) _) with
    inside | ⟨y, rfl⟩
  · exact inside
  · rcases eq_or_ne y [] with rfl | hy
    · rw [List.append_nil]
    obtain ⟨hshort, hlong⟩ := h y (by simp [List.mem_tails]) hy
    -- what is left of the mark begins as the other one does, and one of them is the shorter
    have begins' : y <+: other ++ w := (List.prefix_append_right_inj _).mp begins
    rcases List.prefix_or_prefix_of_prefix begins' (List.prefix_append other w) with h | h
    · exact absurd h hshort
    · exact absurd h hlong

end Clear

section apart

variable (ne : mark ≠ []) (apart : Clear mark mark.tail)

include ne apart

theorem places_mark : places mark (mark ++ rest) = places mark rest + 1 := by
  obtain ⟨m, mark', rfl⟩ := List.exists_cons_of_ne_nil ne
  rw [List.cons_append, places, List.tails_cons, List.countP_cons_of_pos (by simp)]
  exact congrArg (· + 1) apart.places_over

theorem places_around : places mark (u ++ (mark ++ w)) = places mark u + 1 + places mark w := by
  induction u using scan ne with
  | nil => rw [List.nil_append, places_mark ne apart, places_mark_nil ne]; omega
  | found rest ih =>
    rw [List.append_assoc, places_mark ne apart, ih, places_mark ne apart]
    omega
  | past c cs h ih =>
    have h' := (apart.prefix_iff c cs w).not.mpr h
    rw [List.cons_append, places_char h', ih, places_char h]

theorem substitute_around :
    substitute mark value (u ++ (mark ++ w)) =
      substitute mark value u ++ (value ++ substitute mark value w) := by
  induction u using scan ne with
  | nil => rw [List.nil_append, substitute_mark ne, substitute, List.nil_append]
  | found rest ih =>
    rw [List.append_assoc, substitute_mark ne, ih, substitute_mark ne, List.append_assoc]
  | past c cs h ih =>
    have h' := (apart.prefix_iff c cs w).not.mpr h
    rw [List.cons_append, substitute_char h', ih, substitute_char h, List.cons_append]

theorem length_substitute (value cs : List Char) :
    (substitute mark value cs).length + places mark cs * mark.length =
      cs.length + places mark cs * value.length := by
  induction cs using scan ne with
  | nil => simp [substitute, places_mark_nil ne]
  | found rest ih =>
    rw [substitute_mark ne, places_mark ne apart, List.length_append, List.length_append,
      Nat.succ_mul, Nat.succ_mul]
    omega
  | past c cs h ih =>
    rw [substitute_char h, places_char h, List.length_cons, List.length_cons]
    omega

theorem substitute_of_places (h : places mark cs = 0) : substitute mark value cs = cs := by
  induction cs using scan ne with
  | nil => rw [substitute]
  | found rest ih =>
    rw [places_mark ne apart] at h
    cases h
  | past c cs begins ih => rw [substitute_char begins, ih (by rwa [places_char begins] at h)]

end apart

theorem substitute_self (ne : mark ≠ []) (cs : List Char) : substitute mark mark cs = cs := by
  induction cs using scan ne with
  | nil => rw [substitute]
  | found rest ih => rw [substitute_mark ne, ih]
  | past c cs h ih => rw [substitute_char h, ih]

theorem substitute_eq_self (ne : mark ≠ []) (long : value.length = mark.length)
    (h : substitute mark value cs = cs) : value = mark ∨ places mark cs = 0 := by
  induction cs using scan ne with
  | nil => exact .inr (places_mark_nil ne)
  | found rest ih =>
    rw [substitute_mark ne] at h
    exact .inl (List.append_inj_left h long)
  | past c cs begins ih =>
    rw [substitute_char begins] at h
    rw [places_char begins]
    exact ih (List.tail_eq_of_cons_eq h)

end FleetDispatch.Text
