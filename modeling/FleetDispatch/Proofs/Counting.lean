import Mathlib.Algebra.Ring.Nat

namespace FleetDispatch

variable {α : Type} {p : α → Bool} {l : List α} {i : Nat} {a : α}

theorem countP_set_of_getElem? (h : l[i]? = some a) (b : α) :
    (l.set i b).countP p + (p a).toNat = l.countP p + (p b).toNat := by
  induction l generalizing i with
  | nil => simp at h
  | cons x l ih =>
    cases i with
    | zero =>
      obtain rfl := Option.some.inj h
      simp only [List.set_cons_zero, List.countP_cons]
      cases p x <;> cases p b <;> simp
    | succ i =>
      have hl := ih (i := i) h
      simp only [List.set_cons_succ, List.countP_cons]
      omega

theorem countP_eraseIdx_of_getElem? (h : l[i]? = some a) :
    (l.eraseIdx i).countP p + (p a).toNat = l.countP p := by
  induction l generalizing i with
  | nil => simp at h
  | cons x l ih =>
    cases i with
    | zero =>
      obtain rfl := Option.some.inj h
      simp only [List.eraseIdx_cons_zero, List.countP_cons]
      cases p x <;> simp
    | succ i =>
      have hl := ih (i := i) h
      simp only [List.eraseIdx_cons_succ, List.countP_cons]
      omega

theorem map_set_of_getElem? {β : Type} (f : α → β) (h : l[i]? = some a) {b : α}
    (same : f b = f a) : (l.set i b).map f = l.map f := by
  have hself : (l.map f)[i]? = some (f b) := by
    rw [List.getElem?_map, h, Option.map_some, same]
  obtain ⟨hi, hb⟩ := List.getElem?_eq_some_iff.mp hself
  rw [List.map_set, ← hb, List.set_getElem_self]

theorem index_unique {β : Type} {f : α → β} {j : Nat} {b : α} (distinct : (l.map f).Nodup)
    (ha : l[i]? = some a) (hb : l[j]? = some b) (same : f a = f b) : i = j := by
  have hi : i < (l.map f).length := by
    rw [List.length_map]
    exact (List.getElem?_eq_some_iff.mp ha).1
  refine (List.getElem?_inj hi distinct).mp ?_
  rw [List.getElem?_map, List.getElem?_map, ha, hb, Option.map_some, Option.map_some, same]

theorem sum_set_of_getElem? (f : α → Nat) (h : l[i]? = some a) (b : α) :
    ((l.set i b).map f).sum + f a = (l.map f).sum + f b := by
  induction l generalizing i with
  | nil => simp at h
  | cons x l ih =>
    cases i with
    | zero =>
      obtain rfl := Option.some.inj h
      simp only [List.set_cons_zero, List.map_cons, List.sum_cons]
      omega
    | succ i =>
      have hl := ih (i := i) h
      simp only [List.set_cons_succ, List.map_cons, List.sum_cons]
      omega

theorem sum_eraseIdx_of_getElem? (f : α → Nat) (h : l[i]? = some a) :
    ((l.eraseIdx i).map f).sum + f a = (l.map f).sum := by
  induction l generalizing i with
  | nil => simp at h
  | cons x l ih =>
    cases i with
    | zero =>
      obtain rfl := Option.some.inj h
      simp only [List.eraseIdx_cons_zero, List.map_cons, List.sum_cons]
      omega
    | succ i =>
      have hl := ih (i := i) h
      simp only [List.eraseIdx_cons_succ, List.map_cons, List.sum_cons]
      omega

end FleetDispatch
