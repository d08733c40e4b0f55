import FleetDispatch.Proofs.Store.Rows
import Mathlib.Data.List.Forall2

namespace FleetDispatch

open List (Forall₂)

theorem isSome_of_rel {α β : Type} {R : α → β → Prop} {a : Option α} {b : Option β}
    (h : Option.Rel R a b) : b.isSome = a.isSome := by
  cases h <;> rfl

namespace Rows

variable {α β κ : Type} [Row α κ] [Row β κ] [DecidableEq κ] {R : α → β → Prop}
variable {as : List α} {bs : List β} {a : α} {b : β}

/-- A relation between rows of two kinds that have one key, where keys are ordered alike. -/
structure Pairs (R : α → β → Prop) : Prop where
  key : ∀ {a b}, R a b → Row.key b = Row.key a
  before : ∀ i j : κ, Row.before β i j = Row.before α i j

theorem Pairs.find? (hR : Pairs R) (k : κ) (h : Forall₂ R as bs) :
    Option.Rel R (Rows.find? k as) (Rows.find? k bs) := by
  induction h with
  | nil => exact .none
  | cons hab _ ih =>
    rw [find?_cons, find?_cons, hR.key hab]
    split
    · exact .some hab
    · exact ih

theorem Pairs.put (hR : Pairs R) (hab : R a b) (h : Forall₂ R as bs) :
    Forall₂ R (Rows.put a as) (Rows.put b bs) := by
  induction h with
  | nil => exact .cons hab .nil
  | cons hxy hrest ih =>
    simp only [Rows.put, hR.key hab, hR.key hxy, hR.before]
    split
    · exact .cons hab hrest
    · split
      · exact .cons hab (.cons hxy hrest)
      · exact .cons hxy ih

theorem Pairs.ensure (hR : Pairs R) (hab : R a b) (h : Forall₂ R as bs) :
    Forall₂ R (Rows.ensure a as) (Rows.ensure b bs) := by
  unfold Rows.ensure
  rw [hR.key hab, isSome_of_rel (hR.find? (Row.key a) h)]
  split
  · exact h
  · exact hR.put hab h

omit [DecidableEq κ] in
theorem Pairs.ascending (hR : Pairs R) (h : Forall₂ R as bs) (ha : Ascending as) :
    Ascending bs := by
  induction h with
  | nil => exact List.Pairwise.nil
  | @cons a b as bs hab hrest ih =>
    obtain ⟨hhead, htail⟩ := List.pairwise_cons.mp ha
    refine List.pairwise_cons.mpr ⟨fun y hy => ?_, ih htail⟩
    obtain ⟨i, hi, rfl⟩ := List.mem_iff_getElem.mp hy
    have hlen := hrest.length_eq
    have hxy : R as[i] bs[i] := hrest.get (by omega) hi
    rw [hR.before, hR.key hab, hR.key hxy]
    exact hhead _ (List.getElem_mem _)

end Rows

section lists

variable {α β γ : Type} {R : α → β → Prop} {S : α → γ → Prop} {as : List α} {bs : List β}

theorem forall₂_filter {p : α → Bool} {q : β → Bool} (hpq : ∀ a b, R a b → q b = p a)
    (h : Forall₂ R as bs) : Forall₂ R (as.filter p) (bs.filter q) := by
  induction h with
  | nil => exact .nil
  | @cons a b _ _ hab _ ih =>
    rw [List.filter_cons, List.filter_cons, hpq a b hab]
    split
    · exact .cons hab ih
    · exact ih

theorem map_eq_of_forall₂ {f : α → γ} {g : β → γ} (hfg : ∀ a b, R a b → g b = f a)
    (h : Forall₂ R as bs) : bs.map g = as.map f := by
  induction h with
  | nil => rfl
  | @cons a b _ _ hab _ ih => rw [List.map_cons, List.map_cons, hfg a b hab, ih]

theorem mapM_forall₂ {f : β → Except StoreError γ}
    (hf : ∀ a b, R a b → ∃ c, f b = .ok c ∧ S a c) (h : Forall₂ R as bs) :
    ∃ cs, bs.mapM f = .ok cs ∧ Forall₂ S as cs := by
  induction h with
  | nil => exact ⟨[], rfl, .nil⟩
  | @cons a b _ _ hab _ ih =>
    obtain ⟨c, hc, hac⟩ := hf a b hab
    obtain ⟨cs, hcs, hrest⟩ := ih
    refine ⟨c :: cs, ?_, .cons hac hrest⟩
    rw [List.mapM_cons, hc]
    change (List.mapM f _ >>= _ : Except StoreError (List γ)) = _
    rw [hcs]
    rfl

theorem mergeSort_forall₂ {le : α → α → Bool} {le' : β → β → Bool}
    (hle : ∀ a b x y, R a b → R x y → le' b y = le a x) (h : Forall₂ R as bs) :
    Forall₂ R (as.mergeSort le) (bs.mergeSort le') := by
  have hlen := h.length_eq
  have hzip : ∀ p ∈ as.zip bs, R p.1 p.2 := fun p hp => List.forall₂_zip h hp
  have hfst : (as.zip bs).map Prod.fst = as := List.map_fst_zip (by omega)
  have hsnd : (as.zip bs).map Prod.snd = bs := List.map_snd_zip (by omega)
  let sorted := (as.zip bs).mergeSort fun p q => le p.1 q.1
  have has : sorted.map Prod.fst = as.mergeSort le := by
    rw [List.map_mergeSort (s := le) fun _ _ _ _ => rfl, hfst]
  have hbs : sorted.map Prod.snd = bs.mergeSort le' := by
    rw [List.map_mergeSort (s := le') fun p hp q hq => (hle _ _ _ _ (hzip p hp) (hzip q hq)).symm,
      hsnd]
  rw [← has, ← hbs, List.forall₂_map_left_iff, List.forall₂_map_right_iff, List.forall₂_same]
  exact fun p hp => hzip p (List.mem_mergeSort.mp hp)

end lists

end FleetDispatch
