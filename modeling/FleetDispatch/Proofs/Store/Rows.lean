import FleetDispatch.Store.Ledger
import FleetDispatch.Store.Tables
import Mathlib.Algebra.Ring.Nat

namespace FleetDispatch

/-- Keys that are strictly and totally ordered. -/
class OrderedRow (α : Type) (κ : outParam Type) [Row α κ] : Prop where
  irrefl : ∀ k : κ, Row.before α k k = false
  trans : ∀ {i j k : κ}, Row.before α i j = true → Row.before α j k = true → Row.before α i k = true
  total : ∀ {i j : κ}, i ≠ j → Row.before α i j = false → Row.before α j i = true

namespace Rows

variable {α β κ : Type} [Row α κ] [DecidableEq κ]

/-- Rows in the order of their keys, no two with one key. -/
def Ascending (rows : List α) : Prop :=
  rows.Pairwise fun a b => Row.before α (Row.key a) (Row.key b) = true

theorem key_of_find? {k : κ} {rows : List α} {r : α} (h : find? k rows = some r) :
    Row.key r = k := by
  simpa using List.find?_some h

theorem mem_of_find? {k : κ} {rows : List α} {r : α} (h : find? k rows = some r) : r ∈ rows :=
  List.mem_of_find?_eq_some h

@[simp] theorem find?_nil (k : κ) : find? k ([] : List α) = none := rfl

theorem find?_cons (k : κ) (r : α) (rows : List α) :
    find? k (r :: rows) = if Row.key r = k then some r else find? k rows := by
  by_cases h : Row.key r = k <;> simp [find?, h]

theorem find?_put (k : κ) (row : α) (rows : List α) :
    find? k (put row rows) = if Row.key row = k then some row else find? k rows := by
  induction rows with
  | nil => simp [put, find?_cons]
  | cons r rows ih =>
    simp only [put]
    split
    · next h => by_cases hk : Row.key row = k <;> simp [find?_cons, h, hk]
    · next h =>
      split
      · simp [find?_cons]
      · by_cases hk : Row.key r = k
        · have hr : Row.key row ≠ k := fun he => h (hk.trans he.symm)
          simp [find?_cons, hk, hr]
        · simp [find?_cons, hk, ih]

theorem find?_ensure (k : κ) (row : α) (rows : List α) :
    find? k (ensure row rows) = (find? k rows).or (if Row.key row = k then some row else none) := by
  unfold ensure
  split
  · next h =>
    by_cases hk : Row.key row = k
    · obtain ⟨r, hr⟩ := Option.isSome_iff_exists.mp h
      simp [hk ▸ hr]
    · simp [hk]
  · next h =>
    rw [find?_put]
    by_cases hk : Row.key row = k
    · have hn : find? k rows = none := by simpa [hk] using h
      simp [hk, hn]
    · simp [hk]

theorem mem_put {row x : α} {rows : List α} (h : x ∈ put row rows) : x = row ∨ x ∈ rows := by
  induction rows with
  | nil => simpa [put] using h
  | cons r rows ih =>
    simp only [put] at h
    split at h
    · rcases List.mem_cons.mp h with h | h
      · exact .inl h
      · exact .inr (List.mem_cons_of_mem _ h)
    · split at h
      · exact List.mem_cons.mp h
      · rcases List.mem_cons.mp h with h | h
        · exact .inr (by simp [h])
        · exact (ih h).imp_right (List.mem_cons_of_mem _)

theorem sum_put_of_none (f : α → Nat) {row : α} {rows : List α}
    (hold : find? (Row.key row) rows = none) :
    ((put row rows).map f).sum = (rows.map f).sum + f row := by
  induction rows with
  | nil => simp [put]
  | cons r rows ih =>
    rw [find?_cons] at hold
    split at hold
    · simp at hold
    · next he =>
      simp only [put, he, ↓reduceIte]
      split
      · simp only [List.map_cons, List.sum_cons]
        omega
      · simp only [List.map_cons, List.sum_cons, ih hold]
        omega

theorem put_put {row x : α} (rows : List α) (hk : Row.key row = Row.key x) :
    put row (put x rows) = put row rows := by
  induction rows with
  | nil => simp [put, hk]
  | cons r rows ih =>
    by_cases he : Row.key r = Row.key x
    · simp [put, he, hk]
    · by_cases hb : Row.before α (Row.key x) (Row.key r) = true
      · simp [put, he, hb, hk]
      · simp [put, he, hb, hk, ih]

theorem put_ensure {row x : α} (rows : List α) (hk : Row.key row = Row.key x) :
    put row (ensure x rows) = put row rows := by
  unfold ensure
  split
  · rfl
  · exact put_put rows hk

section rendering

variable [Row β κ] {g : α → β}

/-- A function on rows that keeps their keys and the order of keys. -/
structure Renders (g : α → β) : Prop where
  key : ∀ a, Row.key (g a) = Row.key a
  before : ∀ i j : κ, Row.before β i j = Row.before α i j

theorem Renders.find?_map (hg : Renders g) (k : κ) (rows : List α) :
    find? k (rows.map g) = (find? k rows).map g := by
  induction rows with
  | nil => rfl
  | cons r rows ih =>
    rw [List.map_cons, find?_cons, find?_cons, hg.key, ih]
    split <;> rfl

theorem Renders.put_map (hg : Renders g) (row : α) (rows : List α) :
    put (g row) (rows.map g) = (put row rows).map g := by
  induction rows with
  | nil => rfl
  | cons r rows ih =>
    simp only [List.map_cons, put, hg.key, hg.before, ih]
    split
    · rfl
    · split <;> rfl

theorem Renders.ensure_map (hg : Renders g) (row : α) (rows : List α) :
    ensure (g row) (rows.map g) = (ensure row rows).map g := by
  unfold ensure
  rw [hg.key, hg.find?_map, Option.isSome_map, hg.put_map]
  split <;> rfl

omit [DecidableEq κ] in
theorem Renders.ascending_map (hg : Renders g) {rows : List α} :
    Ascending (rows.map g) ↔ Ascending rows := by
  unfold Ascending
  rw [List.pairwise_map]
  simp only [hg.key, hg.before]

end rendering

variable [OrderedRow α κ]

theorem ascending_put (row : α) {rows : List α} (h : Ascending rows) :
    Ascending (put row rows) := by
  induction rows with
  | nil => simp [put, Ascending]
  | cons r rows ih =>
    obtain ⟨hr, hrows⟩ := List.pairwise_cons.mp h
    simp only [put]
    split
    · next he => exact List.pairwise_cons.mpr ⟨fun x hx => he ▸ hr x hx, hrows⟩
    · next hne =>
      split
      · next hb =>
        refine List.pairwise_cons.mpr ⟨fun x hx => ?_, h⟩
        rcases List.mem_cons.mp hx with rfl | hx
        · exact hb
        · exact OrderedRow.trans hb (hr x hx)
      · next hb =>
        refine List.pairwise_cons.mpr ⟨fun x hx => ?_, ih hrows⟩
        rcases mem_put hx with rfl | hx
        · exact OrderedRow.total (fun he => hne he.symm) (by simpa using hb)
        · exact hr x hx

theorem ascending_ensure (row : α) {rows : List α} (h : Ascending rows) :
    Ascending (ensure row rows) := by
  unfold ensure
  split
  · exact h
  · exact ascending_put row h

theorem find?_of_mem {r : α} {rows : List α} (h : Ascending rows) (hr : r ∈ rows) :
    find? (Row.key r) rows = some r := by
  induction rows with
  | nil => simp at hr
  | cons x rows ih =>
    obtain ⟨hx, hrows⟩ := List.pairwise_cons.mp h
    rw [find?_cons]
    rcases List.mem_cons.mp hr with rfl | hm
    · simp
    · have hne : Row.key x ≠ Row.key r := by
        intro he
        have hb := hx r hm
        rw [he, OrderedRow.irrefl] at hb
        simp at hb
      simp [hne, ih hrows hm]

theorem mem_iff_find? {r : α} {rows : List α} (h : Ascending rows) :
    r ∈ rows ↔ find? (Row.key r) rows = some r :=
  ⟨find?_of_mem h, mem_of_find?⟩

theorem not_before_of_find? {k : κ} {r x : α} {rows : List α} (h : Ascending (r :: rows))
    (hx : find? k rows = some x) : ¬ Row.before α k (Row.key r) = true := by
  intro hb
  have hself := OrderedRow.trans (α := α) hb ((List.pairwise_cons.mp h).1 x (mem_of_find? hx))
  rw [key_of_find? hx, OrderedRow.irrefl] at hself
  cases hself

theorem sum_put_of_some (f : α → Nat) {row old : α} {rows : List α} (h : Ascending rows)
    (hold : find? (Row.key row) rows = some old) :
    ((put row rows).map f).sum + f old = (rows.map f).sum + f row := by
  induction rows with
  | nil => simp at hold
  | cons r rows ih =>
    obtain ⟨-, hrows⟩ := List.pairwise_cons.mp h
    rw [find?_cons] at hold
    simp only [put]
    split at hold
    · next he =>
      obtain rfl := Option.some.inj hold
      simp only [he, ↓reduceIte, List.map_cons, List.sum_cons]
      omega
    · next he =>
      have hb := not_before_of_find? h hold
      have hs := ih hrows hold
      simp only [he, hb, ↓reduceIte, Bool.false_eq_true, List.map_cons, List.sum_cons]
      omega

theorem update_eq_put {k : κ} {f : α → α} {old : α} {rows : List α} (h : Ascending rows)
    (hold : find? k rows = some old) (hf : Row.key (f old) = k) :
    (update k f rows).1 = put (f old) rows := by
  unfold update
  induction rows with
  | nil => cases hold
  | cons r rows ih =>
    obtain ⟨hr, hrows⟩ := List.pairwise_cons.mp h
    rw [find?_cons] at hold
    by_cases hk : Row.key r = k
    · rw [if_pos hk] at hold
      obtain rfl := Option.some.inj hold
      have hrest : ∀ x ∈ rows, (if Row.key x = k then f x else x) = x := by
        intro x hx
        refine if_neg fun he => ?_
        have hb := hr x hx
        rw [he, hk, OrderedRow.irrefl] at hb
        cases hb
      simp [put, hk, hf, List.map_congr_left hrest]
    · rw [if_neg hk] at hold
      have hb := not_before_of_find? h hold
      have hi := ih hrows hold
      simp only at hi
      simp [put, hk, hf, hb, hi]

end Rows

theorem mem_insertName {s t : String} {names : List String} :
    t ∈ insertName s names ↔ t = s ∨ t ∈ names := by
  induction names with
  | nil => simp [insertName]
  | cons n names ih =>
    unfold insertName
    split
    · next h => simp [h]
    · split
      · simp
      · simp [ih, or_left_comm]

theorem mem_sortedNames {t : String} {names : List String} :
    t ∈ sortedNames names ↔ t ∈ names := by
  have hfold (acc : List String) :
      t ∈ names.foldl (fun acc s => insertName s acc) acc ↔ t ∈ names ∨ t ∈ acc := by
    induction names generalizing acc with
    | nil => simp
    | cons n names ih => simp [ih, mem_insertName, or_left_comm, or_assoc]
  rw [sortedNames, hfold, or_iff_left List.not_mem_nil]

theorem string_lt_of_ne {s t : String} (hne : s ≠ t) (h : ¬ s < t) : t < s :=
  Decidable.byContradiction fun ht =>
    hne (String.le_antisymm (String.not_lt.mp ht) (String.not_lt.mp h))

theorem pairwise_insertName {s : String} {names : List String} (h : names.Pairwise (· < ·)) :
    (insertName s names).Pairwise (· < ·) := by
  induction names with
  | nil => exact List.pairwise_singleton _ _
  | cons t ts ih =>
    obtain ⟨ht, hts⟩ := List.pairwise_cons.mp h
    unfold insertName
    split
    · exact h
    · next hne =>
      split
      · next hlt =>
        refine List.pairwise_cons.mpr ⟨fun x hx => ?_, h⟩
        rcases List.mem_cons.mp hx with rfl | hx
        · exact hlt
        · exact String.lt_trans hlt (ht x hx)
      · next hnot =>
        refine List.pairwise_cons.mpr ⟨fun x hx => ?_, ih hts⟩
        rcases mem_insertName.mp hx with rfl | hx
        · exact string_lt_of_ne hne hnot
        · exact ht x hx

theorem nodup_sortedNames (names : List String) : (sortedNames names).Nodup := by
  have hfold (acc : List String) (hacc : acc.Pairwise (· < ·)) :
      (names.foldl (fun acc s => insertName s acc) acc).Pairwise (· < ·) := by
    induction names generalizing acc with
    | nil => exact hacc
    | cons n names ih => exact ih _ (pairwise_insertName hacc)
  refine (hfold [] .nil).imp fun {s t} hlt he => ?_
  exact String.lt_irrefl t (he ▸ hlt)

instance : OrderedRow Action ActionId where
  irrefl k := by simp [Row.before]
  trans h₁ h₂ := decide_eq_true (Int.lt_trans (of_decide_eq_true h₁) (of_decide_eq_true h₂))
  total h₁ h₂ := decide_eq_true
    (Int.lt_iff_le_and_ne.mpr ⟨Int.not_lt.mp (of_decide_eq_false h₂), Ne.symm h₁⟩)

instance : OrderedRow Endpoint EndpointId where
  irrefl k := by simp [Row.before]
  trans h₁ h₂ := decide_eq_true (String.lt_trans (of_decide_eq_true h₁) (of_decide_eq_true h₂))
  total h₁ h₂ := decide_eq_true (string_lt_of_ne h₁ (of_decide_eq_false h₂))

theorem before_record {i j : ActionId × EndpointId} :
    Row.before Record i j = true ↔ i.1 < j.1 ∨ (i.1 = j.1 ∧ i.2 < j.2) := by
  simp [Row.before]

instance : OrderedRow Record (ActionId × EndpointId) where
  irrefl k := by simp [Row.before]
  trans h₁ h₂ := by
    rw [before_record] at *
    rcases h₁ with h₁ | ⟨e₁, h₁⟩ <;> rcases h₂ with h₂ | ⟨e₂, h₂⟩
    · exact .inl (Int.lt_trans h₁ h₂)
    · exact .inl (e₂ ▸ h₁)
    · exact .inl (e₁ ▸ h₂)
    · exact .inr ⟨e₁.trans e₂, String.lt_trans h₁ h₂⟩
  total {i j} h₁ h₂ := by
    have h := mt before_record.mpr (by simp [h₂] : ¬ Row.before Record i j = true)
    rw [before_record]
    rcases Int.lt_trichotomy i.1 j.1 with hl | he | hg
    · exact absurd (.inl hl) h
    · have hne : i.2 ≠ j.2 := fun h2 => h₁ (Prod.ext he h2)
      exact .inr ⟨he.symm, string_lt_of_ne hne fun hl => h (.inr ⟨he, hl⟩)⟩
    · exact .inl hg

instance : OrderedRow ActionRow ActionId where
  irrefl := OrderedRow.irrefl (α := Action)
  trans := OrderedRow.trans (α := Action)
  total := OrderedRow.total (α := Action)

instance : OrderedRow EndpointRow EndpointId where
  irrefl := OrderedRow.irrefl (α := Endpoint)
  trans := OrderedRow.trans (α := Endpoint)
  total := OrderedRow.total (α := Endpoint)

instance : OrderedRow RecordRow (ActionId × EndpointId) where
  irrefl := OrderedRow.irrefl (α := Record)
  trans := OrderedRow.trans (α := Record)
  total := OrderedRow.total (α := Record)

end FleetDispatch
