import FleetDispatch.Proofs.Json.Tokens

namespace FleetDispatch.Json

mutual

/-- Whether a value has no fraction in it, whole numbers of 64 bits with or without a sign, and
the fields of every object in ascending order. -/
def isPlain : Json → Bool
  | .int n => Width.least64 ≤ n && n ≤ Width.most64
  | .float _ => false
  | .arr items => arePlain items
  | .obj fields => fields.Pairwise (fun f g => f.1 < g.1) && havePlain fields
  | _ => true

def arePlain : List Json → Bool
  | [] => true
  | v :: vs => isPlain v && arePlain vs

def havePlain : Fields → Bool
  | [] => true
  | (_, v) :: fs => isPlain v && havePlain fs

end

mutual

def depth : Json → Nat
  | .arr items => depthOfItems items + 1
  | .obj fields => depthOfFields fields + 1
  | _ => 0

def depthOfItems : List Json → Nat
  | [] => 0
  | v :: vs => max (depth v) (depthOfItems vs)

def depthOfFields : Fields → Nat
  | [] => 0
  | (_, v) :: fs => max (depth v) (depthOfFields fs)

end

theorem skipSpace_cons {c : Char} {cs : List Char} (h : isSpace c = false) :
    skipSpace (c :: cs) = c :: cs := by
  simp [skipSpace, h]

/-- The first character of a value is not a blank, nor the end of a list. -/
structure Opens (c : Char) : Prop where
  notSpace : isSpace c = false
  notEnd : c ≠ ']'

theorem opens_of_isDigit {c : Char} (h : Decimal.isDigit c = true) : Opens c := by
  refine ⟨?_, fun hc => by cases hc; cases h⟩
  rw [isSpace]
  simp only [Bool.or_eq_false_iff, beq_eq_false_iff_ne]
  refine ⟨⟨⟨?_, ?_⟩, ?_⟩, ?_⟩ <;> (rintro rfl; cases h)

theorem opens_chars {v : Json} (h : v.isPlain = true) : ∃ c cs, chars v = c :: cs ∧ Opens c := by
  cases v with
  | null => exact ⟨_, _, rfl, by decide, by decide⟩
  | bool b => cases b <;> exact ⟨_, _, rfl, by decide, by decide⟩
  | int n =>
    rw [chars, Decimal.signed]
    split
    · exact ⟨_, _, rfl, by decide, by decide⟩
    · cases hd : Decimal.digits n.natAbs with
      | nil => exact absurd hd (Decimal.digits_ne_nil _)
      | cons d ds =>
        have hmem : d ∈ Decimal.digits n.natAbs := by
          rw [hd]
          exact List.mem_cons_self
        exact ⟨d, ds, rfl, opens_of_isDigit (Decimal.isDigit_of_mem_digits hmem)⟩
  | float x => cases h
  | str s => exact ⟨_, _, rfl, by decide, by decide⟩
  | arr items => cases items <;> exact ⟨_, _, rfl, by decide, by decide⟩
  | obj fields => cases fields <;> exact ⟨_, _, rfl, by decide, by decide⟩

section parser

variable {d fuel : Nat} {cs rest : List Char} {v : Json} {k : String}

theorem value_string (s : String) :
    value d (fuel + 1) (quoted s ++ rest) = .ok (.str s, rest) := by
  have hs := string_quoted s rest
  rw [quoted, List.append_assoc, List.cons_append, value, skipSpace_cons (by decide)]
  change (string (s.toList.flatMap escapeChar ++ '"' :: rest) >>= _ : Reading _) = _
  rw [hs]
  rfl

theorem value_number {c : Char} (h : c = '-' ∨ Decimal.isDigit c = true) :
    value d (fuel + 1) (c :: cs) = number (c :: cs) := by
  have hspace : isSpace c = false := by
    rcases h with rfl | h
    · decide
    · exact (opens_of_isDigit h).notSpace
  rw [value, skipSpace_cons hspace]
  split
  case h_1 he => cases he
  case h_8 he =>
    obtain ⟨rfl, rfl⟩ := List.cons.inj he
    rw [if_pos (by simpa using h)]
  all_goals
    next he =>
      obtain ⟨rfl, -⟩ := List.cons.inj he
      rcases h with h | h <;> cases h

theorem value_signed {n : Int} (hlow : Width.least64 ≤ n) (hhigh : n ≤ Width.most64)
    (h : Closes rest) : value d (fuel + 1) (Decimal.signed n ++ rest) = .ok (.int n, rest) := by
  rw [← number_signed hlow hhigh h, Decimal.signed]
  split
  · exact value_number (.inl rfl)
  · cases hd : Decimal.digits n.natAbs with
    | nil => exact absurd hd (Decimal.digits_ne_nil _)
    | cons c cs =>
      have hmem : c ∈ Decimal.digits n.natAbs := by
        rw [hd]
        exact List.mem_cons_self
      exact value_number (.inr (Decimal.isDigit_of_mem_digits hmem))

theorem value_list {c : Char} (h : Opens c) :
    value (d + 1) (fuel + 1) ('[' :: c :: cs) =
      (items d fuel (c :: cs)).map fun r => (.arr r.1, r.2) := by
  rw [value, skipSpace_cons (by decide)]
  simp only [skipSpace_cons h.notSpace, Nat.succ_ne_zero, if_false, Nat.add_sub_cancel]
  split
  · next he => cases he
  · next he => exact absurd (List.cons.inj he).1 h.notEnd
  · cases items d fuel (c :: cs) <;> rfl

theorem value_object :
    value (d + 1) (fuel + 1) ('\x7b' :: quoted k ++ cs) =
      (fields d fuel (quoted k ++ cs)).map fun r => (.obj r.1, r.2) := by
  rw [List.cons_append, value, skipSpace_cons (by decide)]
  change (fields d fuel (quoted k ++ cs) >>= _ : Reading _) = _
  cases fields d fuel (quoted k ++ cs) <;> rfl

theorem items_last (h : value d fuel cs = .ok (v, ']' :: rest)) :
    items d (fuel + 1) cs = .ok ([v], rest) := by
  rw [items, h]
  rfl

theorem items_next {c : Char} {next : List Char} (hc : Opens c)
    (h : value d fuel cs = .ok (v, ',' :: c :: next)) :
    items d (fuel + 1) cs = (items d fuel (c :: next)).map fun r => (v :: r.1, r.2) := by
  have hcomma : skipSpace (',' :: c :: next) = ',' :: c :: next := skipSpace_cons (by decide)
  rw [items, h]
  simp only [bind, Except.bind, hcomma, skipSpace_cons hc.notSpace]
  split
  · next he => exact absurd (List.cons.inj he).1 hc.notEnd
  · cases items d fuel (c :: next) <;> rfl

theorem fields_last (h : value d fuel cs = .ok (v, '\x7d' :: rest)) :
    fields d (fuel + 1) (quoted k ++ ':' :: cs) = .ok ([(k, v)], rest) := by
  have hs := string_quoted k (':' :: cs)
  rw [quoted, List.append_assoc, List.cons_append, fields, skipSpace_cons (by decide)]
  change (string (k.toList.flatMap escapeChar ++ '"' :: ':' :: cs) >>= _ : Reading _) = _
  rw [hs]
  change (value d fuel cs >>= _ : Reading _) = _
  rw [h]
  rfl

theorem fields_next {j : String} {next : List Char}
    (h : value d fuel cs = .ok (v, ',' :: quoted j ++ next)) :
    fields d (fuel + 1) (quoted k ++ ':' :: cs) =
      (fields d fuel (quoted j ++ next)).map fun r => ((k, v) :: r.1, r.2) := by
  have hs := string_quoted k (':' :: cs)
  rw [quoted, List.append_assoc, List.cons_append, fields, skipSpace_cons (by decide)]
  change (string (k.toList.flatMap escapeChar ++ '"' :: ':' :: cs) >>= _ : Reading _) = _
  rw [hs]
  change (value d fuel cs >>= _ : Reading _) = _
  rw [h]
  change (fields d fuel (quoted j ++ next) >>= _ : Reading _) = _
  cases fields d fuel (quoted j ++ next) <;> rfl

end parser

theorem closes_moreItems (vs : List Json) (rest : List Char) : Closes (moreItems vs ++ rest) := by
  cases vs <;> exact closes_cons (by decide)

theorem closes_moreFields (fs : Fields) (rest : List Char) : Closes (moreFields fs ++ rest) := by
  cases fs <;> exact closes_cons (by decide)

mutual

/-- A plain value reads back from its compact text, wherever its depth is allowed. -/
theorem value_chars (v : Json) {d fuel : Nat} {rest : List Char} (hplain : v.isPlain = true)
    (hdepth : v.depth ≤ d) (hfuel : 2 * (chars v).length ≤ fuel) (hrest : Closes rest) :
    value d fuel (chars v ++ rest) = .ok (v, rest) := by
  have hpos : 0 < (chars v).length := by
    obtain ⟨c, cs, hc, -⟩ := opens_chars hplain
    rw [hc]
    exact Nat.succ_pos _
  obtain ⟨fuel, rfl⟩ : ∃ n, fuel = n + 1 := ⟨fuel - 1, by omega⟩
  -- the fuel is twice the length: one unit for the value and one for the list it may open
  match v with
  | .null => rfl
  | .bool true => rfl
  | .bool false => rfl
  | .int n =>
    rw [isPlain, Bool.and_eq_true, decide_eq_true_eq, decide_eq_true_eq] at hplain
    exact value_signed hplain.1 hplain.2 hrest
  | .float x => cases hplain
  | .str s => exact value_string s
  | .arr [] =>
    rw [depth] at hdepth
    obtain ⟨d, rfl⟩ : ∃ n, d = n + 1 := ⟨d - 1, by omega⟩
    rfl
  | .arr (v :: vs) =>
    rw [isPlain, arePlain, Bool.and_eq_true] at hplain
    rw [depth, depthOfItems] at hdepth
    simp only [chars, List.length_cons, List.length_append] at hfuel
    obtain ⟨d, rfl⟩ : ∃ n, d = n + 1 := ⟨d - 1, by omega⟩
    obtain ⟨fuel, rfl⟩ : ∃ n, fuel = n + 1 := ⟨fuel - 1, by omega⟩
    obtain ⟨c, cs, hc, hopens⟩ := opens_chars hplain.1
    have hv : value d fuel (chars v ++ (moreItems vs ++ rest)) = .ok (v, moreItems vs ++ rest) :=
      value_chars v hplain.1 (by omega) (by omega) (closes_moreItems vs rest)
    have hitems := items_chars vs v hv hplain.2 (by omega) (by omega)
    have htext : chars (.arr (v :: vs)) ++ rest =
        '[' :: c :: (cs ++ (moreItems vs ++ rest)) := by
      rw [chars, hc]
      simp only [List.cons_append, List.append_assoc]
    rw [hc, List.cons_append] at hitems
    rw [htext, value_list hopens, hitems]
    rfl
  | .obj [] =>
    rw [depth] at hdepth
    obtain ⟨d, rfl⟩ : ∃ n, d = n + 1 := ⟨d - 1, by omega⟩
    rfl
  | .obj ((k, v) :: fs) =>
    rw [isPlain, havePlain, Bool.and_eq_true, Bool.and_eq_true] at hplain
    rw [depth, depthOfFields] at hdepth
    simp only [chars, List.length_cons, List.length_append] at hfuel
    obtain ⟨d, rfl⟩ : ∃ n, d = n + 1 := ⟨d - 1, by omega⟩
    obtain ⟨fuel, rfl⟩ : ∃ n, fuel = n + 1 := ⟨fuel - 1, by omega⟩
    have hv : value d fuel (chars v ++ (moreFields fs ++ rest)) = .ok (v, moreFields fs ++ rest) :=
      value_chars v hplain.2.1 (by omega) (by omega) (closes_moreFields fs rest)
    have hfields := fields_chars fs k v hv hplain.2.2 (by omega) (by omega)
    have htext : chars (.obj ((k, v) :: fs)) ++ rest =
        '\x7b' :: quoted k ++ ':' :: (chars v ++ (moreFields fs ++ rest)) := by
      simp only [chars, List.cons_append, List.append_assoc]
    rw [htext, value_object, hfields]
    rfl

theorem items_chars (vs : List Json) (v : Json) {d fuel : Nat} {rest : List Char}
    (hv : value d fuel (chars v ++ (moreItems vs ++ rest)) = .ok (v, moreItems vs ++ rest))
    (hplain : arePlain vs = true) (hdepth : depthOfItems vs ≤ d)
    (hfuel : 2 * (moreItems vs).length ≤ fuel) :
    items d (fuel + 1) (chars v ++ (moreItems vs ++ rest)) = .ok (v :: vs, rest) := by
  match vs with
  | [] => exact items_last hv
  | w :: ws =>
    rw [arePlain, Bool.and_eq_true] at hplain
    rw [depthOfItems] at hdepth
    simp only [moreItems, List.length_cons, List.length_append] at hfuel
    obtain ⟨fuel, rfl⟩ : ∃ n, fuel = n + 1 := ⟨fuel - 1, by omega⟩
    obtain ⟨c, cs, hc, hopens⟩ := opens_chars hplain.1
    have hw : value d fuel (chars w ++ (moreItems ws ++ rest)) = .ok (w, moreItems ws ++ rest) :=
      value_chars w hplain.1 (by omega) (by omega) (closes_moreItems ws rest)
    have hitems := items_chars ws w hw hplain.2 (by omega) (by omega)
    have hnext : moreItems (w :: ws) ++ rest = ',' :: c :: (cs ++ (moreItems ws ++ rest)) := by
      rw [moreItems, hc]
      simp only [List.cons_append, List.append_assoc]
    rw [hc, List.cons_append] at hitems
    rw [hnext] at hv ⊢
    rw [items_next hopens hv, hitems]
    rfl

theorem fields_chars (fs : Fields) (k : String) (v : Json) {d fuel : Nat} {rest : List Char}
    (hv : value d fuel (chars v ++ (moreFields fs ++ rest)) = .ok (v, moreFields fs ++ rest))
    (hplain : havePlain fs = true) (hdepth : depthOfFields fs ≤ d)
    (hfuel : 2 * (moreFields fs).length ≤ fuel) :
    fields d (fuel + 1) (quoted k ++ ':' :: (chars v ++ (moreFields fs ++ rest))) =
      .ok ((k, v) :: fs, rest) := by
  match fs with
  | [] => exact fields_last hv
  | (j, w) :: gs =>
    rw [havePlain, Bool.and_eq_true] at hplain
    rw [depthOfFields] at hdepth
    simp only [moreFields, List.length_cons, List.length_append] at hfuel
    obtain ⟨fuel, rfl⟩ : ∃ n, fuel = n + 1 := ⟨fuel - 1, by omega⟩
    have hw : value d fuel (chars w ++ (moreFields gs ++ rest)) = .ok (w, moreFields gs ++ rest) :=
      value_chars w hplain.1 (by omega) (by omega) (closes_moreFields gs rest)
    have hfields := fields_chars gs j w hw hplain.2 (by omega) (by omega)
    have hnext : moreFields ((j, w) :: gs) ++ rest =
        ',' :: quoted j ++ ':' :: (chars w ++ (moreFields gs ++ rest)) := by
      simp only [moreFields, List.cons_append, List.append_assoc]
    rw [hnext] at hv ⊢
    rw [fields_next hv, hfields]
    rfl

end

theorem insertField_last {key : String} {v : Json} {fs : Fields} (h : ∀ f ∈ fs, f.1 < key) :
    insertField key v fs = fs ++ [(key, v)] := by
  induction fs with
  | nil => rfl
  | cons f fs ih =>
    have hf := h f List.mem_cons_self
    have hlt : ¬ key < f.1 := String.lt_asymm hf
    have hne : key ≠ f.1 := fun he => String.lt_irrefl _ (he ▸ hf)
    rw [insertField, if_neg hlt, if_neg hne, ih fun g hg => h g (List.mem_cons_of_mem _ hg)]
    rfl

theorem sortFields_of_ascending {fs : Fields} (h : fs.Pairwise fun f g => f.1 < g.1) :
    sortFields fs = fs := by
  -- each field goes in after all that the accumulator holds
  have hall : ∀ (fs acc : Fields), (acc ++ fs).Pairwise (fun f g => f.1 < g.1) →
      fs.foldl (fun acc f => insertField f.1 f.2 acc) acc = acc ++ fs := by
    intro fs
    induction fs with
    | nil => exact fun acc _ => (List.append_nil acc).symm
    | cons f fs ih =>
      intro acc hacc
      have hlast : ∀ g ∈ acc, g.1 < f.1 := fun g hg =>
        (List.pairwise_append.mp hacc).2.2 g hg f List.mem_cons_self
      rw [List.foldl_cons, insertField_last hlast, ih _ (by simpa using hacc), List.append_assoc]
      rfl
  exact hall fs [] h

mutual

theorem canonical_of_isPlain (v : Json) (h : v.isPlain = true) : canonical v = v := by
  match v with
  | .null | .bool _ | .int _ | .float _ | .str _ => rfl
  | .arr items =>
    rw [isPlain] at h
    rw [canonical, canonicalItems_of_arePlain items h]
  | .obj fields =>
    rw [isPlain, Bool.and_eq_true, decide_eq_true_eq] at h
    rw [canonical, canonicalFields_of_havePlain fields h.2, sortFields_of_ascending h.1]

theorem canonicalItems_of_arePlain (vs : List Json) (h : arePlain vs = true) :
    canonicalItems vs = vs := by
  match vs with
  | [] => rfl
  | v :: vs =>
    rw [arePlain, Bool.and_eq_true] at h
    rw [canonicalItems, canonical_of_isPlain v h.1, canonicalItems_of_arePlain vs h.2]

theorem canonicalFields_of_havePlain (fs : Fields) (h : havePlain fs = true) :
    canonicalFields fs = fs := by
  match fs with
  | [] => rfl
  | (k, v) :: fs =>
    rw [havePlain, Bool.and_eq_true] at h
    rw [canonicalFields, canonical_of_isPlain v h.1, canonicalFields_of_havePlain fs h.2]

end

end FleetDispatch.Json
