import FleetDispatch.Json.Decode
import FleetDispatch.Proofs.Json.RoundTrip

namespace FleetDispatch.Json

mutual

def all (p : Json → Bool) : Json → Bool
  | .arr items => p (.arr items) && allItems p items
  | .obj fields => p (.obj fields) && allFields p fields
  | v => p v

def allItems (p : Json → Bool) : List Json → Bool
  | [] => true
  | v :: vs => all p v && allItems p vs

def allFields (p : Json → Bool) : Fields → Bool
  | [] => true
  | (_, v) :: fs => all p v && allFields p fs

end

/-- A number that is not whole, or not of 64 bits, is a fraction. -/
def notFraction : Json → Bool
  | .float _ => false
  | _ => true

def isWhole (v : Json) : Bool :=
  v.all notFraction

def ofWidth : Json → Bool
  | .int n => Width.least64 ≤ n && n ≤ Width.most64
  | _ => true

def isNarrow (v : Json) : Bool :=
  v.all ofWidth

theorem allFields_iff {p : Json → Bool} {fs : Fields} :
    allFields p fs = true ↔ ∀ f ∈ fs, f.2.all p = true := by
  induction fs with
  | nil => simp [allFields]
  | cons f fs ih => simp [allFields, ih]

theorem havePlain_iff {fs : Fields} : havePlain fs = true ↔ ∀ f ∈ fs, f.2.isPlain = true := by
  induction fs with
  | nil => simp [havePlain]
  | cons f fs ih => simp [havePlain, ih]

section fields

variable {key : String} {v : Json} {f : String × Json} {fs : Fields}

theorem mem_insertField (h : f ∈ insertField key v fs) : f = (key, v) ∨ f ∈ fs := by
  induction fs with
  | nil => exact .inl (List.mem_singleton.mp h)
  | cons g gs ih =>
    rw [insertField] at h
    split at h
    · exact List.mem_cons.mp h
    · split at h
      · exact (List.mem_cons.mp h).imp id (List.mem_cons_of_mem _)
      · rcases List.mem_cons.mp h with rfl | h
        · exact .inr List.mem_cons_self
        · exact (ih h).imp id (List.mem_cons_of_mem _)

theorem ascending_insertField (h : fs.Pairwise fun f g => f.1 < g.1) :
    (insertField key v fs).Pairwise fun f g => f.1 < g.1 := by
  induction fs with
  | nil => exact List.pairwise_singleton _ _
  | cons g gs ih =>
    obtain ⟨hg, hgs⟩ := List.pairwise_cons.mp h
    rw [insertField]
    split
    · next hlt =>
      refine List.pairwise_cons.mpr ⟨fun f hf => ?_, h⟩
      rcases List.mem_cons.mp hf with rfl | hf
      · exact hlt
      · exact String.lt_trans hlt (hg f hf)
    · next hnot =>
      split
      · next heq => exact List.pairwise_cons.mpr ⟨fun f hf => heq ▸ hg f hf, hgs⟩
      · next hne =>
        have hlt : g.1 < key := by
          refine Decidable.byContradiction fun hge => hne ?_
          exact String.le_antisymm (String.not_lt.mp hge) (String.not_lt.mp hnot)
        refine List.pairwise_cons.mpr ⟨fun f hf => ?_, ih hgs⟩
        rcases mem_insertField hf with rfl | hf
        · exact hlt
        · exact hg f hf

theorem mem_sortFields (h : f ∈ sortFields fs) : f ∈ fs := by
  have hall : ∀ (fs acc : Fields), f ∈ fs.foldl (fun acc f => insertField f.1 f.2 acc) acc →
      f ∈ acc ∨ f ∈ fs := by
    intro fs
    induction fs with
    | nil => exact fun acc h => .inl h
    | cons g gs ih =>
      intro acc h
      rcases ih _ h with h | h
      · rcases mem_insertField h with rfl | h
        · exact .inr List.mem_cons_self
        · exact .inl h
      · exact .inr (List.mem_cons_of_mem _ h)
  simpa using hall fs [] h

theorem ascending_sortFields (fs : Fields) : (sortFields fs).Pairwise fun f g => f.1 < g.1 := by
  have hall : ∀ (fs acc : Fields), acc.Pairwise (fun f g => f.1 < g.1) →
      (fs.foldl (fun acc f => insertField f.1 f.2 acc) acc).Pairwise fun f g => f.1 < g.1 := by
    intro fs
    induction fs with
    | nil => exact fun acc h => h
    | cons g gs ih => exact fun acc h => ih _ (ascending_insertField h)
  exact hall fs [] .nil

theorem mem_canonicalFields (h : f ∈ canonicalFields fs) : ∃ v, f.2 = canonical v := by
  induction fs with
  | nil => cases h
  | cons g gs ih =>
    rcases List.mem_cons.mp h with rfl | h
    · exact ⟨g.2, rfl⟩
    · exact ih h

theorem mem_canonicalItems {vs : List Json} (h : v ∈ canonicalItems vs) : ∃ w, v = canonical w := by
  induction vs with
  | nil => cases h
  | cons w vs ih =>
    rcases List.mem_cons.mp h with rfl | h
    · exact ⟨w, rfl⟩
    · exact ih h

theorem canonical_of_members {names : List String} {least : Nat} {member : String → Option Json}
    {w : Json} (h : v.canonical.members names least = some member) (hw : member key = some w) :
    ∃ v', w = canonical v' := by
  cases v with
  | obj fields =>
    obtain rfl := Option.some.inj h
    obtain ⟨before, after, hfields, -⟩ := List.lookup_eq_some_iff.mp hw
    have found : (key, w) ∈ sortFields (canonicalFields fields) := by simp [hfields]
    exact mem_canonicalFields (mem_sortFields found)
  | arr items =>
    rw [canonical, members] at h
    split at h
    · obtain rfl := Option.some.inj h
      obtain ⟨before, after, hitems, -⟩ := List.lookup_eq_some_iff.mp hw
      have found : (key, w) ∈ names.zip (canonicalItems items) := by simp [hitems]
      exact mem_canonicalItems (List.of_mem_zip found).2
    · cases h
  | null | bool | int | float | str => cases h

end fields

mutual

theorem isPlain_canonical (v : Json) (hnarrow : v.isNarrow = true)
    (hwhole : (canonical v).isWhole = true) : (canonical v).isPlain = true := by
  match v with
  | .null | .bool _ | .str _ => rfl
  | .int n => exact hnarrow
  | .float x => cases hwhole
  | .arr items =>
    rw [isNarrow, all, Bool.and_eq_true] at hnarrow
    rw [canonical, isWhole, all, Bool.and_eq_true] at hwhole
    rw [canonical, isPlain]
    exact arePlain_canonicalItems items hnarrow.2 hwhole.2
  | .obj fields =>
    rw [isNarrow, all, Bool.and_eq_true] at hnarrow
    rw [canonical, isWhole, all, Bool.and_eq_true] at hwhole
    rw [canonical, isPlain, Bool.and_eq_true, decide_eq_true_eq]
    refine ⟨ascending_sortFields _, havePlain_iff.mpr fun f hf => ?_⟩
    exact isPlain_canonicalFields fields hnarrow.2 f (mem_sortFields hf)
      (allFields_iff.mp hwhole.2 f hf)

theorem arePlain_canonicalItems (vs : List Json) (hnarrow : allItems ofWidth vs = true)
    (hwhole : allItems notFraction (canonicalItems vs) = true) :
    arePlain (canonicalItems vs) = true := by
  match vs with
  | [] => rfl
  | v :: vs =>
    rw [allItems, Bool.and_eq_true] at hnarrow
    rw [canonicalItems, allItems, Bool.and_eq_true] at hwhole
    rw [canonicalItems, arePlain, Bool.and_eq_true]
    exact ⟨isPlain_canonical v hnarrow.1 hwhole.1,
      arePlain_canonicalItems vs hnarrow.2 hwhole.2⟩

theorem isPlain_canonicalFields (fs : Fields) (hnarrow : allFields ofWidth fs = true)
    (f : String × Json) (hf : f ∈ canonicalFields fs) (hwhole : f.2.isWhole = true) :
    f.2.isPlain = true := by
  match fs with
  | [] => cases hf
  | (k, v) :: fs =>
    rw [allFields, Bool.and_eq_true] at hnarrow
    rcases List.mem_cons.mp hf with rfl | hf
    · exact isPlain_canonical v hnarrow.1 hwhole
    · exact isPlain_canonicalFields fs hnarrow.2 f hf hwhole

end

section parser

variable {v : Json} {cs rest : List Char}

theorem significand_le {acc : Nat} (h : acc ≤ Width.most64) (cs : List Char) :
    (significand acc cs).1 ≤ Width.most64 := by
  induction cs generalizing acc with
  | nil => exact h
  | cons c cs ih =>
    rw [significand]
    split
    · next hle => exact ih hle
    · exact h

theorem isNarrow_numeral {n : Numeral} (h : n.value = some v) : v.isNarrow = true := by
  have hle := significand_le (Nat.zero_le Width.most64) n.whole
  unfold Numeral.value at h
  simp only at h
  split at h
  · split at h
    · split at h
      · split at h
        · cases h
          rfl
        · next hsmall =>
          cases h
          simp only [Bool.or_eq_true, decide_eq_true_eq, not_or] at hsmall
          simp only [isNarrow, all, ofWidth, Bool.and_eq_true, decide_eq_true_eq]
          omega
      · cases h
        have hleast : Width.least64 ≤ 0 := by decide
        simp only [isNarrow, all, ofWidth, Bool.and_eq_true, decide_eq_true_eq]
        omega
    · obtain ⟨x, -, rfl⟩ := Option.map_eq_some_iff.mp h
      rfl
  · split at h
    · obtain ⟨x, -, rfl⟩ := Option.map_eq_some_iff.mp h
      rfl
    · split at h
      · split at h
        · cases h
        · cases h
          rfl
      · obtain ⟨x, -, rfl⟩ := Option.map_eq_some_iff.mp h
        rfl

theorem of_bind_reading {α β : Type} {x : Reading α} {f : α → Reading β} {b : β}
    (h : x >>= f = .ok b) : ∃ a, x = .ok a ∧ f a = .ok b := by
  cases x with
  | error e => cases h
  | ok a => exact ⟨a, rfl, h⟩

theorem isNarrow_number (h : number cs = .ok (v, rest)) : v.isNarrow = true := by
  obtain ⟨⟨n, more⟩, -, h⟩ := of_bind_reading h
  simp only at h
  split at h
  · next hn =>
    cases h
    exact isNarrow_numeral hn
  · cases h

theorem literal_eq_ok {w : Json} {ls : List Char} (h : literal w ls cs = .ok (v, rest)) :
    v = w := by
  induction ls generalizing cs with
  | nil =>
    cases h
    rfl
  | cons l ls ih =>
    cases cs with
    | nil => cases h
    | cons c cs =>
      rw [literal] at h
      split at h
      · exact ih h
      · cases h

/-- Whatever is read has numbers of 64 bits only. -/
structure ReadsNarrow (fuel : Nat) : Prop where
  value : ∀ d cs v rest, value d fuel cs = .ok (v, rest) → v.isNarrow = true
  items : ∀ d cs vs rest, items d fuel cs = .ok (vs, rest) → allItems ofWidth vs = true
  fields : ∀ d cs fs rest, fields d fuel cs = .ok (fs, rest) → allFields ofWidth fs = true

theorem isNarrow_value {d fuel : Nat} (hinner : ReadsNarrow fuel)
    (h : value d (fuel + 1) cs = .ok (v, rest)) : v.isNarrow = true := by
  rw [value] at h
  split at h
  · cases h
  · rw [literal_eq_ok h]
    rfl
  · rw [literal_eq_ok h]
    rfl
  · rw [literal_eq_ok h]
    rfl
  · obtain ⟨⟨s, more⟩, -, h⟩ := of_bind_reading h
    cases h
    rfl
  · split at h
    · cases h
    · split at h
      · cases h
      · cases h
        rfl
      · obtain ⟨⟨vs, more⟩, hvs, h⟩ := of_bind_reading h
        cases h
        simpa [isNarrow, all, ofWidth] using hinner.items _ _ _ _ hvs
  · split at h
    · cases h
    · split at h
      · cases h
      · cases h
        rfl
      · obtain ⟨⟨fs, more⟩, hfs, h⟩ := of_bind_reading h
        cases h
        simpa [isNarrow, all, ofWidth] using hinner.fields _ _ _ _ hfs
  · split at h
    · exact isNarrow_number h
    · cases h

theorem areNarrow_items {d fuel : Nat} {vs : List Json} (hinner : ReadsNarrow fuel)
    (h : items d (fuel + 1) cs = .ok (vs, rest)) : allItems ofWidth vs = true := by
  rw [items] at h
  obtain ⟨⟨v, more⟩, hv, h⟩ := of_bind_reading h
  have hhead := hinner.value _ _ _ _ hv
  simp only at h
  split at h
  · split at h
    · cases h
    · obtain ⟨⟨vs, more⟩, hvs, h⟩ := of_bind_reading h
      cases h
      rw [allItems, Bool.and_eq_true]
      exact ⟨hhead, hinner.items _ _ _ _ hvs⟩
  · cases h
    rw [allItems, Bool.and_eq_true]
    exact ⟨hhead, rfl⟩
  · cases h

theorem areNarrow_fields {d fuel : Nat} {fs : Fields} (hinner : ReadsNarrow fuel)
    (h : fields d (fuel + 1) cs = .ok (fs, rest)) : allFields ofWidth fs = true := by
  rw [fields] at h
  split at h
  · obtain ⟨⟨k, more⟩, -, h⟩ := of_bind_reading h
    obtain ⟨⟨_, more⟩, -, h⟩ := of_bind_reading h
    obtain ⟨⟨v, more⟩, hv, h⟩ := of_bind_reading h
    have hhead := hinner.value _ _ _ _ hv
    simp only at h
    split at h
    · split at h
      · cases h
      · obtain ⟨⟨fs, more⟩, hfs, h⟩ := of_bind_reading h
        cases h
        rw [allFields, Bool.and_eq_true]
        exact ⟨hhead, hinner.fields _ _ _ _ hfs⟩
    · cases h
      rw [allFields, Bool.and_eq_true]
      exact ⟨hhead, rfl⟩
    · cases h
  · cases h

theorem readsNarrow (fuel : Nat) : ReadsNarrow fuel := by
  induction fuel with
  | zero => constructor <;> exact fun _ _ _ _ h => nomatch h
  | succ fuel ih =>
    exact ⟨fun _ _ _ _ => isNarrow_value ih, fun _ _ _ _ => areNarrow_items ih,
      fun _ _ _ _ => areNarrow_fields ih⟩

theorem isNarrow_read {s : String} (h : read s = .ok v) : v.isNarrow = true := by
  unfold read at h
  cases hd : document s.toList with
  | error f =>
    rw [hd] at h
    cases h
  | ok w =>
    rw [hd] at h
    cases h
    obtain ⟨⟨u, rest⟩, hu, h⟩ := of_bind_reading hd
    simp only at h
    split at h
    · cases h
      exact (readsNarrow _).value _ _ _ _ hu
    · cases h

theorem isPlain_parse {s : String} (h : parse s = .ok v) (hwhole : v.isWhole = true) :
    v.isPlain = true := by
  unfold parse at h
  cases hr : read s with
  | error m =>
    rw [hr] at h
    cases h
  | ok w =>
    rw [hr] at h
    cases h
    exact isPlain_canonical w (isNarrow_read hr) hwhole

/-- A plain value is what its compact text is read as, if that is not too deep. -/
theorem parse_compact (hplain : v.isPlain = true) (hdepth : v.depth ≤ depthLimit) :
    parse (compact v) = .ok v := by
  have hread : value depthLimit (2 * (chars v).length + 2) (chars v) = .ok (v, []) := by
    have hv : value depthLimit (2 * (chars v).length + 2) (chars v ++ []) = .ok (v, []) :=
      value_chars v hplain hdepth (Nat.le_add_right _ 2) nofun
    rwa [List.append_nil] at hv
  unfold parse read document compact
  rw [String.toList_ofList, hread]
  exact congrArg Except.ok (canonical_of_isPlain v hplain)

end parser

end FleetDispatch.Json
