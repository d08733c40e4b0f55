import FleetDispatch.Proofs.Json.Stored

namespace FleetDispatch

namespace Json

section parser

variable {d fuel : Nat} {cs rest : List Char} {v : Json} {k : String} {f : Fault}

theorem value_list_error {c : Char} (h : Opens c) (hitems : items d fuel (c :: cs) = .error f) :
    value (d + 1) (fuel + 1) ('[' :: c :: cs) = .error f := by
  rw [value_list h, hitems]
  rfl

theorem value_object_error (hfields : fields d fuel (quoted k ++ cs) = .error f) :
    value (d + 1) (fuel + 1) ('\x7b' :: quoted k ++ cs) = .error f := by
  rw [value_object, hfields]
  rfl

theorem items_error (h : value d fuel cs = .error f) : items d (fuel + 1) cs = .error f := by
  rw [items, h]
  rfl

theorem fields_error (h : value d fuel cs = .error f) :
    fields d (fuel + 1) (quoted k ++ ':' :: cs) = .error f := by
  have hs := string_quoted k (':' :: cs)
  rw [quoted, List.append_assoc, List.cons_append, fields, skipSpace_cons (by decide)]
  change (string (k.toList.flatMap escapeChar ++ '"' :: ':' :: cs) >>= _ : Reading _) = _
  rw [hs]
  change (value d fuel cs >>= _ : Reading _) = _
  rw [h]
  rfl

end parser

mutual

theorem value_deep (v : Json) {d fuel : Nat} {rest : List Char} (hplain : v.isPlain = true)
    (hdepth : d < v.depth) (hfuel : 2 * (chars v).length ≤ fuel) :
    ∃ f, value d fuel (chars v ++ rest) = .error f := by
  match v with
  | .null | .bool _ | .int _ | .float _ | .str _ => exact absurd hdepth (Nat.not_lt_zero d)
  | .arr [] =>
    obtain rfl : d = 0 := by simpa [depth, depthOfItems] using hdepth
    obtain ⟨fuel, rfl⟩ : ∃ n, fuel = n + 1 := ⟨fuel - 1, by simp [chars] at hfuel; omega⟩
    exact ⟨_, rfl⟩
  | .arr (v :: vs) =>
    rw [isPlain, arePlain, Bool.and_eq_true] at hplain
    rw [depth] at hdepth
    simp only [chars, List.length_cons, List.length_append] at hfuel
    obtain ⟨fuel, rfl⟩ : ∃ n, fuel = n + 2 := ⟨fuel - 2, by omega⟩
    obtain ⟨c, cs, hc, hopens⟩ := opens_chars hplain.1
    have htext : chars (.arr (v :: vs)) ++ rest =
        '[' :: c :: (cs ++ (moreItems vs ++ rest)) := by
      rw [chars, hc]
      simp only [List.cons_append, List.append_assoc]
    rw [htext]
    cases d with
    | zero => exact ⟨_, rfl⟩
    | succ d =>
      -- the first item need not be the deep one: `items_deep` takes this case as a hypothesis
      have hv : d < v.depth →
          ∃ f, value d fuel (chars v ++ (moreItems vs ++ rest)) = .error f :=
        fun hv => value_deep v hplain.1 hv (by omega)
      obtain ⟨f, hitems⟩ := items_deep vs v hv hplain.1 hplain.2 (by omega) (by omega)
      rw [hc, List.cons_append] at hitems
      exact ⟨f, value_list_error hopens hitems⟩
  | .obj [] =>
    obtain rfl : d = 0 := by simpa [depth, depthOfFields] using hdepth
    obtain ⟨fuel, rfl⟩ : ∃ n, fuel = n + 1 := ⟨fuel - 1, by simp [chars] at hfuel; omega⟩
    exact ⟨_, rfl⟩
  | .obj ((k, v) :: fs) =>
    rw [isPlain, havePlain, Bool.and_eq_true, Bool.and_eq_true] at hplain
    rw [depth] at hdepth
    simp only [chars, List.length_cons, List.length_append] at hfuel
    obtain ⟨fuel, rfl⟩ : ∃ n, fuel = n + 2 := ⟨fuel - 2, by omega⟩
    have htext : chars (.obj ((k, v) :: fs)) ++ rest =
        '\x7b' :: quoted k ++ ':' :: (chars v ++ (moreFields fs ++ rest)) := by
      simp only [chars, List.cons_append, List.append_assoc]
    rw [htext]
    cases d with
    | zero => exact ⟨_, rfl⟩
    | succ d =>
      have hv : d < v.depth →
          ∃ f, value d fuel (chars v ++ (moreFields fs ++ rest)) = .error f :=
        fun hv => value_deep v hplain.2.1 hv (by omega)
      obtain ⟨f, hfields⟩ := fields_deep fs k v hv hplain.2.1 hplain.2.2 (by omega) (by omega)
      exact ⟨f, value_object_error hfields⟩

theorem items_deep (vs : List Json) (v : Json) {d fuel : Nat} {rest : List Char}
    (hv : d < v.depth → ∃ f, value d fuel (chars v ++ (moreItems vs ++ rest)) = .error f)
    (hhead : v.isPlain = true) (hplain : arePlain vs = true)
    (hdepth : d < depthOfItems (v :: vs))
    (hfuel : 2 * ((chars v).length + (moreItems vs).length) ≤ fuel) :
    ∃ f, items d (fuel + 1) (chars v ++ (moreItems vs ++ rest)) = .error f := by
  by_cases hlast : d < v.depth
  · obtain ⟨f, h⟩ := hv hlast
    exact ⟨f, items_error h⟩
  match vs with
  | [] => exact absurd hdepth (by simp [depthOfItems]; omega)
  | w :: ws =>
    rw [arePlain, Bool.and_eq_true] at hplain
    rw [depthOfItems] at hdepth
    simp only [moreItems, List.length_cons, List.length_append] at hfuel
    obtain ⟨fuel, rfl⟩ : ∃ n, fuel = n + 1 := ⟨fuel - 1, by omega⟩
    obtain ⟨c, cs, hc, hopens⟩ := opens_chars hplain.1
    have hread : value d (fuel + 1) (chars v ++ (moreItems (w :: ws) ++ rest)) =
        .ok (v, moreItems (w :: ws) ++ rest) :=
      value_chars v hhead (by omega) (by omega) (closes_moreItems (w :: ws) rest)
    have hw : d < w.depth → ∃ f, value d fuel (chars w ++ (moreItems ws ++ rest)) = .error f :=
      fun hw => value_deep w hplain.1 hw (by omega)
    obtain ⟨f, hitems⟩ := items_deep ws w hw hplain.1 hplain.2 (by omega) (by omega)
    have hnext : moreItems (w :: ws) ++ rest = ',' :: c :: (cs ++ (moreItems ws ++ rest)) := by
      rw [moreItems, hc]
      simp only [List.cons_append, List.append_assoc]
    rw [hc, List.cons_append] at hitems
    rw [hnext] at hread ⊢
    rw [items_next hopens hread, hitems]
    exact ⟨f, rfl⟩

theorem fields_deep (fs : Fields) (k : String) (v : Json) {d fuel : Nat} {rest : List Char}
    (hv : d < v.depth → ∃ f, value d fuel (chars v ++ (moreFields fs ++ rest)) = .error f)
    (hhead : v.isPlain = true) (hplain : havePlain fs = true)
    (hdepth : d < depthOfFields ((k, v) :: fs))
    (hfuel : 2 * ((chars v).length + (moreFields fs).length) ≤ fuel) :
    ∃ f, fields d (fuel + 1) (quoted k ++ ':' :: (chars v ++ (moreFields fs ++ rest))) =
      .error f := by
  by_cases hlast : d < v.depth
  · obtain ⟨f, h⟩ := hv hlast
    exact ⟨f, fields_error h⟩
  match fs with
  | [] => exact absurd hdepth (by simp [depthOfFields]; omega)
  | (j, w) :: gs =>
    rw [havePlain, Bool.and_eq_true] at hplain
    rw [depthOfFields] at hdepth
    simp only [moreFields, List.length_cons, List.length_append] at hfuel
    obtain ⟨fuel, rfl⟩ : ∃ n, fuel = n + 1 := ⟨fuel - 1, by omega⟩
    have hread : value d (fuel + 1) (chars v ++ (moreFields ((j, w) :: gs) ++ rest)) =
        .ok (v, moreFields ((j, w) :: gs) ++ rest) :=
      value_chars v hhead (by omega) (by omega) (closes_moreFields ((j, w) :: gs) rest)
    have hw : d < w.depth → ∃ f, value d fuel (chars w ++ (moreFields gs ++ rest)) = .error f :=
      fun hw => value_deep w hplain.1 hw (by omega)
    obtain ⟨f, hfields⟩ := fields_deep gs j w hw hplain.1 hplain.2 (by omega) (by omega)
    have hnext : moreFields ((j, w) :: gs) ++ rest =
        ',' :: quoted j ++ ':' :: (chars w ++ (moreFields gs ++ rest)) := by
      simp only [moreFields, List.cons_append, List.append_assoc]
    rw [hnext] at hread ⊢
    rw [fields_next hread, hfields]
    exact ⟨f, rfl⟩

end

section names

variable {names : List String} {k : String} {v : Json} {fuel : Nat} {cs rest : List Char}
  {f : Fault}

theorem namedFields_error (hk : names.contains k = true)
    (hv : value (depthLimit - 1) (2 * cs.length + 2) cs = .error f) :
    namedFields names (fuel + 1) (quoted k ++ ':' :: cs) = .error f := by
  have hs := string_quoted k (':' :: cs)
  rw [quoted, List.append_assoc, List.cons_append, namedFields, skipSpace_cons (by decide)]
  change (string (k.toList.flatMap escapeChar ++ '"' :: ':' :: cs) >>= _ : Reading _) = _
  rw [hs]
  change (if names.contains k = true then
    ((value (depthLimit - 1) (2 * cs.length + 2) cs).map _ >>= _ : Reading _) else _) = _
  rw [if_pos hk, hv]
  rfl

theorem namedFields_deep (fs : Fields) (k : String) (v : Json) (rest : List Char)
    (hnames : ∀ f ∈ (k, v) :: fs, names.contains f.1 = true)
    (hplain : havePlain ((k, v) :: fs) = true)
    (hdepth : depthLimit - 1 < depthOfFields ((k, v) :: fs)) (hfuel : fs.length < fuel) :
    ∃ f, namedFields names fuel (quoted k ++ ':' :: (chars v ++ (moreFields fs ++ rest))) =
      .error f := by
  induction fs generalizing k v fuel with
  | nil =>
    obtain ⟨fuel, rfl⟩ : ∃ n, fuel = n + 1 := ⟨fuel - 1, by omega⟩
    rw [havePlain, Bool.and_eq_true] at hplain
    rw [depthOfFields] at hdepth
    have hdeep : depthLimit - 1 < v.depth := by simpa [depthOfFields] using hdepth
    have hlen : 2 * (chars v).length ≤ 2 * (chars v ++ (moreFields [] ++ rest)).length + 2 := by
      rw [List.length_append]
      omega
    obtain ⟨f, hv⟩ := value_deep v hplain.1 hdeep hlen
    exact ⟨f, namedFields_error (hnames _ List.mem_cons_self) hv⟩
  | cons g fs ih =>
    obtain ⟨fuel, rfl⟩ : ∃ n, fuel = n + 1 := ⟨fuel - 1, by omega⟩
    obtain ⟨j, w⟩ := g
    rw [havePlain, Bool.and_eq_true] at hplain
    rw [List.length_cons] at hfuel
    -- the reading stops at the first field that is too deep
    by_cases hdeep : depthLimit - 1 < v.depth
    · have hlen : 2 * (chars v).length ≤
          2 * (chars v ++ (moreFields ((j, w) :: fs) ++ rest)).length + 2 := by
        rw [List.length_append]
        omega
      obtain ⟨f, hv⟩ := value_deep v hplain.1 hdeep hlen
      exact ⟨f, namedFields_error (hnames _ List.mem_cons_self) hv⟩
    · have hv := value_moreFields ((j, w) :: fs) rest hplain.1 (by omega)
      rw [depthOfFields] at hdepth
      have hrest : ∃ f, namedFields names fuel
          (quoted j ++ ':' :: (chars w ++ (moreFields fs ++ rest))) = .error f :=
        ih j w (fun g hg => hnames g (List.mem_cons_of_mem _ hg)) hplain.2 (by omega) (by omega)
      obtain ⟨f, hrest⟩ := hrest
      have hnext : moreFields ((j, w) :: fs) ++ rest =
          ',' :: quoted j ++ ':' :: (chars w ++ (moreFields fs ++ rest)) := by
        simp only [moreFields, List.cons_append, List.append_assoc]
      rw [hnext] at hv ⊢
      rw [namedFields_next (hnames _ List.mem_cons_self) hv, hrest]
      exact ⟨f, rfl⟩

theorem namedDocument_error (h : namedFields names (cs.length + 2) ('"' :: cs) = .error f) :
    namedDocument names ('\x7b' :: '"' :: cs) = .error f := by
  unfold namedDocument
  rw [skipSpace_cons (by decide)]
  change (namedFields names (cs.length + 2) ('"' :: cs) >>= _ : Reading _) = _
  rw [h]
  rfl

theorem readNamed_compact_deep {g : String × Json} {fs : Fields}
    (hnames : ∀ h ∈ g :: fs, names.contains h.1 = true) (hplain : havePlain (g :: fs) = true)
    (hdepth : depthLimit < (Json.obj (g :: fs)).depth) :
    ∃ m, readNamed names (compact (.obj (g :: fs))) = .error m := by
  obtain ⟨k, v⟩ := g
  rw [depth] at hdepth
  have hlimit : depthLimit = 127 := rfl
  obtain ⟨cs, htext, hinner, hfuel⟩ := toList_compact_object k v fs
  obtain ⟨f, hread⟩ := namedFields_deep fs k v [] hnames hplain (by omega) hfuel
  rw [← hinner] at hread
  unfold readNamed
  rw [htext, namedDocument_error hread]
  exact ⟨_, rfl⟩

end names

end Json

namespace Procedure

variable {p : Procedure}

theorem ofText_toText_deep (hplain : p.toJson.isPlain = true)
    (hdepth : Json.depthLimit < p.toJson.depth) : ∃ m, ofText p.toText = .error (some m) := by
  have hfields : Json.depthLimit < (Json.obj [("function", .str p.function),
      ("args", .arr p.args), ("kwargs", .obj p.kwargs)]).depth := by
    simp only [toJson, Json.depth, Json.depthOfFields] at hdepth ⊢
    omega
  have hnames : ∀ h ∈ [("function", Json.str p.function), ("args", .arr p.args),
      ("kwargs", .obj p.kwargs)], memberNames.contains h.1 = true := by
    simp [memberNames]
  obtain ⟨m, hm⟩ := Json.readNamed_compact_deep hnames (havePlain_members hplain) hfields
  refine ⟨m, ?_⟩
  unfold ofText toText
  rw [hm]

/-- The lists and objects of its arguments stand inside two more, those of the stored text. -/
theorem depth_toJson (p : Procedure) : p.toJson.depth =
    max (Json.depthOfItems p.args) (Json.depthOfFields p.kwargs) + 2 := by
  simp only [toJson, Json.depth, Json.depthOfFields]
  omega

end Procedure

end FleetDispatch
