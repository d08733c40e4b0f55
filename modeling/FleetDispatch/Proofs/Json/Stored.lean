import FleetDispatch.Procedure
import FleetDispatch.Proofs.Json.Parsed
import FleetDispatch.Proofs.Json.RoundTrip

namespace FleetDispatch

namespace Json

variable {names : List String} {k : String} {v : Json} {fuel : Nat} {cs rest : List Char}

theorem namedFields_last (hk : names.contains k = true)
    (hv : value (depthLimit - 1) (2 * cs.length + 2) cs = .ok (v, '\x7d' :: rest)) :
    namedFields names (fuel + 1) (quoted k ++ ':' :: cs) = .ok ([(k, v)], rest) := by
  have hs := string_quoted k (':' :: cs)
  rw [quoted, List.append_assoc, List.cons_append, namedFields, skipSpace_cons (by decide)]
  change (string (k.toList.flatMap escapeChar ++ '"' :: ':' :: cs) >>= _ : Reading _) = _
  rw [hs]
  change (if names.contains k = true then
    ((value (depthLimit - 1) (2 * cs.length + 2) cs).map _ >>= _ : Reading _) else _) = _
  rw [if_pos hk, hv]
  rfl

theorem namedFields_next {j : String} {next : List Char} (hk : names.contains k = true)
    (hv : value (depthLimit - 1) (2 * cs.length + 2) cs = .ok (v, ',' :: quoted j ++ next)) :
    namedFields names (fuel + 1) (quoted k ++ ':' :: cs) =
      (namedFields names fuel (quoted j ++ next)).map fun r => ((k, v) :: r.1, r.2) := by
  have hs := string_quoted k (':' :: cs)
  rw [quoted, List.append_assoc, List.cons_append, namedFields, skipSpace_cons (by decide)]
  change (string (k.toList.flatMap escapeChar ++ '"' :: ':' :: cs) >>= _ : Reading _) = _
  rw [hs]
  change (if names.contains k = true then
    ((value (depthLimit - 1) (2 * cs.length + 2) cs).map _ >>= _ : Reading _) else _) = _
  rw [if_pos hk, hv]
  change (namedFields names fuel (quoted j ++ next) >>= _ : Reading _) = _
  cases namedFields names fuel (quoted j ++ next) <;> rfl

theorem value_moreFields (fs : Fields) (rest : List Char) (hplain : v.isPlain = true)
    (hdepth : v.depth ≤ depthLimit - 1) :
    value (depthLimit - 1) (2 * (chars v ++ (moreFields fs ++ rest)).length + 2)
      (chars v ++ (moreFields fs ++ rest)) = .ok (v, moreFields fs ++ rest) :=
  value_chars v hplain hdepth (by rw [List.length_append]; omega) (closes_moreFields fs rest)

theorem namedFields_chars (fs : Fields) (k : String) (v : Json) (rest : List Char)
    (hnames : ∀ f ∈ (k, v) :: fs, names.contains f.1 = true)
    (hplain : havePlain ((k, v) :: fs) = true)
    (hdepth : depthOfFields ((k, v) :: fs) ≤ depthLimit - 1) (hfuel : fs.length < fuel) :
    namedFields names fuel (quoted k ++ ':' :: (chars v ++ (moreFields fs ++ rest))) =
      .ok ((k, v) :: fs, rest) := by
  induction fs generalizing k v fuel with
  | nil =>
    obtain ⟨fuel, rfl⟩ : ∃ n, fuel = n + 1 := ⟨fuel - 1, by omega⟩
    rw [havePlain, Bool.and_eq_true] at hplain
    rw [depthOfFields] at hdepth
    exact namedFields_last (hnames _ List.mem_cons_self)
      (value_moreFields [] rest hplain.1 (by omega))
  | cons f fs ih =>
    obtain ⟨fuel, rfl⟩ : ∃ n, fuel = n + 1 := ⟨fuel - 1, by omega⟩
    obtain ⟨j, w⟩ := f
    rw [havePlain, Bool.and_eq_true] at hplain
    rw [depthOfFields] at hdepth
    rw [List.length_cons] at hfuel
    have hv := value_moreFields ((j, w) :: fs) rest hplain.1 (by omega)
    have hrest : namedFields names fuel (quoted j ++ ':' :: (chars w ++ (moreFields fs ++ rest))) =
        .ok ((j, w) :: fs, rest) :=
      ih j w (fun f hf => hnames f (List.mem_cons_of_mem _ hf)) hplain.2 (by omega) (by omega)
    have hnext : moreFields ((j, w) :: fs) ++ rest =
        ',' :: quoted j ++ ':' :: (chars w ++ (moreFields fs ++ rest)) := by
      simp only [moreFields, List.cons_append, List.append_assoc]
    rw [hnext] at hv ⊢
    rw [namedFields_next (hnames _ List.mem_cons_self) hv, hrest]
    rfl

theorem namedDocument_object {fs : Fields}
    (h : namedFields names (cs.length + 2) ('"' :: cs) = .ok (fs, [])) :
    namedDocument names ('\x7b' :: '"' :: cs) = .ok (.obj fs) := by
  unfold namedDocument
  rw [skipSpace_cons (by decide)]
  change (namedFields names (cs.length + 2) ('"' :: cs) >>= _ : Reading _) = _
  rw [h]
  rfl

theorem length_le_moreFields (fs : Fields) : fs.length ≤ (moreFields fs).length := by
  induction fs with
  | nil => exact Nat.zero_le _
  | cons g gs ih =>
    simp only [moreFields, List.length_cons, List.length_append]
    omega

theorem toList_compact_object (k : String) (v : Json) (fs : Fields) :
    ∃ cs, (compact (.obj ((k, v) :: fs))).toList = '\x7b' :: '"' :: cs ∧
      '"' :: cs = quoted k ++ ':' :: (chars v ++ (moreFields fs ++ [])) ∧
      fs.length < cs.length + 2 := by
  refine ⟨k.toList.flatMap escapeChar ++ '"' :: ':' :: (chars v ++ moreFields fs), ?_, ?_, ?_⟩
  · simp only [compact, String.toList_ofList, chars, quoted, List.cons_append, List.append_assoc,
      List.nil_append]
  · simp only [quoted, List.append_nil, List.cons_append, List.append_assoc, List.nil_append]
  · have hfs := length_le_moreFields fs
    simp only [List.length_cons, List.length_append]
    omega

theorem readNamed_compact {f : String × Json} {fs : Fields}
    (hnames : ∀ g ∈ f :: fs, names.contains g.1 = true)
    (hplain : havePlain (f :: fs) = true) (hdepth : (Json.obj (f :: fs)).depth ≤ depthLimit) :
    readNamed names (compact (.obj (f :: fs))) = .ok (.obj (f :: fs)) := by
  obtain ⟨k, v⟩ := f
  rw [depth] at hdepth
  obtain ⟨cs, htext, hinner, hfuel⟩ := toList_compact_object k v fs
  have hread : namedFields names (cs.length + 2) ('"' :: cs) = .ok ((k, v) :: fs, []) := by
    rw [hinner]
    exact namedFields_chars fs k v [] hnames hplain (by omega) hfuel
  unfold readNamed
  rw [htext, namedDocument_object hread]
  rfl

end Json

namespace Procedure

/-- Whether a procedure reads back from the text under which it is stored: it is plain, and not
deeper than the reader goes. -/
def isStorable (p : Procedure) : Bool :=
  p.toJson.isPlain && p.toJson.depth ≤ Json.depthLimit

theorem havePlain_members {p : Procedure} (h : p.toJson.isPlain = true) :
    Json.havePlain [("function", .str p.function), ("args", .arr p.args),
      ("kwargs", .obj p.kwargs)] = true := by
  rw [toJson, Json.isPlain, Bool.and_eq_true] at h
  simpa [Json.havePlain, Json.isPlain] using h.2

theorem ofText_toText {p : Procedure} (h : p.isStorable = true) : ofText p.toText = .ok p := by
  obtain ⟨function, args, kwargs⟩ := p
  rw [isStorable, Bool.and_eq_true, decide_eq_true_eq] at h
  obtain ⟨hplain, hdepth⟩ := h
  have hfields := havePlain_members hplain
  rw [toJson] at hdepth
  have hread : Json.readNamed memberNames (toText ⟨function, args, kwargs⟩) =
      .ok (.obj [("function", .str function), ("args", .arr args), ("kwargs", .obj kwargs)]) := by
    refine Json.readNamed_compact (by simp [memberNames]) hfields ?_
    simp only [Json.depth, Json.depthOfFields] at hdepth ⊢
    omega
  have hargs : "args" < "function" := by decide
  have hkwargs : ¬ "kwargs" < "args" ∧ ¬ "kwargs" < "function" := by decide
  have hsorted : Json.canonical (.obj [("function", .str function), ("args", .arr args),
      ("kwargs", .obj kwargs)]) =
      .obj [("args", .arr args), ("function", .str function), ("kwargs", .obj kwargs)] := by
    rw [Json.canonical, Json.canonicalFields_of_havePlain _ hfields]
    simp [Json.sortFields, Json.insertField, hargs, hkwargs.1, hkwargs.2]
  unfold ofText
  rw [hread]
  simp [hsorted, Json.distinctMembers, memberNames, ofJson?, Json.members, Json.required,
    Json.defaulted, Json.str?, Json.arr?, Json.obj?, List.lookup_cons]

theorem ascending_kwargs {v : Json} {p : Procedure} (h : ofJson? v.canonical = some p) :
    p.kwargs.Pairwise fun f g => f.1 < g.1 := by
  rw [ofJson?, Option.bind_eq_bind, Option.bind_eq_some_iff] at h
  obtain ⟨member, members, h⟩ := h
  simp only [Option.bind_eq_bind, Option.bind_eq_some_iff] at h
  obtain ⟨function, -, args, -, kwargs, found, h⟩ := h
  obtain rfl := Option.some.inj h
  cases hw : member "kwargs" with
  | none =>
    rw [hw] at found
    obtain rfl := Option.some.inj found
    exact .nil
  | some w =>
    rw [hw] at found
    obtain ⟨v', rfl⟩ := Json.canonical_of_members members hw
    cases v' with
    | obj fields =>
      obtain rfl := Option.some.inj found
      exact Json.ascending_sortFields _
    | null | bool | int | float | str | arr => cases found

end Procedure

end FleetDispatch
