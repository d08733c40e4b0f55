import FleetDispatch.Proofs.Json.Parsed
import FleetDispatch.Proofs.Text.Utf8
import FleetDispatch.Proofs.Verdict
import FleetDispatch.Refresh

namespace FleetDispatch

namespace Json

variable {key : String} {v : Json} {f : String × Json} {fs m₁ m₂ : Fields}

theorem mem_insertField_self (key : String) (v : Json) (fs : Fields) :
    (key, v) ∈ insertField key v fs := by
  induction fs with
  | nil => exact List.mem_cons_self
  | cons g gs ih =>
    rw [insertField]
    split
    · exact List.mem_cons_self
    · split
      · exact List.mem_cons_self
      · exact List.mem_cons_of_mem _ ih

theorem mem_insertField_of_ne (v : Json) (hf : f ∈ fs) (hne : f.1 ≠ key) :
    f ∈ insertField key v fs := by
  induction fs with
  | nil => cases hf
  | cons g gs ih =>
    rw [insertField]
    split
    · exact List.mem_cons_of_mem _ hf
    · split
      · next heq =>
        rcases List.mem_cons.mp hf with rfl | hf
        · exact absurd heq.symm hne
        · exact List.mem_cons_of_mem _ hf
      · rcases List.mem_cons.mp hf with rfl | hf
        · exact List.mem_cons_self
        · exact List.mem_cons_of_mem _ (ih hf)

theorem mem_sortFields_iff (h : fs.Pairwise fun f g => f.1 ≠ g.1) :
    f ∈ sortFields fs ↔ f ∈ fs := by
  refine ⟨mem_sortFields, fun hf => ?_⟩
  -- a field already inserted is replaced only by one of its own name
  have hfold (acc : Fields) (hmem : f ∈ acc ∧ (∀ g ∈ fs, f.1 ≠ g.1) ∨ f ∈ fs) :
      f ∈ fs.foldl (fun acc g => insertField g.1 g.2 acc) acc := by
    clear hf
    induction fs generalizing acc with
    | nil => simpa using hmem
    | cons g gs ih =>
      obtain ⟨hg, hgs⟩ := List.pairwise_cons.mp h
      refine ih hgs _ ?_
      rcases hmem with ⟨hacc, hother⟩ | hmem
      · exact .inl ⟨mem_insertField_of_ne g.2 hacc (hother g List.mem_cons_self),
          fun x hx => hother x (List.mem_cons_of_mem g hx)⟩
      · rcases List.mem_cons.mp hmem with rfl | hmem
        · exact .inl ⟨mem_insertField_self _ _ _, hg⟩
        · exact .inr hmem
  exact hfold [] (.inr hf)

def merged (m₁ m₂ : Fields) : Fields :=
  sortFields (m₁ ++ m₂)

theorem mem_merged (h₁ : m₁.Pairwise fun f g => f.1 < g.1) (h₂ : m₂.Pairwise fun f g => f.1 < g.1)
    (disjoint : ∀ f ∈ m₁, ∀ g ∈ m₂, f.1 ≠ g.1) : f ∈ merged m₁ m₂ ↔ f ∈ m₁ ∨ f ∈ m₂ := by
  have hkeys : (m₁ ++ m₂).Pairwise fun f g => f.1 ≠ g.1 :=
    List.pairwise_append.mpr ⟨h₁.imp String.ne_of_lt, h₂.imp String.ne_of_lt, disjoint⟩
  rw [merged, mem_sortFields_iff hkeys, List.mem_append]

def Fails (entry : Json) : Prop :=
  entry.field? "result" ≠ some (.bool true)

theorem statesHold_iff : (Json.obj fs).StatesHold ↔ ∀ f ∈ fs, ¬f.2.Fails := by
  simp [StatesHold, Fails]

/-- An entry fails, and none does whose name is less in its octets. -/
structure IsFirstFailing (fs : Fields) (f : String × Json) : Prop where
  mem : f ∈ fs
  fails : f.2.Fails
  least : ∀ g ∈ fs, g.2.Fails → Octets.le (.ofString f.1) (.ofString g.1) = true

theorem IsFirstFailing.of_mem (h : IsFirstFailing m f) (hmem : f ∈ fs) (hsub : ∀ g ∈ fs, g ∈ m) :
    IsFirstFailing fs f :=
  ⟨hmem, h.fails, fun g hg => h.least g (hsub g hg)⟩

theorem exists_isFirstFailing (h : fs.Pairwise fun f g => f.1 < g.1)
    (hfails : ¬(Json.obj fs).StatesHold) : ∃ f, IsFirstFailing fs f := by
  rw [statesHold_iff] at hfails
  induction fs with
  | nil => exact absurd (fun f hf => nomatch hf) hfails
  | cons g gs ih =>
    obtain ⟨hg, hgs⟩ := List.pairwise_cons.mp h
    -- the names ascend, so the first that fails is also the least
    by_cases hfirst : g.2.Fails
    · refine ⟨g, List.mem_cons_self, hfirst, fun x hx _ => Octets.le_ofString_iff.mpr ?_⟩
      rcases List.mem_cons.mp hx with rfl | hx
      · exact le_refl _
      · exact le_of_lt (hg x hx)
    · have hrest : ¬∀ f ∈ gs, ¬f.2.Fails := fun hnone =>
        hfails (List.forall_mem_cons.mpr ⟨hfirst, hnone⟩)
      obtain ⟨f, hf⟩ := ih hgs hrest
      refine ⟨f, List.mem_cons_of_mem g hf.mem, hf.fails, fun x hx hx' => ?_⟩
      rcases List.mem_cons.mp hx with rfl | hx
      · exact absurd hx' hfirst
      · exact hf.least x hx hx'

end Json

namespace Verdict

variable {p : Procedure} {fs : Json.Fields} {f : String × Json}

theorem stateComment_of_fails (h : f.2.Fails) : ∃ comment, stateComment f.1 f.2 = some comment :=
  Option.ne_none_iff_exists'.mp (mt stateComment_eq_none.mp h)

theorem failingState_of_isFirstFailing (h : fs.Pairwise fun f g => f.1 < g.1)
    (hfirst : Json.IsFirstFailing fs f) : failingState (.obj fs) = stateComment f.1 f.2 := by
  change fs.findSome? (fun s => stateComment s.1 s.2) = _
  induction fs with
  | nil => cases hfirst.mem
  | cons g gs ih =>
    obtain ⟨hg, hgs⟩ := List.pairwise_cons.mp h
    rcases List.mem_cons.mp hfirst.mem with rfl | hf
    · obtain ⟨comment, hcomment⟩ := stateComment_of_fails hfirst.fails
      rw [List.findSome?_cons, hcomment]
    · have hless : ¬f.1 ≤ g.1 := String.not_le.mpr (hg f hf)
      have holds : ¬g.2.Fails := fun hfails =>
        hless (Octets.le_ofString_iff.mp (hfirst.least g List.mem_cons_self hfails))
      rw [List.findSome?_cons, stateComment_eq_none.mpr (not_not.mp holds)]
      exact ih hgs (hfirst.of_mem hf fun x => List.mem_cons_of_mem g)

/-- A verdict tells of a failing state before it tells anything else of what a call gave back. -/
theorem ofResult_eq_of_failure {r₁ r₂ : CallResult} {comment : String}
    (hcode : r₁.retcode = r₂.retcode) (h₁ : failureOf p r₁ = some comment)
    (h₂ : failureOf p r₂ = some comment) : ofResult p r₁ = ofResult p r₂ := by
  simp [ofResult, h₁, h₂, failureMessage, hcode]

theorem ofResult_eq_of_isFirstFailing {m : Json.Fields} (applied : p.isStateApply = true)
    (retcode : Int) (success : Bool) (hm : m.Pairwise fun f g => f.1 < g.1)
    (hfs : fs.Pairwise fun f g => f.1 < g.1) (hfirst : Json.IsFirstFailing m f) (hmem : f ∈ fs)
    (hsub : ∀ g ∈ fs, g ∈ m) :
    ofResult p ⟨retcode, success, .obj m⟩ = ofResult p ⟨retcode, success, .obj fs⟩ := by
  obtain ⟨comment, hcomment⟩ := stateComment_of_fails hfirst.fails
  have hm' : failureOf p ⟨retcode, success, .obj m⟩ = some comment := by
    rw [failureOf, if_pos applied, failingState_of_isFirstFailing hm hfirst, hcomment]
  have hfs' : failureOf p ⟨retcode, success, .obj fs⟩ = some comment := by
    rw [failureOf, if_pos applied,
      failingState_of_isFirstFailing hfs (hfirst.of_mem hmem hsub), hcomment]
  exact ofResult_eq_of_failure rfl hm' hfs'

theorem completed_obj_iff (applied : p.isStateApply = true) {retcode : Int} {success : Bool} :
    (ofResult p ⟨retcode, success, .obj fs⟩).status = .completed ↔
      (success = true ∧ retcode = 0) ∧ ∀ f ∈ fs, ¬f.2.Fails := by
  rw [completed_iff, failureOf, if_pos applied, failingState_eq_none, Json.statesHold_iff]
  rfl

end Verdict

theorem Classifier.withFunctions_obj {p : Procedure} {extra : List String} {retcode : Int}
    {success : Bool} {fs : Json.Fields} (applied : p.isStateApply = true)
    (hother : p.function ∉ packageFunctions ++ extra) :
    withFunctions extra p ⟨retcode, success, .obj fs⟩ = true ↔
      ∃ f ∈ fs, changesPackages f.1 f.2 = true := by
  rw [withFunctions, if_neg (by simpa using hother), if_pos applied, statesChangePackages,
    List.any_eq_true]

/-- States combine entry by entry: what two sets of them come to when they are applied together
is told from what each comes to, and of the failures the one that is least by name is reported. -/
theorem states_combine (p : Procedure)
    (applied : p.function = "state.apply" ∨ p.function = "state.highstate")
    (retcode : Int) (success : Bool) (extra : List String) {m₁ m₂ : Json.Fields}
    (h₁ : m₁.Pairwise fun f g => f.1 < g.1) (h₂ : m₂.Pairwise fun f g => f.1 < g.1)
    (disjoint : ∀ f ∈ m₁, ∀ g ∈ m₂, f.1 ≠ g.1) :
    let m := Json.merged m₁ m₂
    let verdict := fun fs => Verdict.ofResult p ⟨retcode, success, .obj fs⟩
    let stale := fun fs => Classifier.withFunctions extra p ⟨retcode, success, .obj fs⟩
    (m.Pairwise (fun f g => f.1 < g.1) ∧ ∀ f, f ∈ m ↔ f ∈ m₁ ∨ f ∈ m₂) ∧
      ((verdict m).status = .completed ↔
        (verdict m₁).status = .completed ∧ (verdict m₂).status = .completed) ∧
      (success = true → retcode = 0 → (verdict m).status = .failed →
        ∃ f, Json.IsFirstFailing m f ∧
          (f ∈ m₁ → verdict m = verdict m₁) ∧ (f ∈ m₂ → verdict m = verdict m₂)) ∧
      (p.function ∉ Classifier.packageFunctions ++ extra →
        (stale m = true ↔ stale m₁ = true ∨ stale m₂ = true)) := by
  intro m verdict stale
  have happlied : p.isStateApply = true := by
    simpa [Procedure.isStateApply] using applied
  have hm : m.Pairwise fun f g => f.1 < g.1 := Json.ascending_sortFields _
  have hmem (f : String × Json) : f ∈ m ↔ f ∈ m₁ ∨ f ∈ m₂ := Json.mem_merged h₁ h₂ disjoint
  refine ⟨⟨hm, hmem⟩, ?_, fun hsuccess hcode hfailed => ?_, fun hother => ?_⟩
  · simp only [verdict, Verdict.completed_obj_iff happlied, hmem]
    grind
  · have hnot : ¬(verdict m).status = .completed := by rw [hfailed]; decide
    rw [Verdict.completed_obj_iff happlied, ← Json.statesHold_iff] at hnot
    obtain ⟨f, hf⟩ := Json.exists_isFirstFailing hm fun hholds => hnot ⟨⟨hsuccess, hcode⟩, hholds⟩
    exact ⟨f, hf,
      fun hf₁ => Verdict.ofResult_eq_of_isFirstFailing happlied retcode success hm h₁ hf hf₁
        fun g hg => (hmem g).mpr (.inl hg),
      fun hf₂ => Verdict.ofResult_eq_of_isFirstFailing happlied retcode success hm h₂ hf hf₂
        fun g hg => (hmem g).mpr (.inr hg)⟩
  · simp only [stale, Classifier.withFunctions_obj happlied hother, hmem]
    grind

def installed : Json.Fields :=
  [("pkg_|-nginx", .obj [("changes", .obj [("nginx", .str "1.26")]), ("result", .bool true)])]

def broken : Json.Fields :=
  [("file_|-straße", .int 3),
    ("service_|-nginx", .obj [("comment", .str ""), ("result", .str "true")])]

theorem installed_combine_broken :
    let p : Procedure := ⟨"state.apply", [.str "web"], []⟩
    let verdict := fun fs => Verdict.ofResult p ⟨0, true, .obj fs⟩
    let stale := fun fs => Classifier.withFunctions ["npm.install"] p ⟨0, true, .obj fs⟩
    (verdict installed).status = .completed ∧ (verdict broken).status = .failed ∧
      verdict (Json.merged installed broken) = verdict broken ∧
      stale (Json.merged installed broken) = true := by
  intro p verdict stale
  have hinstalled : installed.Pairwise fun f g => f.1 < g.1 := by decide
  have hbroken : broken.Pairwise fun f g => f.1 < g.1 := by decide
  have disjoint : ∀ f ∈ installed, ∀ g ∈ broken, f.1 ≠ g.1 := by decide
  obtain ⟨⟨-, hmem⟩, -, hreport, hstale⟩ :=
    states_combine p (.inl rfl) 0 true ["npm.install"] hinstalled hbroken disjoint
  have hfailed : (verdict (Json.merged installed broken)).status = .failed := rfl
  obtain ⟨f, hfirst, -, hverdict⟩ := hreport rfl rfl hfailed
  have hf : f ∈ broken := by
    refine ((hmem f).mp hfirst.mem).resolve_left fun hf => hfirst.fails ?_
    obtain rfl := List.mem_singleton.mp hf
    rfl
  exact ⟨rfl, rfl, hverdict hf, (hstale (by decide)).mpr (.inl rfl)⟩

end FleetDispatch
