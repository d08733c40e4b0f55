import FleetDispatch.Store.Basic

namespace FleetDispatch

variable {σ α β : Type}

namespace Work

/-- The work goes through from some rows to others and gives an answer. -/
def Yields (w : Work σ α) (rows : σ) (a : α) (rows' : σ) : Prop :=
  ∃ plan plan', w ⟨rows, plan⟩ = .ok a ⟨rows', plan'⟩

variable {rows rows' : σ} {a : α} {b : β}

theorem yields_pure {x : α} (h : Yields (pure x) rows a rows') : a = x ∧ rows' = rows := by
  obtain ⟨plan, plan', h⟩ := h
  cases h
  exact ⟨rfl, rfl⟩

theorem not_yields_throw {e : StoreError} : ¬ Yields (throw e : Work σ α) rows a rows' := by
  rintro ⟨plan, plan', h⟩
  cases h

theorem yields_bind {x : Work σ α} {f : α → Work σ β} (h : Yields (x >>= f) rows b rows') :
    ∃ a mid, Yields x rows a mid ∧ Yields (f a) mid b rows' := by
  obtain ⟨plan, plan', h⟩ := h
  change EStateM.bind x f _ = _ at h
  unfold EStateM.bind at h
  cases hx : x ⟨rows, plan⟩ with
  | ok a d =>
    rw [hx] at h
    exact ⟨a, d.rows, ⟨plan, d.plan, hx⟩, ⟨d.plan, plan', h⟩⟩
  | error e d =>
    rw [hx] at h
    cases h

theorem yields_attempt {op : StoreOperation} {script : Script σ α}
    (h : Yields (attempt op script) rows a rows') : script rows = .ok a rows' := by
  obtain ⟨plan, plan', h⟩ := h
  unfold attempt at h
  split at h
  · cases h
  · cases hs : script rows with
    | ok x r =>
      simp only [hs] at h
      cases h
      rfl
    | error e r =>
      simp only [hs] at h
      cases h

end Work

namespace Store

variable {s s' : Store σ} {d : Draft σ} {w : Work σ (Ending × α)} {a : α}

theorem rows_beginDraft (s : Store σ) : s.beginDraft.2.rows = s.rows := by
  unfold beginDraft
  split
  · rfl
  · split <;> rfl

theorem beginDraft_ok (h : s.beginDraft = (.ok d, s')) : d.rows = s.rows ∧ s'.rows = s.rows := by
  have hs := rows_beginDraft s
  rw [h] at hs
  refine ⟨?_, hs⟩
  unfold beginDraft at h
  split at h
  · cases h
  · split at h
    · cases h
    · cases h
      rfl

theorem rows_endDraft_ok {ending : Ending} (h : s.endDraft ending d = (.ok (), s')) :
    s'.rows = if ending = .commit then d.rows else s.rows := by
  unfold endDraft at h
  cases ending with
  | drop =>
    cases h
    rfl
  | rollback =>
    simp only at h
    split at h
    · cases h
    · cases h
      rfl
  | commit =>
    simp only at h
    split at h
    · cases h
    · cases h
      rfl

theorem rows_endDraft_error {ending : Ending} {e : StoreError}
    (h : s.endDraft ending d = (.error e, s')) : s'.rows = s.rows := by
  unfold endDraft at h
  cases ending with
  | drop => cases h
  | rollback | commit =>
    simp only at h
    split at h
    · cases h
      rfl
    · cases h

def commits (w : Work σ (Ending × α)) (s : Store σ) : Bool :=
  match s.beginDraft with
  | (.error _, _) => false
  | (.ok d, s) =>
    match w d with
    | .error _ _ => false
    | .ok (ending, _) d => ending == .commit && (s.endDraft ending d).1.isOk

theorem commits_eq {s₁ : Store σ} {d' : Draft σ} {ending : Ending}
    (hb : s.beginDraft = (.ok d, s₁)) (hw : w d = .ok (ending, a) d') :
    s.commits w = (ending == .commit && (s₁.endDraft ending d').1.isOk) := by
  unfold commits
  rw [hb]
  simp only [hw]

theorem transact_eq {s₁ : Store σ} {d' : Draft σ} {ending : Ending}
    (hb : s.beginDraft = (.ok d, s₁)) (hw : w d = .ok (ending, a) d')
    (he : s₁.endDraft ending d' = (.ok (), s')) : s.transact w = (.ok a, s') := by
  unfold transact
  rw [hb]
  simp only [hw, he]

theorem transact_ends (h : s.transact w = (.ok a, s')) :
    ∃ ending rows, w.Yields s.rows (ending, a) rows ∧
      s'.rows = (if ending = .commit then rows else s.rows) ∧
      s.commits w = (ending == .commit) := by
  unfold transact at h
  split at h
  · cases h
  · next d s₁ hb =>
    obtain ⟨hd, hs₁⟩ := beginDraft_ok hb
    split at h
    · cases h
    · next ending x d' hw =>
      split at h
      · cases h
      · next s₂ he =>
        cases h
        refine ⟨ending, d'.rows, ⟨d.plan, d'.plan, hd ▸ hw⟩, ?_, ?_⟩
        · rw [rows_endDraft_ok he, hs₁]
        · rw [commits_eq hb hw, he]
          exact Bool.and_true _

/-- A transaction that goes through ran on the committed rows. Its own rows are committed if it
ended that way. -/
theorem transact_ok (h : s.transact w = (.ok a, s')) :
    ∃ ending rows, w.Yields s.rows (ending, a) rows ∧
      s'.rows = if ending = .commit then rows else s.rows := by
  obtain ⟨ending, rows, hy, hrows, -⟩ := transact_ends h
  exact ⟨ending, rows, hy, hrows⟩

theorem perform_ok {op : StoreOperation} {script : Script σ α}
    (h : s.perform op script = (.ok a, s')) : script s.rows = .ok a s'.rows := by
  obtain ⟨ending, rows, hy, hrows⟩ := transact_ok h
  obtain ⟨b, mid, hscript, hr⟩ := Work.yields_bind hy
  obtain ⟨he, rfl⟩ := Work.yields_pure hr
  obtain ⟨rfl, rfl⟩ := Prod.mk.inj he
  rw [hrows, if_pos rfl]
  exact Work.yields_attempt hscript

theorem transact_of_commits (h : s.commits w = true) : ∃ a s', s.transact w = (.ok a, s') := by
  unfold commits at h
  split at h
  · cases h
  · next d s₁ hb =>
    split at h
    · cases h
    · next ending a d' hw =>
      cases hend : s₁.endDraft ending d' with
      | mk r s₂ =>
        cases r with
        | ok u => exact ⟨a, s₂, transact_eq hb hw hend⟩
        | error e => simp [hend, Except.isOk, Except.toBool] at h

theorem transact_error {e : StoreError} (h : s.transact w = (.error e, s')) :
    s'.rows = s.rows := by
  have hs := rows_beginDraft s
  unfold transact at h
  split at h
  · next hb =>
    cases h
    rwa [hb] at hs
  · next d s₁ hb =>
    rw [hb] at hs
    split at h
    · next e' d' hw =>
      cases h
      exact hs
    · next ending x d' hw =>
      split at h
      · next he =>
        cases h
        exact (rows_endDraft_error he).trans hs
      · cases h

end Store

end FleetDispatch
