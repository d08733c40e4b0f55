import FleetDispatch.Proofs.Store.Transaction
import Mathlib.Data.List.Forall2

namespace FleetDispatch

namespace FaultPlan

/-- Whether each failure that a plan has still to come is still to come in another plan: none of
them has struck in between. -/
def Spared (plan plan' : FaultPlan) : Prop :=
  List.Forall₂ (fun f g => g.1 = f.1 ∧ (0 < f.2 → 0 < g.2)) plan plan'

variable {plan plan' later : FaultPlan}

theorem Spared.refl (plan : FaultPlan) : plan.Spared plan :=
  List.forall₂_same.mpr fun _ _ => ⟨rfl, id⟩

theorem Spared.trans (h : plan.Spared plan') (h' : plan'.Spared later) : plan.Spared later := by
  unfold Spared at h h'
  induction h generalizing later with
  | nil => exact h'
  | cons hf _ ih =>
    cases h' with
    | cons hg hrest => exact .cons ⟨hg.1.trans hf.1, fun h => hg.2 (hf.2 h)⟩ (ih hrest)

theorem spared_count {op : StoreOperation} (h : plan.count op = (false, plan')) :
    plan.Spared plan' := by
  obtain ⟨hany, rfl⟩ := Prod.mk.inj h
  refine List.forall₂_map_right_iff.mpr (List.forall₂_same.mpr fun f hf => ?_)
  have hthis : (f.1 == op && f.2 == 1) = false :=
    Bool.eq_false_iff.mpr (List.any_eq_false.mp hany f hf)
  by_cases hop : f.1 = op
  · have hlast : f.2 ≠ 1 := by simpa [hop] using hthis
    rw [if_pos (beq_iff_eq.mpr hop)]
    exact ⟨rfl, fun h => by simp only; lia⟩
  · rw [if_neg (mt beq_iff_eq.mp hop)]
    exact ⟨rfl, id⟩

end FaultPlan

variable {σ α β : Type}

namespace Work

def Spares (w : Work σ α) : Prop :=
  ∀ d d' a, w d = .ok a d' → d.plan.Spared d'.plan

theorem spares_pure (a : α) : Spares (pure a : Work σ α) := by
  intro d d' b h
  cases h
  exact .refl _

theorem spares_throw (e : StoreError) : Spares (throw e : Work σ α) := by
  intro d d' b h
  cases h

theorem Spares.bind {w : Work σ α} {f : α → Work σ β} (hw : Spares w) (hf : ∀ a, Spares (f a)) :
    Spares (w >>= f) := by
  intro d d' b h
  change EStateM.bind w f d = _ at h
  unfold EStateM.bind at h
  split at h
  · next a mid hmid => exact (hw _ _ _ hmid).trans (hf a _ _ _ h)
  · cases h

theorem spares_attempt (op : StoreOperation) (script : Script σ α) :
    Spares (attempt op script) := by
  intro d d' a h
  unfold attempt at h
  split at h
  · cases h
  · next plan hcount =>
    split at h
    · cases h
      exact FaultPlan.spared_count hcount
    · cases h

theorem attempt_unplanned {op : StoreOperation} {script : Script σ α} {rows rows' : σ} {a : α}
    (h : script rows = .ok a rows') : attempt op script ⟨rows, []⟩ = .ok a ⟨rows', []⟩ := by
  unfold attempt
  simp only [FaultPlan.count, List.any_nil, List.map_nil, h]

end Work

namespace Store

variable {s s' : Store σ} {w : Work σ (Ending × α)} {a : α} {d : Draft σ}

theorem spared_beginDraft (h : s.beginDraft = (.ok d, s')) : s.plan.Spared d.plan := by
  unfold beginDraft at h
  split at h
  · cases h
  · next plan hcount =>
    split at h
    · cases h
    · cases h
      exact FaultPlan.spared_count hcount

theorem spared_endDraft {ending : Ending} (h : s.endDraft ending d = (.ok (), s')) :
    d.plan.Spared s'.plan := by
  unfold endDraft at h
  cases ending with
  | drop =>
    cases h
    exact .refl _
  | rollback | commit =>
    simp only at h
    split at h
    · cases h
    · next plan hcount =>
      cases h
      exact FaultPlan.spared_count hcount

theorem spared_transact (hw : w.Spares) (h : s.transact w = (.ok a, s')) :
    s.plan.Spared s'.plan := by
  unfold transact at h
  split at h
  · cases h
  · next d s₁ hbegin =>
    split at h
    · cases h
    · next ending x d' hwork =>
      split at h
      · cases h
      · next s₂ hend =>
        cases h
        exact (spared_beginDraft hbegin).trans ((hw _ _ _ hwork).trans (spared_endDraft hend))

/-- Nothing is planned to fail. -/
structure Calm (s : Store σ) : Prop where
  plan : s.plan = []
  poisoned : s.poisoned = false

theorem Calm.transact {ending : Ending} {rows : σ} (hs : s.Calm)
    (h : w ⟨s.rows, []⟩ = .ok (ending, a) ⟨rows, []⟩) :
    s.transact w = (.ok a, { s with rows := if ending = .commit then rows else s.rows }) := by
  obtain ⟨old, plan, poisoned⟩ := s
  obtain ⟨hplan, hpoisoned⟩ := hs
  simp only at hplan hpoisoned h
  subst hplan hpoisoned
  have hbegin : (⟨old, [], false⟩ : Store σ).beginDraft = (.ok ⟨old, []⟩, ⟨old, [], false⟩) := rfl
  refine transact_eq hbegin h ?_
  cases ending <;> rfl

theorem Calm.of_transact (hs : s.Calm) (h : s.transact w = (.ok a, s')) :
    ∃ ending d, w ⟨s.rows, []⟩ = .ok (ending, a) d := by
  obtain ⟨old, plan, poisoned⟩ := s
  obtain ⟨hplan, hpoisoned⟩ := hs
  simp only at hplan hpoisoned
  subst hplan hpoisoned
  have hbegin : (⟨old, [], false⟩ : Store σ).beginDraft = (.ok ⟨old, []⟩, ⟨old, [], false⟩) := rfl
  unfold Store.transact at h
  rw [hbegin] at h
  simp only at h
  split at h
  · cases h
  · next ending x d hw =>
    split at h
    · cases h
    · cases h
      exact ⟨ending, d, hw⟩

theorem Calm.perform {op : StoreOperation} {script : Script σ α} {rows : σ} (hs : s.Calm)
    (h : script s.rows = .ok a rows) : s.perform op script = (.ok a, { s with rows }) := by
  have hwork : (Work.attempt op script >>= fun a => pure (.commit, a) : Work σ (Ending × α))
      ⟨s.rows, []⟩ = .ok (.commit, a) ⟨rows, []⟩ := by
    change EStateM.bind _ _ _ = _
    unfold EStateM.bind
    rw [Work.attempt_unplanned h]
    rfl
  exact hs.transact hwork

end Store

end FleetDispatch
