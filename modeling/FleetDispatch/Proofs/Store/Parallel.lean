import FleetDispatch.Store.Basic

namespace FleetDispatch

variable {ε σ τ α β γ δ : Type}

/-- Two answers that go with one another: values that are related, or one error. -/
inductive Agree (R : α → β → Prop) : Except ε α → Except ε β → Prop where
  | ok {a : α} {b : β} (h : R a b) : Agree R (.ok a) (.ok b)
  | error (e : ε) : Agree R (.error e) (.error e)

theorem eq_of_agree {x y : Except ε α} (h : Agree Eq x y) : y = x := by
  cases h with
  | ok h => rw [h]
  | error e => rfl

inductive Accord (M : σ → τ → Prop) (R : α → β → Prop) :
    EStateM.Result ε σ α → EStateM.Result ε τ β → Prop where
  | ok {a : α} {b : β} {s : σ} {t : τ} (h : R a b) (hm : M s t) : Accord M R (.ok a s) (.ok b t)
  | error {s : σ} {t : τ} (e : ε) (hm : M s t) : Accord M R (.error e s) (.error e t)

/-- Two programs whose results go with one another from all related states. -/
def Parallel (M : σ → τ → Prop) (R : α → β → Prop) (p : EStateM ε σ α)
    (q : EStateM ε τ β) : Prop :=
  ∀ s t, M s t → Accord M R (p s) (q t)

namespace Parallel

variable {M : σ → τ → Prop} {R S : α → β → Prop} {T : γ → δ → Prop}
variable {p : EStateM ε σ α} {q : EStateM ε τ β}

theorem pure {a : α} {b : β} (h : R a b) :
    Parallel M R (Pure.pure a : EStateM ε σ α) (Pure.pure b : EStateM ε τ β) :=
  fun _ _ hm => .ok h hm

theorem throw (e : ε) :
    Parallel M R (MonadExcept.throw e : EStateM ε σ α)
      (MonadExcept.throw e : EStateM ε τ β) :=
  fun _ _ hm => .error e hm

theorem bind {f : α → EStateM ε σ γ} {g : β → EStateM ε τ δ}
    (h : Parallel M R p q) (hfg : ∀ a b, R a b → Parallel M T (f a) (g b)) :
    Parallel M T (p >>= f) (q >>= g) := by
  intro s t hm
  have hpq := h s t hm
  change Accord M T (EStateM.bind p f s) (EStateM.bind q g t)
  unfold EStateM.bind
  generalize p s = x at hpq
  generalize q t = y at hpq
  cases hpq with
  | ok hab hm => exact hfg _ _ hab _ _ hm
  | error e hm => exact .error e hm

end Parallel

structure Draft.Related (M : σ → τ → Prop) (d : Draft σ) (e : Draft τ) : Prop where
  rows : M d.rows e.rows
  plan : e.plan = d.plan

structure Store.Related (M : σ → τ → Prop) (s : Store σ) (t : Store τ) : Prop where
  rows : M s.rows t.rows
  plan : t.plan = s.plan
  poisoned : t.poisoned = s.poisoned

variable {M : σ → τ → Prop} {R : α → β → Prop} {s : Store σ} {t : Store τ}

theorem Parallel.attempt {p : Script σ α} {q : Script τ β} (op : StoreOperation)
    (h : Parallel M R p q) :
    Parallel (Draft.Related M) R (Work.attempt op p) (Work.attempt op q) := by
  intro d e hm
  have hpq := h d.rows e.rows hm.rows
  unfold Work.attempt
  rw [hm.plan]
  generalize p d.rows = x at hpq
  generalize q e.rows = y at hpq
  cases d.plan.count op with
  | mk fails plan =>
    cases fails with
    | true => exact .error _ ⟨hm.rows, rfl⟩
    | false =>
      cases hpq with
      | ok hab hm => exact .ok hab ⟨hm, rfl⟩
      | error e hm => exact .error e ⟨hm, rfl⟩

namespace Store

theorem Related.beginDraft (h : Related M s t) :
    Agree (Draft.Related M) s.beginDraft.1 t.beginDraft.1 ∧
      Related M s.beginDraft.2 t.beginDraft.2 := by
  unfold Store.beginDraft
  rw [h.plan, h.poisoned]
  cases s.plan.count .begin_ with
  | mk fails plan =>
    cases fails with
    | true => exact ⟨.error _, h.rows, rfl, rfl⟩
    | false =>
      cases hp : s.poisoned with
      | true => exact ⟨.error _, h.rows, rfl, rfl⟩
      | false => exact ⟨.ok ⟨h.rows, rfl⟩, h.rows, rfl, rfl⟩

theorem Related.endDraft {d : Draft σ} {e : Draft τ} (ending : Ending) (h : Related M s t)
    (hd : Draft.Related M d e) :
    (t.endDraft ending e).1 = (s.endDraft ending d).1 ∧
      Related M (s.endDraft ending d).2 (t.endDraft ending e).2 := by
  unfold Store.endDraft
  rw [hd.plan]
  cases ending with
  | drop => exact ⟨rfl, h.rows, rfl, h.poisoned⟩
  | rollback =>
    cases d.plan.count .rollback with
    | mk fails plan => cases fails <;> exact ⟨rfl, h.rows, rfl, h.poisoned⟩
  | commit =>
    cases d.plan.count .commit with
    | mk fails plan =>
      cases fails with
      | true => exact ⟨rfl, h.rows, rfl, h.poisoned⟩
      | false => exact ⟨rfl, hd.rows, rfl, h.poisoned⟩

def Ended (R : α → β → Prop) (x : Ending × α) (y : Ending × β) : Prop :=
  y.1 = x.1 ∧ R x.2 y.2

/-- Transactions that go along with one another do so when they are run on related stores. -/
theorem Related.transact {p : Work σ (Ending × α)} {q : Work τ (Ending × β)}
    (h : Related M s t) (hpq : Parallel (Draft.Related M) (Ended R) p q) :
    Agree R (s.transact p).1 (t.transact q).1 ∧
      Related M (s.transact p).2 (t.transact q).2 := by
  have hbegin := h.beginDraft
  unfold Store.transact
  generalize s.beginDraft = x at hbegin
  generalize t.beginDraft = y at hbegin
  obtain ⟨d, s⟩ := x
  obtain ⟨e, t⟩ := y
  obtain ⟨hde, hst⟩ := hbegin
  cases hde with
  | error e => exact ⟨.error e, hst⟩
  | @ok d e hde =>
    have hwork := hpq d e hde
    simp only
    generalize p d = x at hwork
    generalize q e = y at hwork
    cases hwork with
    | error e hm => exact ⟨.error e, (hst.endDraft .drop hm).2⟩
    | @ok a b d e hab hm =>
      obtain ⟨_, a⟩ := a
      obtain ⟨ending, b⟩ := b
      obtain ⟨rfl, hab⟩ := hab
      have hend := hst.endDraft ending hm
      simp only
      generalize Store.endDraft ending d _ = x at hend
      generalize Store.endDraft ending e _ = y at hend
      obtain ⟨_, s⟩ := x
      obtain ⟨ended, t⟩ := y
      obtain ⟨rfl, hst⟩ := hend
      cases ended with
      | error e => exact ⟨.error e, hst⟩
      | ok u => exact ⟨.ok hab, hst⟩

theorem Related.perform {p : Script σ α} {q : Script τ β} (op : StoreOperation)
    (h : Related M s t) (hpq : Parallel M R p q) :
    Agree R (s.perform op p).1 (t.perform op q).1 ∧
      Related M (s.perform op p).2 (t.perform op q).2 :=
  h.transact (.bind (.attempt op hpq) fun _ _ hab => .pure ⟨rfl, hab⟩)

end Store

end FleetDispatch
