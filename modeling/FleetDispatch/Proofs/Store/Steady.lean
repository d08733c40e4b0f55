import FleetDispatch.Proofs.Store.Fault
import FleetDispatch.Proofs.Store.Legible

namespace FleetDispatch

def StoreError.IsForced (e : StoreError) : Prop :=
  e = .lockPoisoned ∨ ∃ op, e = .backend (.injected op)

theorem FaultPlan.ne_nil_of_count {op : StoreOperation} {plan later : FaultPlan}
    (h : plan.count op = (true, later)) : plan ≠ [] := by
  rintro rfl
  cases h

theorem FaultPlan.nil_of_count {op : StoreOperation} {plan later : FaultPlan} {strikes : Bool}
    (h : plan.count op = (strikes, later)) (hplan : plan = []) : later = [] := by
  subst hplan
  cases h
  rfl

variable {σ α β : Type}

/-- Work that goes through on some rows unless a planned failure strikes it. -/
def Work.Steady (w : Work σ α) (rows : σ) : Prop :=
  ∀ plan, (∃ a d, w ⟨rows, plan⟩ = .ok a d ∧ (plan = [] → d.plan = [])) ∨
    plan ≠ [] ∧ ∃ op d, w ⟨rows, plan⟩ = .error (.backend (.injected op)) d

namespace Work

variable {rows rows' : σ} {a : α}

theorem bind_error {w : Work σ α} {d d' : Draft σ} {e : StoreError} (h : w d = .error e d')
    (f : α → Work σ β) : (w >>= f) d = .error e d' := by
  change EStateM.bind w f d = _
  rw [EStateM.bind, h]

theorem steady_pure (a : α) (rows : σ) : Steady (pure a : Work σ α) rows :=
  fun plan => .inl ⟨a, ⟨rows, plan⟩, rfl, id⟩

theorem steady_attempt {op : StoreOperation} {script : Script σ α} {f : α → Work σ β}
    (h : script rows = .ok a rows') (rest : Steady (f a) rows') :
    Steady (attempt op script >>= f) rows := by
  intro plan
  change (∃ b d, EStateM.bind (attempt op script) f _ = .ok b d ∧ _) ∨
    _ ∧ ∃ op' d, EStateM.bind (attempt op script) f _ = .error _ d
  unfold EStateM.bind attempt
  cases hcount : plan.count op with
  | mk strikes later =>
    cases strikes with
    | true => exact .inr ⟨FaultPlan.ne_nil_of_count hcount, op, _, rfl⟩
    | false =>
      have hlater := FaultPlan.nil_of_count hcount
      simp only [h]
      refine (rest later).imp ?_ ?_
      · rintro ⟨b, d, hok, hplan⟩
        exact ⟨b, d, hok, fun hnil => hplan (hlater hnil)⟩
      · rintro ⟨hplan, hstruck⟩
        exact ⟨fun hnil => hplan (hlater hnil), hstruck⟩

end Work

namespace Store

variable {s : Store σ} {w : Work σ (Ending × α)}

theorem beginDraft_forced (s : Store σ) :
    (∃ d s', s.beginDraft = (.ok d, s') ∧ d.rows = s.rows ∧ s'.poisoned = s.poisoned ∧
      (s.plan = [] → d.plan = [])) ∨
    ¬ s.Calm ∧ ∃ e s', s.beginDraft = (.error e, s') ∧ e.IsForced := by
  unfold beginDraft
  cases hcount : s.plan.count .begin_ with
  | mk strikes plan =>
    cases strikes with
    | true =>
      exact .inr ⟨fun calm => FaultPlan.ne_nil_of_count hcount calm.plan, _, _, rfl,
        .inr ⟨.begin_, rfl⟩⟩
    | false =>
      cases hpoisoned : s.poisoned with
      | true =>
        refine .inr ⟨fun calm => ?_, .lockPoisoned, { s with plan }, ?_, .inl rfl⟩
        · rw [calm.poisoned] at hpoisoned
          cases hpoisoned
        · simp [hpoisoned]
      | false =>
        exact .inl ⟨⟨s.rows, plan⟩, { s with plan }, by simp [hpoisoned], rfl, hpoisoned,
          FaultPlan.nil_of_count hcount⟩

theorem endDraft_forced (ending : Ending) (d : Draft σ) (s : Store σ) :
    (∃ s', s.endDraft ending d = (.ok (), s') ∧ s'.poisoned = s.poisoned ∧
      (d.plan = [] → s'.plan = [])) ∨
    d.plan ≠ [] ∧ ∃ e s', s.endDraft ending d = (.error e, s') ∧ e.IsForced := by
  unfold endDraft
  cases ending with
  | drop => exact .inl ⟨_, rfl, rfl, id⟩
  | rollback | commit =>
    simp only
    split
    · next plan hcount =>
      exact .inr ⟨FaultPlan.ne_nil_of_count hcount, _, _, rfl, .inr ⟨_, rfl⟩⟩
    · next plan hcount => exact .inl ⟨_, rfl, rfl, FaultPlan.nil_of_count hcount⟩

theorem transact_steady (h : w.Steady s.rows) :
    (∃ a s', s.transact w = (.ok a, s') ∧ (s.Calm → s'.Calm)) ∨
    ¬ s.Calm ∧ ∃ e s', s.transact w = (.error e, s') ∧ e.IsForced := by
  unfold transact
  rcases beginDraft_forced s with
    ⟨⟨rows, plan⟩, s₁, hbegin, rfl, hpoisoned, hplan⟩ | ⟨hnot, e, s₁, hbegin, he⟩
  · simp only [hbegin]
    rcases h plan with ⟨⟨ending, a⟩, d', hok, hplan'⟩ | ⟨hne, op, d', herror⟩
    · simp only [hok]
      rcases endDraft_forced ending d' s₁ with
        ⟨s₂, hend, hpoisoned', hplan₂⟩ | ⟨hne, e, s₂, hend, he⟩
      · exact .inl ⟨a, s₂, by simp only [hend], fun calm => ⟨hplan₂ (hplan' (hplan calm.plan)),
          (hpoisoned'.trans hpoisoned).trans calm.poisoned⟩⟩
      · exact .inr ⟨fun calm => hne (hplan' (hplan calm.plan)), e, s₂, by simp only [hend], he⟩
    · simp only [herror]
      exact .inr ⟨fun calm => hne (hplan calm.plan), _, _, rfl, .inr ⟨op, rfl⟩⟩
  · exact .inr ⟨hnot, e, s₁, by simp only [hbegin], he⟩

theorem perform_steady {op : StoreOperation} {script : Script σ α} {rows : σ}
    (h : script s.rows = .ok a rows) : (∃ b s', s.perform op script = (.ok b, s')) ∨
      ¬ s.Calm ∧ ∃ e s', s.perform op script = (.error e, s') ∧ e.IsForced := by
  have hsteady : Work.Steady (Work.attempt op script >>= fun a => pure (Ending.commit, a)) s.rows :=
    Work.steady_attempt h (Work.steady_pure _ rows)
  exact (transact_steady hsteady).imp_left fun ⟨b, s', hran, _⟩ => ⟨b, s', hran⟩

theorem perform_refused {op : StoreOperation} {script : Script σ α} {rows : σ} {e : StoreError}
    (h : script s.rows = .error e rows) :
    ∃ f s', s.perform op script = (.error f, s') ∧ (f = e ∨ ¬ s.Calm ∧ f.IsForced) := by
  unfold perform transact
  rcases beginDraft_forced s with
    ⟨⟨rows', plan⟩, s₁, hbegin, rfl, -, hplan⟩ | ⟨hnot, f, s₁, hbegin, hf⟩
  · obtain ⟨f, d, hattempt, hf⟩ : ∃ f d, Work.attempt op script ⟨s.rows, plan⟩ = .error f d ∧
        (f = e ∨ ¬ s.Calm ∧ f.IsForced) := by
      unfold Work.attempt
      cases hcount : plan.count op with
      | mk strikes later =>
        cases strikes with
        | true =>
          exact ⟨_, _, rfl, .inr ⟨fun calm => FaultPlan.ne_nil_of_count hcount (hplan calm.plan),
            .inr ⟨op, rfl⟩⟩⟩
        | false =>
          simp only [h]
          exact ⟨_, _, rfl, .inl rfl⟩
    simp only [hbegin, Work.bind_error hattempt]
    exact ⟨f, _, rfl, hf⟩
  · simp only [hbegin]
    exact ⟨_, _, rfl, .inr ⟨hnot, hf⟩⟩

end Store

namespace Ledger

variable {l : Ledger} {e : EndpointId} {r : Record}

theorem pendingOf_of_record (h : l.WellFormed) (hr : r ∈ l.records) :
    ∃ p, l.pendingOf r = .ok p := by
  obtain ⟨a, ha⟩ := Option.isSome_iff_exists.mp (h.record_action (h.record?_of_mem hr))
  refine ⟨⟨r, a.name, a.scheduledAt⟩, ?_⟩
  rw [pendingOf, action_eq_ok.mpr ha]
  rfl

theorem pending_total (h : l.WellFormed) (e : EndpointId) : ∃ ps, l.pending e = .ok ps := by
  have hfound (rs : List Record) (hrs : ∀ r ∈ rs, r ∈ l.records) :
      ∃ ps, rs.mapM l.pendingOf = .ok ps := by
    induction rs with
    | nil => exact ⟨[], rfl⟩
    | cons r rs ih =>
      obtain ⟨p, hp⟩ := pendingOf_of_record h (hrs r List.mem_cons_self)
      obtain ⟨ps, hps⟩ := ih fun x hx => hrs x (List.mem_cons_of_mem r hx)
      exact ⟨p :: ps, by rw [List.mapM_cons, hp, hps]; rfl⟩
  obtain ⟨ps, hps⟩ := hfound (l.records.filter fun r => r.endpoint == e && r.status == .queued)
    fun r hr => (List.mem_filter.mp hr).1
  exact ⟨ps.mergeSort PendingRecord.before, by rw [pending, hps]; rfl⟩

theorem look_eq {α : Type} {f : Ledger → Except StoreError α} {a : α} (h : f l = .ok a) :
    look f l = .ok a l := by
  rw [look, h]

theorem save_of_record (h : (l.record? r.actionId r.endpoint).isSome) :
    save r l = .ok () (l.putRecord r) := by
  obtain ⟨old, hold⟩ := Option.isSome_iff_exists.mp h
  rw [record?] at hold
  rw [save, hold]
  rfl

end Ledger

end FleetDispatch
