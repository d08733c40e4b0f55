import FleetDispatch.Proofs.Dispatch.Lockstep
import FleetDispatch.Proofs.Dispatch.Service
import FleetDispatch.Proofs.Dispatch.Walk

namespace FleetDispatch.Cycle

section step

variable {σ χ : Type} [ActionRows σ] {policy : Policy} {wall : Instant} {channel : Channel χ}
  {r r' : Run σ χ}

def Run.commits (policy : Policy) (wall : Instant) (r : Run σ χ) : Bool :=
  (r.cycle.work? policy wall).any r.store.commits

theorem step_error {err : StoreError} (h : step policy wall channel r = (.error err, r')) :
    r'.channel = r.channel ∧ r'.store.rows = r.store.rows ∧ r.commits policy wall = false ∧
      r.cycle.stage ≠ .closed := by
  unfold step at h
  split at h
  · next work hw =>
    split at h
    · next e store ht =>
      cases h
      refine ⟨rfl, Store.transact_error ht, ?_, fun closed => ?_⟩
      · rw [Run.commits, hw, Option.any_some, ← Bool.not_eq_true]
        intro hcommits
        obtain ⟨a, s, hok⟩ := Store.transact_of_commits hcommits
        rw [hok] at ht
        cases ht
      · rw [work?, closed] at hw
        cases hw
    · cases h
  · split at h <;> cases h

theorem step_idle (h : step policy wall channel r = (.ok (), r'))
    (hcommits : r.commits policy wall = false) : r'.store.rows = r.store.rows := by
  unfold step at h
  split at h
  · next work hw =>
    split at h
    · cases h
    · next c store ht =>
      cases h
      rw [Run.commits, hw, Option.any_some] at hcommits
      obtain ⟨ending, rows, -, hrows, hending⟩ := Store.transact_ends ht
      rw [hcommits] at hending
      rw [hrows, if_neg (by simpa using hending.symm)]
  · split at h <;> cases h <;> rfl

theorem step_spared (h : step policy wall channel r = (.ok (), r')) :
    r.store.plan.Spared r'.store.plan := by
  unfold step at h
  split at h
  · next work hw =>
    split at h
    · cases h
    · next c store ht =>
      cases h
      exact Store.spared_transact (serves_work? trivial hw).spares ht
  · split at h <;> cases h <;> exact .refl _

end step

section course

variable {σ χ : Type} [ActionRows σ] {policy : Policy} {channel : Channel χ}
  {clock : Nat → Instant} {n : Nat} {r₀ r r' : Run σ χ} {err : StoreError}

theorem driveAt_succ (n : Nat) (clock : Nat → Instant) (r : Run σ χ) :
    driveAt policy channel (n + 1) clock r =
      match driveAt policy channel n clock r with
      | (.error e, q) => (.error e, q)
      | (.ok (), q) => step policy (clock n) channel q := by
  -- on the number of steps, of which the definition splits off the first and this one the last
  induction n generalizing clock r with
  | zero =>
    simp only [driveAt]
    split <;> simp_all
  | succ n ih =>
    rw [driveAt]
    split
    · next e q hstep => simp only [driveAt, hstep]
    · next q hstep =>
      rw [ih]
      simp only [driveAt, hstep]

theorem driveAt_succ_ok :
    driveAt policy channel (n + 1) clock r₀ = (.ok (), r') ↔
      ∃ r, driveAt policy channel n clock r₀ = (.ok (), r) ∧
        step policy (clock n) channel r = (.ok (), r') := by
  rw [driveAt_succ]
  split
  · next e q h => simp [h]
  · next q h => simp [h]

theorem driveAt_error :
    driveAt policy channel n clock r₀ = (.error err, r') ↔
      ∃ i < n, ∃ r, driveAt policy channel i clock r₀ = (.ok (), r) ∧
        step policy (clock i) channel r = (.error err, r') := by
  -- on the number of steps: the last one fails, or one of those before it
  induction n with
  | zero => simp [driveAt]
  | succ n ih =>
    rw [driveAt_succ]
    constructor
    · intro h
      split at h
      · next e q hdrive =>
        obtain ⟨rfl, rfl⟩ := Prod.mk.inj h |>.imp Except.error.inj id
        obtain ⟨i, hi, hfails⟩ := ih.mp hdrive
        exact ⟨i, Nat.lt_succ_of_lt hi, hfails⟩
      · next q hdrive => exact ⟨n, Nat.lt_succ_self n, q, hdrive, h⟩
    · rintro ⟨i, hi, r, hdrive, hstep⟩
      rcases Nat.lt_succ_iff_lt_or_eq.mp hi with hlt | rfl
      · rw [ih.mpr ⟨i, hlt, r, hdrive, hstep⟩]
      · rw [hdrive]
        exact hstep

theorem driveAt_spared (h : driveAt policy channel n clock r₀ = (.ok (), r)) :
    r₀.store.plan.Spared r.store.plan := by
  induction n generalizing r with
  | zero =>
    cases h
    exact .refl _
  | succ n ih =>
    obtain ⟨q, hdrive, hstep⟩ := driveAt_succ_ok.mp h
    exact (ih hdrive).trans (step_spared hstep)

/-- Of the steps before the `n`-th the one before the `k`-th is the last that commits, or none of
them does and `k` is 0. -/
structure LastCommit (policy : Policy) (channel : Channel χ) (clock : Nat → Instant)
    (r₀ : Run σ χ) (n k : Nat) : Prop where
  within : k ≤ n
  commits : ∀ i r, k = i + 1 → driveAt policy channel i clock r₀ = (.ok (), r) →
    r.commits policy (clock i) = true
  last : ∀ i r, k ≤ i → i < n → driveAt policy channel i clock r₀ = (.ok (), r) →
    r.commits policy (clock i) = false

theorem LastCommit.next {k : Nat} (h : LastCommit policy channel clock r₀ n k)
    (hdrive : driveAt policy channel n clock r₀ = (.ok (), r))
    (hcommits : r.commits policy (clock n) = false) :
    LastCommit policy channel clock r₀ (n + 1) k where
  within := Nat.le_succ_of_le h.within
  commits := h.commits
  last i q hk hi hq := by
    rcases Nat.lt_succ_iff_lt_or_eq.mp hi with hlt | rfl
    · exact h.last i q hk hlt hq
    · rw [hdrive] at hq
      cases hq
      exact hcommits

theorem lastCommit_of_commits (hdrive : driveAt policy channel n clock r₀ = (.ok (), r))
    (hcommits : r.commits policy (clock n) = true) :
    LastCommit policy channel clock r₀ (n + 1) (n + 1) where
  within := Nat.le_refl _
  commits i q hi hq := by
    obtain rfl := Nat.succ.inj hi
    rw [hdrive] at hq
    cases hq
    exact hcommits
  last i q hk hi := absurd hi (Nat.not_lt.mpr hk)

theorem rows_lastCommit (h : driveAt policy channel n clock r₀ = (.ok (), r)) :
    ∃ k q, LastCommit policy channel clock r₀ n k ∧
      driveAt policy channel k clock r₀ = (.ok (), q) ∧ r.store.rows = q.store.rows := by
  -- on the number of steps: if the last one does not commit, it leaves the rows as they were
  induction n generalizing r with
  | zero =>
    exact ⟨0, r, ⟨Nat.le_refl _, fun _ _ hi _ => absurd hi.symm (Nat.succ_ne_zero _),
      fun _ _ _ hi => absurd hi (Nat.not_lt_zero _)⟩, h, rfl⟩
  | succ n ih =>
    obtain ⟨p, hdrive, hstep⟩ := driveAt_succ_ok.mp h
    cases hcommits : p.commits policy (clock n) with
    | true => exact ⟨n + 1, r, lastCommit_of_commits hdrive hcommits, h, rfl⟩
    | false =>
      obtain ⟨k, q, hlast, hq, hrows⟩ := ih hdrive
      exact ⟨k, q, hlast.next hdrive hcommits, hq, (step_idle hstep hcommits).trans hrows⟩

variable [Legible σ]

theorem driveAt_keeps {P : Cycle → Ledger → Prop}
    (keep : ∀ {wall c l c' l'}, Ledger.WellFormed l → P c l →
      Pace (Legible.keeping σ) policy wall c l c' l' → P c' l')
    (hs : Legible.Sound r₀.store.rows) (hP : P r₀.cycle (Legible.ledger r₀.store.rows))
    (h : driveAt policy channel n clock r₀ = (.ok (), r)) :
    Legible.Sound r.store.rows ∧ P r.cycle (Legible.ledger r.store.rows) := by
  induction n generalizing r with
  | zero =>
    cases h
    exact ⟨hs, hP⟩
  | succ n ih =>
    obtain ⟨q, hdrive, hstep⟩ := driveAt_succ_ok.mp h
    obtain ⟨hsq, hPq⟩ := ih hdrive
    obtain ⟨hsr, pace⟩ := pace_of_step hsq hstep
    exact ⟨hsr, keep (Legible.wellFormed hsq) hPq pace⟩

theorem sound_driveAt (hs : Legible.Sound r₀.store.rows)
    (h : driveAt policy channel n clock r₀ = (.ok (), r)) : Legible.Sound r.store.rows :=
  (driveAt_keeps (P := fun _ _ => True) (fun _ _ _ => trivial) hs trivial h).1

theorem driveAt_lt_togo (hs : Legible.Sound r₀.store.rows) (hc : r₀.cycle.stage ≠ .loading)
    (h : driveAt policy channel n clock r₀ = (.ok (), r)) (hopen : r.cycle.stage ≠ .closed) :
    n < r₀.cycle.togo := by
  have hsteps : r.cycle.stage ≠ .loading ∧
      (r.cycle.togo + n ≤ r₀.cycle.togo ∨ r.cycle.togo = 0) := by
    -- the steps that were made and those that are left are together what there was at first
    clear hopen
    induction n generalizing r with
    | zero =>
      cases h
      exact ⟨hc, .inl (Nat.le_refl _)⟩
    | succ n ih =>
      obtain ⟨q, hdrive, hstep⟩ := driveAt_succ_ok.mp h
      obtain ⟨hq, htogo⟩ := ih hdrive
      obtain ⟨-, pace⟩ := pace_of_step (sound_driveAt hs hdrive) hstep
      obtain ⟨hlt, hr⟩ := pace.togo_lt hq
      exact ⟨hr, by omega⟩
  have hpos : r.cycle.togo ≠ 0 := fun hzero => hopen (closed_of_togo hsteps.1 hzero)
  omega

end course

section run

variable {σ χ : Type} [ActionRows σ] [Legible σ] {policy : Policy} {channel : Channel χ}
  {clock : Nat → Instant} {e : EndpointId} {now : Instant} {s s' : Store σ} {memory memory' : χ}

omit [Legible σ] in
theorem driveAt_cons {r₀ r₁ : Run σ χ} (hfirst : step policy (clock 0) channel r₀ = (.ok (), r₁))
    (n : Nat) : driveAt policy channel (n + 1) clock r₀ =
      driveAt policy channel n (fun i => clock (i + 1)) r₁ := by
  rw [driveAt, hfirst]

theorem runAt_error {err : StoreError} (hs : Legible.Sound s.rows) :
    runAt policy channel clock e now s memory = (.error err, s', memory') ↔
      ∃ n r r', driveAt policy channel n clock ⟨start e now, s, memory⟩ = (.ok (), r) ∧
        step policy (clock n) channel r = (.error err, r') ∧ s' = r'.store ∧
        memory' = r'.channel := by
  unfold runAt
  -- the first step loads the backlog, and only from then on there is a bound for the others
  cases hfirst : step policy (clock 0) channel ⟨start e now, s, memory⟩ with
  | mk answer r₁ =>
    cases answer with
    | error err' =>
      constructor
      · intro h
        cases h
        exact ⟨0, _, r₁, rfl, hfirst, rfl, rfl⟩
      · rintro ⟨n, r, r', hdrive, hstep, rfl, rfl⟩
        cases n with
        | zero =>
          cases hdrive
          rw [hfirst] at hstep
          cases hstep
          rfl
        | succ n =>
          rw [driveAt, hfirst] at hdrive
          cases hdrive
    | ok u =>
      obtain ⟨hs₁, pace⟩ := pace_of_step hs hfirst
      obtain ⟨pending, -, hc, -⟩ := pace.first
      have hloaded : r₁.cycle.stage ≠ .loading := hc ▸ advance_stage_ne
      simp only
      constructor
      · intro h
        split at h
        · next err' r' hdrive =>
          cases h
          obtain ⟨i, -, r, hr, hstep⟩ := driveAt_error.mp hdrive
          exact ⟨i + 1, r, r', (driveAt_cons hfirst i).trans hr, hstep, rfl, rfl⟩
        · cases h
      · rintro ⟨n, r, r', hdrive, hstep, rfl, rfl⟩
        cases n with
        | zero =>
          cases hdrive
          rw [hfirst] at hstep
          cases hstep
        | succ n =>
          rw [driveAt_cons hfirst] at hdrive
          have hlt := driveAt_lt_togo hs₁ hloaded hdrive (step_error hstep).2.2.2
          have hbound := Nat.lt_of_lt_of_le hlt (togo_le_stepBound r₁.cycle)
          rw [driveAt_error.mpr ⟨n, hbound, r, hdrive, hstep⟩]

/-- What a cycle leaves behind, however it ends, is what some number of its steps has made. -/
theorem runAt_reaches {answer : Except StoreError Report} (hs : Legible.Sound s.rows)
    (h : runAt policy channel clock e now s memory = (answer, s', memory')) :
    ∃ n r, driveAt policy channel n clock ⟨start e now, s, memory⟩ = (.ok (), r) ∧
      s'.rows = r.store.rows := by
  cases answer with
  | error err =>
    obtain ⟨n, r, r', hdrive, hstep, rfl, -⟩ := (runAt_error hs).mp h
    exact ⟨n, r, hdrive, (step_error hstep).2.1⟩
  | ok report =>
    unfold runAt at h
    split at h
    · cases h
    · next r₁ hfirst =>
      split at h
      · cases h
      · next r₂ hdrive =>
        cases h
        exact ⟨_, r₂, (driveAt_cons hfirst _).trans hdrive, rfl⟩

omit [Legible σ] in
theorem runAt_spared {report : Report}
    (h : runAt policy channel clock e now s memory = (.ok report, s', memory')) :
    s.plan.Spared s'.plan := by
  unfold runAt at h
  split at h
  · cases h
  · next r₁ hfirst =>
    split at h
    · cases h
    · next r₂ hdrive =>
      cases h
      exact (step_spared hfirst).trans (driveAt_spared hdrive)

end run

end FleetDispatch.Cycle
