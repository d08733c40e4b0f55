import FleetDispatch.Proofs.Dispatch.Course

namespace FleetDispatch.Cycle

section noting

variable {σ χ : Type} [ActionRows σ] (policy : Policy) (channel : Channel χ)

/-- The channel with a note of the calls that are made over it, the latest at the end. -/
def Channel.noting : Channel (χ × List (EndpointId × Call)) where
  invoke e p := fun (memory, calls) =>
    let (reply, memory) := channel.invoke e p memory
    (reply, memory, calls ++ [(e, .invoke p)])
  ping e := fun (memory, calls) =>
    let (reply, memory) := channel.ping e memory
    (reply, memory, calls ++ [(e, .ping)])

def Run.unnoted (r : Run σ (χ × List (EndpointId × Call))) : Run σ χ :=
  { r with channel := r.channel.1 }

theorem step_noting (wall : Instant) (r : Run σ (χ × List (EndpointId × Call))) :
    step policy wall channel r.unnoted =
      ((step policy wall channel.noting r).1, (step policy wall channel.noting r).2.unnoted) := by
  unfold step
  simp only [Run.unnoted]
  cases (r.cycle.work? policy wall : Option (Work σ (Ending × Cycle))) with
  | some work =>
    simp only
    split <;> rfl
  | none =>
    simp only
    split <;> rfl

theorem driveAt_noting (clock : Nat → Instant) (n : Nat)
    (r : Run σ (χ × List (EndpointId × Call))) :
    driveAt policy channel n clock r.unnoted =
      ((driveAt policy channel.noting n clock r).1,
        (driveAt policy channel.noting n clock r).2.unnoted) := by
  induction n generalizing clock r with
  | zero => rfl
  | succ n ih =>
    simp only [driveAt, step_noting policy channel]
    cases step policy (clock 0) channel.noting r with
    | mk answer r =>
      cases answer with
      | error e => rfl
      | ok u => exact ih (fun i => clock (i + 1)) r

theorem runAt_noting (clock : Nat → Instant) (e : EndpointId) (now : Instant) (s : Store σ)
    (memory : χ) (calls : List (EndpointId × Call)) :
    runAt policy channel clock e now s memory =
      ((runAt policy channel.noting clock e now s (memory, calls)).1,
        (runAt policy channel.noting clock e now s (memory, calls)).2.1,
        (runAt policy channel.noting clock e now s (memory, calls)).2.2.1) := by
  unfold runAt
  rw [show (⟨start e now, s, memory⟩ : Run σ χ) = Run.unnoted ⟨start e now, s, memory, calls⟩
    from rfl, step_noting policy channel]
  cases step policy (clock 0) channel.noting ⟨start e now, s, memory, calls⟩ with
  | mk answer r =>
    cases answer with
    | error e => rfl
    | ok u =>
      have hdrive := driveAt_noting policy channel (fun i => clock (i + 1)) r.cycle.stepBound r
      simp only [Run.unnoted] at hdrive ⊢
      rw [hdrive]
      cases driveAt policy channel.noting r.cycle.stepBound (fun i => clock (i + 1)) r with
      | mk answer r => cases answer <;> rfl

variable {policy channel}

theorem runAt_noted {clock : Nat → Instant} {e : EndpointId} {now : Instant} {s s' : Store σ}
    {memory memory' : χ} {answer : Except StoreError Report}
    (h : runAt policy channel clock e now s memory = (answer, s', memory')) :
    ∃ calls, runAt policy channel.noting clock e now s (memory, []) =
      (answer, s', memory', calls) := by
  have hnoting := runAt_noting policy channel clock e now s memory []
  rw [h] at hnoting
  obtain ⟨hanswer, hrest⟩ := Prod.mk.inj hnoting
  obtain ⟨hstore, hmemory⟩ := Prod.mk.inj hrest
  exact ⟨_, Prod.ext hanswer.symm (Prod.ext hstore.symm (Prod.ext hmemory.symm rfl))⟩

theorem calls_of_step {wall : Instant} {r r' : Run σ (χ × List (EndpointId × Call))}
    (h : step policy wall channel.noting r = (.ok (), r')) :
    r'.channel.2 =
      r.channel.2 ++ r.cycle.pendingCall.toList.map fun call => (r.cycle.endpoint, call) := by
  unfold step at h
  split at h
  · next work hw =>
    have hnone : r.cycle.pendingCall = none := by
      unfold work? at hw
      unfold pendingCall
      split at hw <;> simp_all
    split at h
    · cases h
    · cases h
      simp [hnone]
  · split at h
    · next hcall =>
      cases h
      rw [hcall]
      rfl
    · next hcall =>
      cases h
      rw [hcall]
      rfl
    · next hcall =>
      cases h
      simp [hcall]

end noting

section reaching

variable {σ χ : Type} [ActionRows σ] [Legible σ] {policy : Policy} {channel : Channel χ}
  {clock : Nat → Instant} {e : EndpointId} {now : Instant} {s s' : Store σ} {memory memory' : χ}
  {report : Report}

theorem driveAt_holds {P : Run σ χ → Prop}
    (keep : ∀ {wall r r'}, Legible.Sound r.store.rows → P r →
      step policy wall channel r = (.ok (), r') → P r')
    {n : Nat} {r r' : Run σ χ} (hs : Legible.Sound r.store.rows) (hP : P r)
    (h : driveAt policy channel n clock r = (.ok (), r')) :
    Legible.Sound r'.store.rows ∧ P r' := by
  induction n generalizing r' with
  | zero =>
    cases h
    exact ⟨hs, hP⟩
  | succ n ih =>
    obtain ⟨q, hdrive, hstep⟩ := driveAt_succ_ok.mp h
    obtain ⟨hsq, hPq⟩ := ih hdrive
    exact ⟨(pace_of_step hsq hstep).1, keep hsq hPq hstep⟩

/-- What each step keeps from the loading of the backlog on is so at the end of a cycle that goes
through, and the end is reached. -/
theorem runAt_ok {P : Run σ χ → Prop}
    (loaded : ∀ {wall r}, step policy wall channel ⟨start e now, s, memory⟩ = (.ok (), r) → P r)
    (keep : ∀ {wall r r'}, Legible.Sound r.store.rows → P r →
      step policy wall channel r = (.ok (), r') → P r')
    (hs : Legible.Sound s.rows)
    (h : runAt policy channel clock e now s memory = (.ok report, s', memory')) :
    ∃ r, P r ∧ Legible.Sound r.store.rows ∧ r.cycle.stage = .closed ∧ r.cycle.report = report ∧
      r.store = s' ∧ r.channel = memory' := by
  unfold runAt at h
  split at h
  · cases h
  · next r₁ hfirst =>
    split at h
    · cases h
    · next r₂ hdrive =>
      cases h
      obtain ⟨hs₁, pace⟩ := pace_of_step hs hfirst
      obtain ⟨pending, -, hc, -⟩ := pace.first
      obtain ⟨hs₂, hP⟩ := driveAt_holds keep hs₁ (loaded hfirst) hdrive
      refine ⟨r₂, hP, hs₂, ?_, rfl, rfl, rfl⟩
      by_contra hopen
      have hlt := driveAt_lt_togo hs₁ (hc ▸ advance_stage_ne) hdrive hopen
      exact absurd (togo_le_stepBound r₁.cycle) (Nat.not_le.mpr hlt)

theorem runAt_keeps {P : Cycle → Ledger → Prop}
    (loaded : ∀ {pending}, (Legible.ledger s.rows).pending e = .ok pending →
      P { start e now with backlog := .ofPending pending }.advance (Legible.ledger s.rows))
    (keep : ∀ {wall c l c' l'}, Ledger.WellFormed l → Ledger.WellFormed l' → P c l →
      Pace (Legible.keeping σ) policy wall c l c' l' → P c' l')
    (hs : Legible.Sound s.rows)
    (h : runAt policy channel clock e now s memory = (.ok report, s', memory')) :
    Legible.Sound s'.rows ∧
      ∃ c, P c (Legible.ledger s'.rows) ∧ c.stage = .closed ∧ c.report = report := by
  obtain ⟨r, hP, hsr, closed, hreport, rfl, -⟩ :=
    runAt_ok (P := fun r => P r.cycle (Legible.ledger r.store.rows))
      (fun hstep => by
        obtain ⟨-, pace⟩ := pace_of_step hs hstep
        obtain ⟨pending, found, hc, hl⟩ := pace.first
        rw [hc, hl]
        exact loaded found)
      (fun hsr hP hstep => by
        obtain ⟨hsr', pace⟩ := pace_of_step hsr hstep
        exact keep (Legible.wellFormed hsr) (Legible.wellFormed hsr') hP pace) hs h
  exact ⟨hsr, r.cycle, hP, closed, hreport⟩

end reaching

end FleetDispatch.Cycle
