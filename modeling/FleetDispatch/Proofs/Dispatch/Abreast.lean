import FleetDispatch.Proofs.Dispatch.Alike
import FleetDispatch.Proofs.Dispatch.Poll

namespace FleetDispatch.Cycle

open Ledger (Slot)
open Transcribed (transcript)
open Work (Follows)

variable {σ χ : Type} [ActionRows σ] [Legible σ] [Transcribed σ]
  {L : Instant → Instant → Prop} {b : ActionId} {o : Option ActionId} {c d : Cycle}
  {policy : Policy} {channel : Channel χ} {wall wall' : Instant} {e : EndpointId} {now : Instant}

/-- Rows of which the first have become what they are while one endpoint was left alone. -/
def Parted (e : EndpointId) (b : ActionId) (s t : σ) : Prop :=
  Legible.Sound s ∧ Legible.Sound t ∧ ∃ m, transcript m = t ∧ m.lastId = b ∧ SetBeside e m s

theorem Parted.near {s t : σ} (hL : ∀ t, L t t) (h : Parted e b s t) : Near L e b none s t := by
  obtain ⟨hs, ht, m, rfl, rfl, l, rfl, hbeside⟩ := h
  exact near_of_beside hL hs ht hbeside

theorem follows_load (hL : Instant.Interchange (Legible.keeping σ) L) :
    Follows (Parted e b) (Settled (σ := σ) L e b none) (start e now).load (start e now).load := by
  refine .bind (R := fun ps ps' s t => (ps' = ps ∧ ∀ id ∈ (Backlog.ofPending ps).ids, id ≤ b) ∧
    Near L e b none s t) (.attempt _ ?_) fun ps ps' => .knowing fun ⟨hps, hold⟩ => ?_
  · rintro s t ps s' ⟨hs, ht, m, rfl, rfl, l, rfl, hbeside⟩ hload
    obtain ⟨rfl, -⟩ := Legible.pending_ok hs hload
    have hagain := (Transcribed.pending_iff ht hs hbeside).mp hload
    have hold := Ledger.le_lastId_pending (Legible.wellFormed ht) (Legible.pending_ok ht hagain).2
    rw [Transcribed.ledger_transcript] at hold
    exact ⟨ps, _, hagain, ⟨rfl, hold⟩, near_of_beside hL.refl hs ht hbeside⟩
  · subst hps
    -- where a cycle goes on to does not depend on where it comes from
    have hloaded : Alike L b none
        { start e now with backlog := .ofPending ps', stage := .closed }
        { start e now with backlog := .ofPending ps', stage := .closed } :=
      ⟨rfl, rfl, rfl, hold, Report.alike_opened b e now, .closed⟩
    exact follows_settled hloaded.advance

omit [Legible σ] [Transcribed σ] in
theorem Alike.idle (h : Alike L b o c d) (hw : c.work? (σ := σ) policy wall = none) :
    d.work? (σ := σ) policy wall' = none := by
  have hstage := h.stage
  unfold work? at hw ⊢
  generalize c.stage = x at hstage hw
  generalize d.stage = y at hstage
  cases hstage with
  | calling | pinging | closed => rfl
  | preparing | recording | refreshing | checkingIn => cases hw

theorem calling_of_pendingCall {p : Procedure} (h : c.pendingCall = some (.invoke p)) :
    ∃ a left, c.stage = .calling a left := by
  unfold pendingCall at h
  split at h
  · next a left stage => exact ⟨a, left, stage⟩
  · cases h
  · cases h

theorem endpoint_invoked (reply : InvokeReply) : (c.invoked reply).endpoint = c.endpoint := by
  unfold Cycle.invoked
  split
  · split
    · exact endpoint_settle
    · exact endpoint_settle
    · rfl
  · rfl

/-- Two runs of a cycle that have come equally far, the first among others and the second alone
with a store of which no operation is to fail. -/
structure Abreast (L : Instant → Instant → Prop) (b : ActionId) (o : Option ActionId)
    (r q : Run σ χ) : Prop where
  cycle : Alike L b o r.cycle q.cycle
  near : Near L r.cycle.endpoint b o r.store.rows q.store.rows
  busy : r.cycle.Busy (Legible.ledger r.store.rows)
  calm : q.store.Calm
  channel : q.channel = r.channel

theorem transact_follows {M : σ → σ → Prop} {s t s' : Store σ} {c' : Cycle}
    {w w' : Work σ (Ending × Cycle)} (hfollows : Follows M (Settled L e b o) w w')
    (hM : M s.rows t.rows) (hnear : ∀ o', o' = o → Near L e b o' s.rows t.rows) (calm : t.Calm)
    (h : s.transact w = (.ok c', s')) :
    ∃ d' t' o', t.transact w' = (.ok d', t') ∧ t'.Calm ∧ Alike L b o' c' d' ∧
      Near L e b o' s'.rows t'.rows := by
  obtain ⟨ending, rows, hy, hrows⟩ := Store.transact_ok h
  obtain ⟨⟨_, d'⟩, rows', hw', rfl, o', halike, hnear', hsame⟩ := hfollows hM hy
  refine ⟨d', _, o', calm.transact hw', ⟨calm.plan, calm.poisoned⟩, halike, ?_⟩
  rw [hrows]
  simp only
  split
  · exact hnear'
  · next hne => exact hnear o' (hsame hne)

variable {r q r' : Run σ χ}

theorem Abreast.step (hL : Instant.Interchange (Legible.keeping σ) L) (hwall : L wall wall')
    (hdated : wall'.IsDated) (h : Abreast L b o r q)
    (hstep : Cycle.step policy wall channel r = (.ok (), r')) :
    ∃ o' q', Cycle.step policy wall' channel q = (.ok (), q') ∧ Abreast L b o' r' q' := by
  obtain ⟨c, s, memory⟩ := r
  obtain ⟨d, t, memory'⟩ := q
  obtain ⟨cycle, near, busy, calm, channel⟩ := h
  simp only at cycle near busy calm channel
  subst channel
  unfold Cycle.step at hstep ⊢
  simp only at hstep ⊢
  -- a transaction is followed in the lone store; a call gives no more than the shared channel does
  split at hstep
  · next w hw =>
    split at hstep
    · cases hstep
    · next c' s' ht =>
      cases hstep
      obtain ⟨w', hw', hfollows⟩ := cycle.follows hwall hL hdated hw
      obtain ⟨-, turn⟩ := turn_of_transact near.sound hw ht
      obtain ⟨d', t', o', ht', calm', cycle', near'⟩ :=
        transact_follows hfollows ⟨busy, near⟩ (fun _ ho => ho ▸ near) calm ht
      refine ⟨o', ⟨d', t', memory'⟩, ?_, cycle', ?_, turn.busy, calm', rfl⟩
      · simp only [hw', ht']
      · rw [turn.unmoved.1]
        exact near'
  · next hw =>
    have hw' : d.work? (σ := σ) policy wall' = none := cycle.idle hw
    simp only [hw', cycle.pendingCall, cycle.endpoint]
    split at hstep
    · next p hp =>
      cases hstep
      obtain ⟨a, left, stage⟩ := calling_of_pendingCall hp
      refine ⟨o, ⟨d.invoked _, t, _⟩, rfl, cycle.invoked _, ?_, busy.invoked stage _, calm, rfl⟩
      rw [endpoint_invoked]
      exact near
    · cases hstep
      refine ⟨o, ⟨d.pinged _, t, _⟩, rfl, cycle.pinged _, ?_, busy_of_free task?_pinged, calm, rfl⟩
      rw [pinged_unmoved.1]
      exact near
    · cases hstep
      exact ⟨o, ⟨d, t, memory'⟩, rfl, cycle, near, busy, calm, rfl⟩

/-- The first step parts the cycle from all that happens beside it. -/
theorem abreast_loaded (hL : Instant.Interchange (Legible.keeping σ) L) (wall' : Instant)
    {s t : Store σ} {memory : χ} (parted : Parted e b s.rows t.rows) (calm : t.Calm)
    (hstep : Cycle.step policy wall channel ⟨start e now, s, memory⟩ = (.ok (), r')) :
    ∃ o q', Cycle.step policy wall' channel ⟨start e now, t, memory⟩ = (.ok (), q') ∧
      Abreast L b o r' q' := by
  have hw : (start e now).work? policy wall = some ((start e now).load (σ := σ)) := rfl
  have hw' : (start e now).work? policy wall' = some ((start e now).load (σ := σ)) := rfl
  unfold Cycle.step at hstep ⊢
  simp only [hw, hw'] at hstep ⊢
  split at hstep
  · cases hstep
  · next c' s' ht =>
    cases hstep
    obtain ⟨-, turn⟩ := turn_of_transact parted.1 hw ht
    obtain ⟨d', t', o, ht', calm', cycle', near'⟩ := transact_follows (follows_load hL) parted
      (fun _ ho => ho ▸ parted.near hL.refl) calm ht
    refine ⟨o, ⟨d', t', memory⟩, ?_, cycle', ?_, turn.busy, calm', rfl⟩
    · simp only [ht']
    · rw [turn.unmoved.1]
      exact near'

section closing

variable {clock : Nat → Instant} {k n : Nat} {s : Store σ} {memory : χ}

omit [Legible σ] [Transcribed σ] in
theorem driveAt_closed (hn : k ≤ n) (h : driveAt policy channel k clock r = (.ok (), q))
    (closed : q.cycle.stage = .closed) : driveAt policy channel n clock r = (.ok (), q) := by
  induction n, hn using Nat.le_induction with
  | base => exact h
  | succ n _ ih => exact driveAt_succ_ok.mpr ⟨q, ih, step_closed closed⟩

omit [Legible σ] [Transcribed σ] in
theorem driveAt_le (hn : k ≤ n) (h : driveAt policy channel n clock r = (.ok (), q)) :
    ∃ p, driveAt policy channel k clock r = (.ok (), p) := by
  induction n, hn using Nat.le_induction generalizing q with
  | base => exact ⟨q, h⟩
  | succ n _ ih =>
    obtain ⟨p, hdrive, -⟩ := driveAt_succ_ok.mp h
    exact ih hdrive

omit [Transcribed σ] in
theorem driveAt_togo (hs : Legible.Sound r.store.rows) (hc : r.cycle.stage ≠ .loading)
    (hn : r.cycle.togo ≤ n) (h : driveAt policy channel k clock r = (.ok (), q))
    (closed : q.cycle.stage = .closed) : driveAt policy channel n clock r = (.ok (), q) := by
  rcases Nat.le_total k n with hle | hle
  · exact driveAt_closed hle h closed
  · -- it was closed by then, and a closed cycle stays what it is
    obtain ⟨p, hp⟩ := driveAt_le hle h
    have closed' : p.cycle.stage = .closed := by
      by_contra hopen
      exact absurd (driveAt_lt_togo hs hc hp hopen) (Nat.not_lt.mpr hn)
    have hsame := (driveAt_closed hle hp closed').symm.trans h
    rwa [(Prod.mk.inj hsame).2] at hp

omit [Transcribed σ] in
theorem runAt_of_closed (hs : Legible.Sound s.rows)
    (h : driveAt policy channel n clock ⟨start e now, s, memory⟩ = (.ok (), q))
    (closed : q.cycle.stage = .closed) :
    runAt policy channel clock e now s memory = (.ok q.cycle.report, q.store, q.channel) := by
  cases n with
  | zero =>
    cases h
    cases closed
  | succ n =>
    unfold driveAt at h
    unfold runAt
    split at h
    · cases h
    · next r₁ hfirst =>
      obtain ⟨hs₁, pace⟩ := pace_of_step hs hfirst
      obtain ⟨pending, -, hc, -⟩ := pace.first
      have hloaded : r₁.cycle.stage ≠ .loading := hc ▸ advance_stage_ne
      have hdrive := driveAt_togo hs₁ hloaded (togo_le_stepBound _) h closed
      simp only [hdrive]

end closing

end FleetDispatch.Cycle
