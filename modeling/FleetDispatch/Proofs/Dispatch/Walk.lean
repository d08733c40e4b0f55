import FleetDispatch.Proofs.Dispatch.Stride

namespace FleetDispatch

namespace Backlog

def ids (b : Backlog) : List ActionId :=
  b.items.map PendingRecord.actionId

variable {b b' : Backlog} {now : Instant} {p : PendingRecord}

theorem ids_of_nextDue (h : b.nextDue now = (some p, b')) : b.ids = p.actionId :: b'.ids := by
  unfold nextDue at h
  split at h
  · cases h
  · split at h
    · cases h
    · next head rest items =>
      split at h
      · cases h
        rw [ids, items]
        rfl
      · cases h

theorem ids_of_not_due (h : b.nextDue now = (none, b')) : b'.ids = b.ids := by
  unfold nextDue at h
  split at h
  · cases h
    rfl
  · split at h
    · cases h
      rfl
    · split at h
      · cases h
      · cases h
        rfl

end Backlog

namespace Cycle

/-- What one step of a cycle that is alone with its store can make of the cycle and the ledger. -/
inductive Pace (k : Keeping) (policy : Policy) (wall : Instant) (c : Cycle) (l : Ledger) :
    Cycle → Ledger → Prop
  | turned {c' l'} (turn : Turn k policy wall c l c' l') : Pace k policy wall c l c' l'
  | answered {a left} (stage : c.stage = .calling a left) (reply : InvokeReply) :
    Pace k policy wall c l (c.invoked reply) l
  | pinged (stage : c.stage = .pinging) (reply : PingReply) :
    Pace k policy wall c l (c.pinged reply) l
  | rested (stage : c.stage = .closed) : Pace k policy wall c l c l

section pace

variable {k : Keeping} {policy : Policy} {wall : Instant} {c c' : Cycle} {l l' : Ledger}

theorem Turn.unmoved (turn : Turn k policy wall c l c' l') :
    c'.endpoint = c.endpoint ∧ c'.now = c.now := by
  cases turn with
  | loaded => exact advance_unmoved
  | skipped | barred | held | exhausted | refused | recorded =>
    exact advance_unmoved
  | spent | unflagged | checkpointed | checkedIn => exact ⟨rfl, rfl⟩

theorem Pace.unmoved (pace : Pace k policy wall c l c' l') :
    c'.endpoint = c.endpoint ∧ c'.now = c.now := by
  cases pace with
  | turned turn => exact turn.unmoved
  | answered stage reply =>
    rcases invoked_cases stage reply with ⟨o, -, hnext⟩ | ⟨result, hnext⟩
    · rw [hnext]
      exact advance_unmoved
    · rw [hnext]
      exact ⟨rfl, rfl⟩
  | pinged => exact pinged_unmoved
  | rested => exact ⟨rfl, rfl⟩

theorem Pace.happens (pace : Pace k policy wall c l c' l') :
    ∃ called, Scene.Happens k ⟨l, [c]⟩ called ⟨l', [c']⟩ := by
  cases pace with
  | turned turn => exact ⟨none, .turned (i := 0) rfl turn⟩
  | answered stage reply => exact ⟨_, .answered (i := 0) rfl stage reply⟩
  | pinged stage reply => exact ⟨none, .pinged (i := 0) rfl stage reply⟩
  | rested => exact ⟨none, .nothing⟩

theorem Pace.action_kept (pace : Pace k policy wall c l c' l') (hl : l.WellFormed) {id : ActionId}
    {a : Action} (ha : l.action? id = some a) : l'.action? id = some a := by
  obtain ⟨called, happens⟩ := pace.happens
  exact happens.action hl ha

theorem Pace.first {e : EndpointId} {now : Instant}
    (pace : Pace k policy wall (start e now) l c' l') :
    ∃ pending, l.pending e = .ok pending ∧
      c' = { start e now with backlog := .ofPending pending }.advance ∧ l' = l := by
  cases pace with
  | turned turn =>
    cases turn with
    | loaded stage found => exact ⟨_, found, rfl, rfl⟩
    | skipped stage | barred stage | held stage | exhausted stage | spent stage | refused stage
    | recorded stage | unflagged stage | checkpointed stage | checkedIn stage => cases stage
  | answered stage | pinged stage | rested stage => cases stage

theorem Pace.task (pace : Pace k policy wall c l c' l') (hl : l.WellFormed)
    (task : ∀ {a}, c.task? = some a → l.action? a.id = some a) {a : Action}
    (ha : c'.task? = some a) : l'.action? a.id = some a := by
  obtain ⟨called, happens⟩ := pace.happens
  rcases happens.task (List.mem_singleton_self c') ha with ⟨c₀, run, ha₀, -⟩ | ⟨r, n, -, action, -⟩
  · obtain rfl := List.mem_singleton.mp run
    exact happens.action hl (task ha₀)
  · exact happens.action hl action

def ahead (c : Cycle) : Nat :=
  if c.report.checkpoint.isSome then 2 else 3 * c.backlog.remaining + 6

/-- The most steps that a cycle has before it. -/
def togo (c : Cycle) : Nat :=
  match c.stage with
  | .loading => 0
  | .preparing _ => c.ahead + 3
  | .calling _ _ => c.ahead + 2
  | .recording _ _ _ => c.ahead + 1
  | .refreshing => 6
  | .pinging => 2
  | .checkingIn => 1
  | .closed => 0

theorem togo_le_stepBound (c : Cycle) : c.togo ≤ c.stepBound := by
  have hahead : c.ahead ≤ 3 * c.backlog.remaining + 6 := by
    unfold ahead
    split <;> omega
  unfold togo stepBound
  split <;> omega

theorem togo_conclude_le : c.conclude.togo ≤ 2 := by
  unfold conclude togo
  by_cases h : c.report.visitedAny <;> simp [h]

theorem conclude_stage_ne : c.conclude.stage ≠ .loading := by
  unfold conclude
  by_cases h : c.report.visitedAny <;> simp [h]

theorem remaining_nextDue {now : Instant} {b b' : Backlog} {p : PendingRecord}
    (h : b.nextDue now = (some p, b')) : b.remaining = b'.remaining + 1 := by
  simpa [Backlog.ids, Backlog.remaining] using congrArg List.length (Backlog.ids_of_nextDue h)

theorem togo_advance_le : c.advance.togo ≤ c.ahead := by
  unfold advance
  split
  · next h =>
    rw [ahead, if_pos h]
    exact togo_conclude_le
  · next h =>
    rw [ahead, if_neg h]
    split
    · next p backlog hnext =>
      have hremaining := remaining_nextDue hnext
      simp only [togo, ahead, if_neg h]
      omega
    · simp only [togo]
      omega

theorem advance_stage_ne : c.advance.stage ≠ .loading := by
  unfold advance
  split
  · exact conclude_stage_ne
  · split <;> exact Stage.noConfusion

theorem togo_settle_le (o : Outcome) : (c.settle o).togo ≤ c.ahead :=
  togo_advance_le

theorem settle_stage_ne (o : Outcome) : (c.settle o).stage ≠ .loading :=
  advance_stage_ne

theorem Turn.togo_lt (turn : Turn k policy wall c l c' l') (hc : c.stage ≠ .loading) :
    c'.togo < c.togo ∧ c'.stage ≠ .loading := by
  cases turn with
  | loaded stage => exact absurd stage hc
  | skipped stage | barred stage | held stage | exhausted stage =>
    refine ⟨?_, settle_stage_ne _⟩
    have h := togo_settle_le (c := c)
    simp only [togo, stage]
    exact Nat.lt_of_le_of_lt (h _) (by omega)
  | recorded stage =>
    refine ⟨?_, settle_stage_ne _⟩
    simp only [togo, stage]
    exact Nat.lt_succ_of_le (togo_settle_le _)
  | refused stage =>
    refine ⟨?_, settle_stage_ne _⟩
    simp only [togo, stage]
    exact Nat.lt_succ_of_le (togo_settle_le _)
  | spent stage =>
    refine ⟨?_, Stage.noConfusion⟩
    simp only [togo, stage, call]
    exact Nat.lt_succ_self _
  | unflagged stage =>
    refine ⟨?_, conclude_stage_ne⟩
    have h := togo_conclude_le (c := c)
    simp only [togo, stage] at h ⊢
    omega
  | checkpointed stage =>
    refine ⟨?_, Stage.noConfusion⟩
    simp [togo, stage, ahead]
  | checkedIn stage =>
    refine ⟨?_, Stage.noConfusion⟩
    simp [togo, stage]

theorem Pace.togo_lt (pace : Pace k policy wall c l c' l') (hc : c.stage ≠ .loading) :
    (c'.togo < c.togo ∨ c'.togo = 0) ∧ c'.stage ≠ .loading := by
  cases pace with
  | turned turn => exact (turn.togo_lt hc).imp_left .inl
  | answered stage reply =>
    have hsettle (o : Outcome) : (c.settle o).togo < c.togo := by
      simp only [togo, stage]
      exact Nat.lt_of_le_of_lt (togo_settle_le o) (by omega)
    rcases invoked_cases stage reply with ⟨o, -, hnext⟩ | ⟨result, hnext⟩
    · rw [hnext]
      exact ⟨.inl (hsettle o), settle_stage_ne o⟩
    · rw [hnext]
      refine ⟨.inl ?_, Stage.noConfusion⟩
      simp only [togo, stage]
      exact Nat.lt_succ_self _
  | pinged stage reply =>
    unfold Cycle.pinged
    split
    · exact ⟨.inl (by simp [togo, stage]), Stage.noConfusion⟩
    · exact ⟨.inl (by simp [togo, stage]), Stage.noConfusion⟩
    · exact ⟨.inl (by simp [togo, stage]), Stage.noConfusion⟩
  | rested stage => exact ⟨.inr (by simp [togo, stage]), hc⟩

theorem closed_of_togo (hc : c.stage ≠ .loading) (h : c.togo = 0) : c.stage = .closed := by
  unfold togo at h
  split at h <;> first | contradiction | omega

end pace

section run

variable {σ χ : Type} [ActionRows σ] [Legible σ] {policy : Policy} {wall : Instant}
  {channel : Channel χ} {r r' : Run σ χ}

omit [Legible σ] in
theorem closed_of_idle {c : Cycle} (hw : c.work? (σ := σ) policy wall = none)
    (hp : c.pendingCall = none) : c.stage = .closed := by
  cases stage : c.stage <;> simp [work?, pendingCall, stage] at hw hp
  rfl

theorem pace_of_step (hs : Legible.Sound r.store.rows)
    (h : step policy wall channel r = (.ok (), r')) :
    Legible.Sound r'.store.rows ∧ Pace (Legible.keeping σ) policy wall r.cycle
      (Legible.ledger r.store.rows) r'.cycle (Legible.ledger r'.store.rows) := by
  -- a step is a transaction if the cycle has one to make, or else the call that it waits for
  unfold step at h
  split at h
  · next work hw =>
    split at h
    · cases h
    · next c store ht =>
      cases h
      obtain ⟨hs', turn⟩ := turn_of_transact hs hw ht
      exact ⟨hs', .turned turn⟩
  · next hw =>
    split at h
    · next p hp =>
      cases h
      refine ⟨hs, ?_⟩
      unfold pendingCall at hp
      split at hp
      · next a left stage => exact .answered stage _
      · cases hp
      · cases hp
    · next hp =>
      cases h
      refine ⟨hs, ?_⟩
      unfold pendingCall at hp
      split at hp
      · cases hp
      · next stage => exact .pinged stage _
      · cases hp
    · next hp =>
      cases h
      exact ⟨hs, .rested (closed_of_idle hw hp)⟩

end run

end Cycle

end FleetDispatch
