import FleetDispatch.Proofs.Dispatch.Account
import FleetDispatch.Proofs.Dispatch.Weave
import FleetDispatch.Proofs.Store.Steady

namespace FleetDispatch

namespace Cycle

section work

variable {l : Ledger} {policy : Policy} {wall : Instant} {c : Cycle} {r : Record}

open Work (Steady steady_attempt steady_pure)

theorem steady_load (hl : l.WellFormed) : Steady c.load l := by
  obtain ⟨ps, hps⟩ := Ledger.pending_total hl c.endpoint
  exact steady_attempt (Ledger.look_eq hps) (steady_pure _ l)

theorem steady_giveUp (queued : r.status = .queued)
    (found : (l.record? r.actionId r.endpoint).isSome) (code : Int) (message : String)
    (o : Outcome) : Steady (c.giveUp r code message wall o) l := by
  unfold giveUp
  rw [Record.fail, Record.finish_of_queued queued]
  exact steady_attempt (Ledger.save_of_record found) (steady_pure _ _)

theorem steady_spend (queued : r.status = .queued)
    (found : (l.record? r.actionId r.endpoint).isSome) (a : Action) :
    Steady (c.spend r a wall) l := by
  unfold spend
  split
  · exact steady_giveUp queued found _ _ _
  · next htries =>
    obtain ⟨n, hn⟩ := Nat.exists_eq_add_of_le' (by omega : 1 ≤ r.remainingTries)
    rw [Record.consume_of_queued queued hn]
    exact steady_attempt (Ledger.save_of_record found) (steady_pure _ _)

/-- Of a record that is there, the action is there as well, and its prerequisite is looked at
whether or not there is a record of it. -/
theorem steady_prepare {id : ActionId} (hl : l.WellFormed)
    (found : l.record? id c.endpoint = some r) : Steady (c.prepare id wall) l := by
  have hsaved : (l.record? r.actionId r.endpoint).isSome := by
    rw [Ledger.actionId_of_record? found, Ledger.endpoint_of_record? found, found]
    rfl
  obtain ⟨a, ha⟩ := Option.isSome_iff_exists.mp (hl.record_action found)
  refine steady_attempt (Ledger.look_eq (congrArg Except.ok found)) ?_
  simp only
  split
  · exact steady_pure _ l
  · next hopen =>
    have queued : r.status = .queued := by simpa [Record.isTerminal_iff] using hopen
    refine steady_attempt (Ledger.look_eq (Ledger.action_eq_ok.mpr ha)) ?_
    split
    · exact steady_spend queued hsaved a
    · refine steady_attempt (Ledger.look_eq rfl) ?_
      split
      · exact steady_giveUp queued hsaved _ _ _
      · exact steady_pure _ l
      · exact steady_spend queued hsaved a

theorem steady_recordResult {a : Action} (found : l.record? a.id c.endpoint = some r)
    (queued : r.status = .queued) (left : Nat) (result : CallResult) :
    Steady (c.recordResult policy a left result wall) l := by
  have hsaved : (l.record? r.actionId r.endpoint).isSome := by
    rw [Ledger.actionId_of_record? found, Ledger.endpoint_of_record? found, found]
    rfl
  refine steady_attempt (Ledger.look_eq (congrArg Except.ok found)) ?_
  simp only [Record.finish_of_queued queued]
  refine steady_attempt (Ledger.save_of_record hsaved) ?_
  split
  · exact steady_attempt (Ledger.look_eq rfl) (steady_attempt rfl
      (steady_attempt rfl (steady_pure _ _)))
  · exact steady_attempt rfl (steady_pure _ _)

theorem steady_refresh : Steady (c.refresh policy wall) l := by
  refine steady_attempt (Ledger.look_eq rfl) ?_
  split
  · refine steady_attempt (Ledger.insertAction_of_present fun p hp => ?_)
      (steady_attempt rfl (steady_pure _ _))
    cases hp
  · exact steady_pure _ l

theorem steady_checkIn : Steady (c.checkIn wall) l :=
  steady_attempt rfl (steady_pure _ _)

end work

/-- The records that a cycle is to come to, and the one that it is at, are there, and nobody else
has finished what it calls for. -/
structure Ready (c : Cycle) (l : Ledger) : Prop where
  backlog : ∀ id ∈ c.backlog.ids, (l.record? id c.endpoint).isSome
  preparing : ∀ {id}, c.stage = .preparing id → (l.record? id c.endpoint).isSome
  busy : c.Busy l

theorem steady_work? {l : Ledger} {policy : Policy} {wall : Instant} {c : Cycle}
    {work : Work Ledger (Ending × Cycle)} (hl : l.WellFormed) (ready : c.Ready l)
    (h : c.work? policy wall = some work) : work.Steady l := by
  unfold work? at h
  split at h
  · obtain rfl := Option.some.inj h
    exact steady_load hl
  · next id stage =>
    obtain rfl := Option.some.inj h
    obtain ⟨r, found⟩ := Option.isSome_iff_exists.mp (ready.preparing stage)
    exact steady_prepare hl found
  · next a left result stage =>
    obtain rfl := Option.some.inj h
    obtain ⟨r, found, queued⟩ := ready.busy a (by rw [task?, stage])
    exact steady_recordResult found queued left result
  · obtain rfl := Option.some.inj h
    exact steady_refresh
  · obtain rfl := Option.some.inj h
    exact steady_checkIn
  · cases h

section ready

variable {k : Keeping} {policy : Policy} {wall : Instant} {c c' : Cycle} {l l' : Ledger}

theorem Pace.record_stays (pace : Pace k policy wall c l c' l') {id : ActionId} {e : EndpointId}
    (there : (l.record? id e).isSome) : (l'.record? id e).isSome := by
  obtain ⟨called, happens⟩ := pace.happens
  obtain ⟨next, stride, -⟩ := happens.stride id e
  generalize l'.record? id e = found at stride
  cases stride with
  | same => exact there
  | fresh | spent | barred | exhausted | recorded => rfl

theorem ids_advance_backlog {id : ActionId} (h : id ∈ c.advance.backlog.ids) :
    id ∈ c.backlog.ids := by
  unfold advance at h
  split at h
  · exact h
  · split at h
    · next hnext => rw [Backlog.ids_of_nextDue hnext]; exact List.mem_cons_of_mem _ h
    · next hnext => rwa [← Backlog.ids_of_not_due hnext]

theorem preparing_advance {id : ActionId} (h : c.advance.stage = .preparing id) :
    id ∈ c.backlog.ids := by
  unfold advance at h
  split at h
  · unfold conclude at h
    split at h <;> cases h
  · split at h
    · next hnext =>
      cases h
      rw [Backlog.ids_of_nextDue hnext]
      exact List.mem_cons_self
    · cases h

theorem ready_advance (backlog : ∀ id ∈ c.backlog.ids, (l.record? id c.endpoint).isSome) :
    c.advance.Ready l where
  backlog id hid := by
    rw [endpoint_advance]
    exact backlog id (ids_advance_backlog hid)
  preparing h := by
    rw [endpoint_advance]
    exact backlog _ (preparing_advance h)
  busy := busy_of_free task?_advance

theorem Pace.busy (pace : Pace k policy wall c l c' l') (busy : c.Busy l) : c'.Busy l' := by
  cases pace with
  | turned turn => exact turn.busy
  | answered stage reply => exact busy.invoked stage reply
  | pinged => exact busy_of_free task?_pinged
  | rested => exact busy

theorem Ready.next (ready : c.Ready l) (hl : l.WellFormed) (pace : Pace k policy wall c l c' l') :
    c'.Ready l' := by
  have hbusy := pace.busy ready.busy
  have hstays : ∀ id ∈ c.backlog.ids, (l'.record? id c.endpoint).isSome := fun id hid =>
    pace.record_stays (ready.backlog id hid)
  cases pace.visit with
  | @loaded pending stage found =>
    refine ready_advance fun id hid => ?_
    obtain ⟨r, hr, rfl⟩ := List.mem_map.mp ((Ledger.perm_pending found).mem_iff.mp hid)
    rw [((Ledger.mem_queued hl).mp hr).1]
    rfl
  | spent | replied => exact ⟨hstays, fun h => Stage.noConfusion h, hbusy⟩
  | @settled o => exact ready_advance (c := { c with report := c.report.add o }) hstays
  | @checkpointed a stage action =>
    refine ⟨hstays, fun h => ?_, hbusy⟩
    -- the action of a checkpoint is issued with its record
    obtain rfl := Stage.preparing.inj h
    rw [Ledger.record?_putEndpoint, Ledger.record?_issue,
      if_pos ⟨rfl, List.mem_singleton_self c.endpoint⟩]
    rfl
  | rested rests =>
    rw [← rests.endpoint, ← rests.backlog] at hstays
    refine ⟨hstays, fun h => ?_, hbusy⟩
    have hafter := rests.after
    rw [h] at hafter
    cases hafter

theorem Ready.aside (ready : c.Ready l)
    (same : ∀ id, l'.record? id c.endpoint = l.record? id c.endpoint) : c.Ready l' where
  backlog id hid := by
    rw [same]
    exact ready.backlog id hid
  preparing h := by
    rw [same]
    exact ready.preparing h
  busy a ha := by
    rw [same]
    exact ready.busy a ha

theorem ready_start (e : EndpointId) (now : Instant) : (start e now).Ready l where
  backlog _ hid := absurd hid List.not_mem_nil
  preparing h := Stage.noConfusion h
  busy := busy_of_free rfl

end ready

def Channel.Lost {χ : Type} (channel : Channel χ) (e : EndpointId) (text : String) : Prop :=
  ∃ procedure memory err, (channel.invoke e procedure memory).1 = .error err ∧
    text = s!"Transport failure: {err.message}"

/-- Every record that a cycle could not settle was given up for a call that got no answer. -/
def Honest {χ : Type} (channel : Channel χ) (c : Cycle) : Prop :=
  ∀ id text, .error id text ∈ c.report.outcomes → channel.Lost c.endpoint text

section honest

variable {χ : Type} {channel : Channel χ} {k : Keeping} {policy : Policy} {wall : Instant}
  {c c' : Cycle} {l l' : Ledger} {o : Outcome}

theorem Honest.congr (honest : c.Honest channel)
    (outcomes : c'.report.outcomes = c.report.outcomes) (endpoint : c'.endpoint = c.endpoint) :
    c'.Honest channel := by
  intro id text hmem
  rw [outcomes] at hmem
  rw [endpoint]
  exact honest id text hmem

theorem Honest.settle (honest : c.Honest channel)
    (ho : ∀ id text, o = .error id text → channel.Lost c.endpoint text) :
    (c.settle o).Honest channel := by
  intro id text hmem
  rw [outcomes_settle, List.mem_append, List.mem_singleton] at hmem
  rw [endpoint_settle]
  exact hmem.elim (honest id text) fun h => ho id text h.symm

theorem Honest.turned (honest : c.Honest channel) (busy : c.Busy l)
    (turn : Turn k policy wall c l c' l') : c'.Honest channel := by
  cases turn with
  | loaded => exact honest.congr outcomes_advance.1 endpoint_advance
  | skipped | barred | held | exhausted => exact honest.settle nofun
  | spent | checkpointed | checkedIn => exact honest.congr rfl rfl
  | unflagged => exact honest.congr rfl rfl
  | refused stage found terminal =>
    -- nobody else has finished the record that the cycle called for
    obtain ⟨r, hr, queued⟩ := busy _ (by rw [task?, stage])
    obtain rfl := Option.some.inj (found.symm.trans hr)
    exact absurd queued terminal
  | recorded =>
    refine honest.settle fun id text h => ?_
    unfold outcomeOf at h
    split at h <;> cases h

theorem Honest.invoked {a : Action} {left : Nat} {memory : χ} {reply : InvokeReply}
    (honest : c.Honest channel) (stage : c.stage = .calling a left)
    (answer : (channel.invoke c.endpoint a.procedure memory).1 = reply) :
    (c.invoked reply).Honest channel := by
  unfold Cycle.invoked
  simp only [stage]
  split
  · next err =>
    refine honest.settle fun id text h => ?_
    obtain ⟨-, rfl⟩ := Outcome.error.inj h
    exact ⟨a.procedure, memory, err, answer, rfl⟩
  · exact honest.settle nofun
  · exact honest.congr rfl rfl

theorem Honest.pinged (honest : c.Honest channel) (reply : PingReply) :
    (c.pinged reply).Honest channel := by
  refine honest.congr ?_ pinged_unmoved.1
  unfold Cycle.pinged
  split <;> rfl

variable {σ : Type} [ActionRows σ] [Legible σ] {r r' : Run σ χ}

theorem Honest.step (honest : r.cycle.Honest channel) (hs : Legible.Sound r.store.rows)
    (busy : r.cycle.Busy (Legible.ledger r.store.rows))
    (h : Cycle.step policy wall channel r = (.ok (), r')) : r'.cycle.Honest channel := by
  unfold Cycle.step at h
  split at h
  · next work hw =>
    split at h
    · cases h
    · next c store ht =>
      cases h
      exact honest.turned busy (turn_of_transact hs hw ht).2
  · split at h
    · next p hp =>
      cases h
      obtain ⟨a, left, stage⟩ := calling_of_pendingCall hp
      rw [pendingCall, stage] at hp
      cases hp
      exact honest.invoked stage rfl
    · cases h
      exact honest.pinged _
    · cases h
      exact honest

end honest

section alone

variable {χ : Type} {policy : Policy} {wall : Instant} {channel : Channel χ}
  {clock : Nat → Instant} {r : Run Ledger χ}

/-- A step of a cycle that is ready goes through unless the store is made to fail. -/
theorem step_forced (hs : Legible.Sound r.store.rows)
    (ready : r.cycle.Ready (Legible.ledger r.store.rows)) :
    (∃ r', step policy wall channel r = (.ok (), r') ∧ (r.store.Calm → r'.store.Calm)) ∨
    ¬ r.store.Calm ∧ ∃ err r', step policy wall channel r = (.error err, r') ∧ err.IsForced := by
  unfold step
  split
  · next work hw =>
    have hwork : work.Steady r.store.rows :=
      steady_work? hs ⟨ready.backlog, ready.preparing, ready.busy⟩ hw
    rcases Store.transact_steady hwork with
      ⟨c, store, ht, hcalm⟩ | ⟨hnot, err, store, ht, hforced⟩
    · exact .inl ⟨{ r with cycle := c, store }, by rw [ht], hcalm⟩
    · exact .inr ⟨hnot, err, { r with store }, by rw [ht], hforced⟩
  · split
    · exact .inl ⟨_, rfl, id⟩
    · exact .inl ⟨_, rfl, id⟩
    · exact .inl ⟨_, rfl, id⟩

structure Run.Clear (channel : Channel χ) (r : Run Ledger χ) : Prop where
  sound : Legible.Sound r.store.rows
  ready : r.cycle.Ready (Legible.ledger r.store.rows)
  honest : r.cycle.Honest channel
  calm : r.store.Calm

theorem Run.Clear.step (clear : r.Clear channel) (policy : Policy) (wall : Instant) :
    ∃ r', Cycle.step policy wall channel r = (.ok (), r') ∧ r'.Clear channel ∧
      r'.cycle.endpoint = r.cycle.endpoint := by
  obtain ⟨hs, ready, honest, calm⟩ := clear
  rcases step_forced hs ready with ⟨r', hstep, hcalm⟩ | ⟨hnot, -⟩
  · obtain ⟨hs', pace⟩ := pace_of_step hs hstep
    exact ⟨r', hstep, ⟨hs', ready.next (Legible.wellFormed hs) pace,
      honest.step hs ready.busy hstep, hcalm calm⟩, pace.unmoved.1⟩
  · exact absurd calm hnot

theorem Run.Clear.driveAt (clear : r.Clear channel) (policy : Policy) (clock : Nat → Instant)
    (n : Nat) : ∃ r', Cycle.driveAt policy channel n clock r = (.ok (), r') ∧ r'.Clear channel ∧
      r'.cycle.endpoint = r.cycle.endpoint := by
  -- on the steps: each goes through and leaves nothing in the way of the next
  induction n generalizing clock r with
  | zero => exact ⟨r, rfl, clear, rfl⟩
  | succ n ih =>
    obtain ⟨r₁, hstep, hclear, hsame⟩ := clear.step policy (clock 0)
    obtain ⟨r', hdrive, hclear', hsame'⟩ := ih hclear fun i => clock (i + 1)
    refine ⟨r', ?_, hclear', hsame'.trans hsame⟩
    unfold Cycle.driveAt
    rw [hstep]
    exact hdrive

theorem runAt_clear {e : EndpointId} {now : Instant} {s : Store Ledger}
    (hs : Legible.Sound s.rows) (calm : s.Calm) (policy : Policy) (channel : Channel χ)
    (clock : Nat → Instant) (memory : χ) :
    ∃ report s' memory', runAt policy channel clock e now s memory = (.ok report, s', memory') ∧
      s'.Calm ∧ ∀ id text, .error id text ∈ report.outcomes → channel.Lost e text := by
  have hstart : Run.Clear channel ⟨start e now, s, memory⟩ :=
    ⟨hs, ready_start e now, fun _ _ h => absurd h List.not_mem_nil, calm⟩
  obtain ⟨r₁, hfirst, hclear, hsame⟩ := hstart.step policy (clock 0)
  obtain ⟨r₂, hdrive, hclear', hsame'⟩ :=
    hclear.driveAt policy (fun i => clock (i + 1)) r₁.cycle.stepBound
  refine ⟨r₂.cycle.report, r₂.store, r₂.channel, ?_, hclear'.calm, fun id text h => ?_⟩
  · unfold runAt
    rw [hfirst]
    simp only [hdrive]
  · have hlost := hclear'.honest id text h
    rwa [hsame', hsame] at hlost

end alone

end Cycle

def Stroke.isOwn : Stroke → Bool
  | .own _ => true
  | .aside _ => false

namespace Weave

section strokes

variable {σ χ : Type} [ActionRows σ] [Legible σ] [Transcribed σ] {policy : Policy}
  {channel : Cycle.Channel χ} {w w' : Weave σ χ} {e : EndpointId}

/-- What is so of a cycle among strokes of others: it finds the records that it comes to. -/
structure Hale (channel : Cycle.Channel χ) (e : EndpointId) (w : Weave σ χ) : Prop where
  sound : w.world.Sound
  here : w.cycle.endpoint = e
  ready : w.cycle.Ready w.world.ledger
  honest : w.cycle.Honest channel

theorem Hale.stroke {x : Stroke} (hale : w.Hale channel e)
    (hstroke : w.stroke policy channel x = some w') : w'.Hale channel e := by
  obtain ⟨hs, rfl, ready, honest⟩ := hale
  cases x with
  | own wall =>
    obtain ⟨hstep, -, -⟩ := stroke_own hstroke
    obtain ⟨hs', pace⟩ := Cycle.pace_of_step hs hstep
    exact ⟨hs', pace.unmoved.1, ready.next (Legible.wellFormed hs) pace,
      honest.step hs ready.busy hstep⟩
  | aside m =>
    obtain ⟨haside, rfl⟩ := stroke_aside hstroke
    -- others write no record of this endpoint
    obtain ⟨l, hl⟩ := Transcribed.exists_transcript hs
    have hkept := World.step_keeps (withstands_beside w.cycle.endpoint l) hs ⟨l, hl, .refl _ l⟩
      (Move.within_of_isAside haside)
    refine ⟨World.sound_step hs m, rfl, ready.aside fun id => ?_, honest⟩
    have hrecord := hkept.record? id
    rwa [hl] at hrecord

omit [Transcribed σ] in
theorem hale_start {w₀ : World σ} (hs : w₀.Sound) (now : Instant) (memory : χ) :
    Hale channel e (⟨w₀, Cycle.start e now, memory, []⟩ : Weave σ χ) :=
  ⟨hs, rfl, Cycle.ready_start e now, fun _ _ h => absurd h List.not_mem_nil⟩

theorem Hale.togo_le {later : List Stroke} (hale : w.Hale channel e)
    (loaded : w.cycle.stage ≠ .loading)
    (h : later.foldlM (Weave.stroke policy channel) w = some w') :
    w'.cycle.stage ≠ .loading ∧
      (w'.cycle.togo + later.countP Stroke.isOwn ≤ w.cycle.togo ∨ w'.cycle.togo = 0) := by
  -- on the strokes: those of others leave the cycle, and with it what it has before it
  induction later generalizing w with
  | nil =>
    cases h
    exact ⟨loaded, .inl (Nat.le_refl _)⟩
  | cons x later ih =>
    rw [List.foldlM_cons] at h
    obtain ⟨w₁, hstroke, hrest⟩ := Option.bind_eq_some_iff.mp h
    have hale₁ := hale.stroke hstroke
    rw [List.countP_cons]
    cases x with
    | own wall =>
      obtain ⟨hstep, -, -⟩ := stroke_own hstroke
      obtain ⟨-, pace⟩ := Cycle.pace_of_step hale.sound hstep
      obtain ⟨hlt, loaded₁⟩ := pace.togo_lt loaded
      obtain ⟨loaded', hle⟩ := ih hale₁ loaded₁ hrest
      refine ⟨loaded', ?_⟩
      change w₁.cycle.togo < w.cycle.togo ∨ w₁.cycle.togo = 0 at hlt
      simp only [Stroke.isOwn, if_true]
      omega
    | aside m =>
      obtain ⟨-, rfl⟩ := stroke_aside hstroke
      exact ih (w := { w with world := w.world.step m }) hale₁ loaded hrest

end strokes

end Weave

namespace World

variable {χ : Type}

/-- Cycles do not fail on their own. In any state that can come to be, a cycle on any endpoint makes
its steps among any moves that leave this endpoint alone. A step of it fails only if the store is
made to fail at that time; a record is given up only for a call that got no answer; and the cycle
is closed after a bounded number of its steps. So with a store that nothing is planned for it comes
to its report. -/
theorem cycles_never_fail (events : List Event) (policy : Policy) (channel : Cycle.Channel χ)
    (e : EndpointId) (now : Instant) (memory : χ) :
    (∀ strokes (w : Weave Ledger χ),
      Weave.weave policy channel e now (through events) memory strokes = some w →
      (∀ wall err r, Cycle.step policy wall channel w.run = (.error err, r) →
        ¬ w.world.store.Calm ∧ err.IsForced) ∧
      (∀ id text, .error id text ∈ w.cycle.report.outcomes → channel.Lost e text) ∧
      (w.cycle.stage ≠ .loading → ∀ (later : List Stroke) (w' : Weave Ledger χ),
        later.foldlM (Weave.stroke policy channel) w = some w' →
        w.cycle.stepBound ≤ later.countP Stroke.isOwn → w'.cycle.stage = .closed)) ∧
    ((through events : World Ledger).store.Calm → ∀ clock, ∃ report s' memory',
      Cycle.runAt policy channel clock e now (through events : World Ledger).store memory =
        (.ok report, s', memory') ∧ s'.Calm ∧
      ∀ id text, .error id text ∈ report.outcomes → channel.Lost e text) := by
  have hs : (through events : World Ledger).Sound := sound_through events
  refine ⟨fun strokes w woven => ?_, fun calm clock =>
    Cycle.runAt_clear hs calm policy channel clock memory⟩
  have hale : w.Hale channel e := Weave.strokes_keep (P := Weave.Hale channel e)
    (fun _ hw hstroke => hw.stroke hstroke) (Weave.hale_start hs now memory) woven
  refine ⟨fun wall err r herror => ?_, fun id text h => ?_, fun loaded later w' hlater hbound => ?_⟩
  · rcases Cycle.step_forced (r := w.run) hale.sound hale.ready with
      ⟨r', hstep, -⟩ | ⟨hnot, err', r', hstep, hforced⟩
    · rw [hstep] at herror
      cases herror
    · rw [hstep] at herror
      cases herror
      exact ⟨hnot, hforced⟩
  · rw [← hale.here]
    exact hale.honest id text h
  · obtain ⟨loaded', htogo⟩ := hale.togo_le loaded hlater
    have hle := Cycle.togo_le_stepBound w.cycle
    exact Cycle.closed_of_togo loaded' (by omega)

def unanswered : List Stroke :=
  [.own ⟨1, 0⟩, .own ⟨1, 0⟩,
    .aside (.create ⟨1, 0⟩ ⟨"ping", ⟨0, 0⟩, none, ⟨"test.ping", [], []⟩, ["m2"], 1⟩), .own ⟨2, 0⟩]

def noRoute : String :=
  "Transport failure: Endpoint unreachable: no route"

theorem oneInstall_never_fails :
    (∃ (w : Weave Ledger Unit) (err : StoreError) (r : Cycle.Run Ledger Unit),
      Weave.weave ⟨.standard, 5⟩ unreachable "m1" ⟨1, 0⟩ (through oneInstall) ()
        [.own ⟨1, 0⟩, .aside (.disturb [] true)] = some w ∧
      Cycle.step ⟨.standard, 5⟩ ⟨2, 0⟩ unreachable w.run = (.error err, r) ∧
      ¬ w.world.store.Calm ∧ err.IsForced) ∧
    (∃ w w' : Weave Ledger Unit,
      Weave.weave ⟨.standard, 5⟩ unreachable "m1" ⟨1, 0⟩ (through oneInstall) () unanswered =
        some w ∧
      .error 1 noRoute ∈ w.cycle.report.outcomes ∧ unreachable.Lost "m1" noRoute ∧
      (List.replicate 12 (.own ⟨2, 0⟩)).foldlM (Weave.stroke ⟨.standard, 5⟩ unreachable) w =
        some w' ∧ w'.cycle.stage = .closed) ∧
    ∃ (report : Report) (s' : Store Ledger),
      Cycle.runAt ⟨.standard, 5⟩ unreachable (fun _ => ⟨1, 0⟩) "m1" ⟨1, 0⟩
        (through oneInstall : World Ledger).store () = (.ok report, s', ()) ∧ s'.Calm ∧
      .error 1 noRoute ∈ report.outcomes ∧ unreachable.Lost "m1" noRoute := by
  obtain ⟨woven, alone⟩ := cycles_never_fail oneInstall ⟨.standard, 5⟩ unreachable "m1" ⟨1, 0⟩ ()
  have stopped : (Weave.weave ⟨.standard, 5⟩ unreachable "m1" ⟨1, 0⟩
      (through oneInstall : World Ledger) () [.own ⟨1, 0⟩, .aside (.disturb [] true)]).any
      (fun w => !(Cycle.step ⟨.standard, 5⟩ ⟨2, 0⟩ unreachable w.run).1.isOk) = true := by
    decide +kernel
  have gone : (Weave.weave ⟨.standard, 5⟩ unreachable "m1" ⟨1, 0⟩
      (through oneInstall : World Ledger) () unanswered).any
      (fun w => w.cycle.report.outcomes == [.error 1 noRoute] &&
        w.cycle.stage matches .refreshing && w.cycle.stepBound == 12 &&
        ((List.replicate 12 (.own ⟨2, 0⟩)).foldlM (Weave.stroke ⟨.standard, 5⟩ unreachable)
          w).isSome) = true := by
    decide +kernel
  have shown : (Cycle.runAt ⟨.standard, 5⟩ unreachable (fun _ => ⟨1, 0⟩) "m1" ⟨1, 0⟩
      (through oneInstall : World Ledger).store ()).1.toOption.map (·.outcomes) =
      some [.error 1 noRoute] := by
    decide +kernel
  have calm : (through oneInstall : World Ledger).store.Calm :=
    ⟨by decide +kernel, by decide +kernel⟩
  refine ⟨?_, ?_, ?_⟩
  · obtain ⟨w, hw, hstop⟩ := (Option.any_eq_true _ _).mp stopped
    cases hstep : Cycle.step ⟨.standard, 5⟩ ⟨2, 0⟩ unreachable w.run with
    | mk answer r =>
      rw [hstep] at hstop
      cases answer with
      | ok u => cases hstop
      | error err =>
        exact ⟨w, err, r, hw, hstep, (woven _ w hw).1 _ err r hstep⟩
  · obtain ⟨w, hw, hgone⟩ := (Option.any_eq_true _ _).mp gone
    simp only [Bool.and_eq_true, beq_iff_eq] at hgone
    obtain ⟨⟨⟨houtcomes, hstage⟩, hbound⟩, hlater⟩ := hgone
    obtain ⟨w', hw'⟩ := Option.isSome_iff_exists.mp hlater
    obtain ⟨-, hlost, hclosed⟩ := woven _ w hw
    have herror : .error 1 noRoute ∈ w.cycle.report.outcomes := by
      rw [houtcomes]
      exact List.mem_singleton_self _
    have loaded : w.cycle.stage ≠ .loading := fun h => by simp [h] at hstage
    refine ⟨w, w', hw, herror, hlost _ _ herror, hw', hclosed loaded _ w' hw' ?_⟩
    rw [hbound]
    decide
  · obtain ⟨report, s', memory', ran, calm', hlost⟩ := alone calm fun _ => ⟨1, 0⟩
    have herror : .error 1 noRoute ∈ report.outcomes := by
      rw [ran] at shown
      have outcomes : report.outcomes = [.error 1 noRoute] := Option.some.inj shown
      rw [outcomes]
      exact List.mem_singleton_self _
    exact ⟨report, s', ran, calm', herror, hlost _ _ herror⟩

end World

end FleetDispatch
