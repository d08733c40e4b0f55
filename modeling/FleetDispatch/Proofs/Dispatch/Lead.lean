import FleetDispatch.Proofs.Dispatch.Weave
import FleetDispatch.Proofs.Store.Lead

namespace FleetDispatch

/-- Instants that can stand for one another in either direction. -/
structure Instant.Exchange (k : Keeping) (L : Instant → Instant → Prop) : Prop
    extends Instant.Interchange k L where
  restamped {t u : Instant} : L t u → Restamps u t

namespace Cycle

variable {σ : Type} [ActionRows σ] [Legible σ] [Transcribed σ] {L : Instant → Instant → Prop}
  {e : EndpointId} {b id id' : ActionId} {o : Option ActionId} {c d : Cycle} {r r' : Record}
  {a a' : Action} {wall wall' : Instant} {policy : Policy}

open Ledger (Slot)
open Work (Leads)

theorem leads_checkIn :
    Leads (Near (σ := σ) L e b o)
      (do
        Work.attempt .recordCheckin (ActionRows.recordCheckin e wall)
        return (Ending.commit, c))
      (do
        Work.attempt .recordCheckin (ActionRows.recordCheckin e wall')
        return (Ending.commit, d)) :=
  .map Work.leads_recordCheckin

/-- What an endpoint has pending is read where only others have written as it was read before. -/
theorem leads_load {now : Instant} :
    Leads (Parted (σ := σ) e b) (start e now).load (start e now).load := by
  refine .map (.attempt _ fun s t ps t' hM hload => ?_)
  obtain ⟨hs, ht, m, rfl, rfl, l, rfl, hbeside⟩ := hM
  obtain ⟨rfl, -⟩ := Legible.pending_ok ht hload
  exact ⟨ps, _, (Transcribed.pending_iff ht hs hbeside).mpr hload⟩

section transactions

variable (hwall : L wall wall')

include hwall

theorem leads_giveUp (slot : Slot b o r.actionId id') (here : r.endpoint = e)
    (queued : r.status = .queued) (hrr' : Record.Renumbered L id' r r') (code : Int)
    (message : String) (x x' : Outcome) :
    Leads (Near (σ := σ) L e b o) (c.giveUp r code message wall x)
      (d.giveUp r' code message wall' x') := by
  have queued' : r'.status = .queued := hrr'.same.2.2.1.trans queued
  unfold giveUp
  rw [Record.fail, Record.fail, Record.finish_of_queued queued, Record.finish_of_queued queued']
  exact .map (Work.leads_save slot here (hrr'.finished hwall _ _ _))

theorem leads_spend (slot : Slot b o r.actionId id') (here : r.endpoint = e)
    (queued : r.status = .queued) (hrr' : Record.Renumbered L id' r r') :
    Leads (Near (σ := σ) L e b o) (c.spend r a wall) (d.spend r' a' wall') := by
  obtain ⟨-, -, hstatus, htries⟩ := hrr'.same
  have queued' : r'.status = .queued := hstatus.trans queued
  unfold spend
  rw [htries]
  split
  · exact leads_giveUp hwall slot here queued hrr' _ _ _ _
  · next hn =>
    obtain ⟨n, hr⟩ := Nat.exists_eq_add_of_le' (by omega : 1 ≤ r.remainingTries)
    rw [Record.consume_of_queued queued hr, Record.consume_of_queued queued' (htries.trans hr)]
    exact .map (Work.leads_save slot here (hrr'.withTries n))

variable (hL : Instant.Exchange (Legible.keeping σ) L)

include hL

theorem leads_prepare (slot : Slot b o id id') (h : Alike L b o c d) :
    Leads (Near (σ := σ) L c.endpoint b o) (c.prepare id wall) (d.prepare id' wall') := by
  unfold prepare
  rw [h.endpoint]
  refine .bind (Work.leads_loadRecord (fun _ _ => hL.restamped) slot)
    (Work.follows_loadRecord hL.toInterchange slot) fun found found' => ?_
  refine .knowing fun ⟨hfound, hkey⟩ => ?_
  cases hfound with
  | none => exact .throw _ _
  | @some r r' hrr' =>
    obtain ⟨rfl, here⟩ := hkey r rfl
    obtain ⟨-, -, hstatus, -⟩ := hrr'.same
    have hterminal : r'.isTerminal = r.isTerminal := congrArg Status.isTerminal hstatus
    simp only [hterminal]
    split
    · exact .pure _ _
    · next hopen =>
      have queued : r.status = .queued := by simpa [Record.isTerminal_iff] using hopen
      refine .bind (Work.leads_loadAction (fun _ _ => hL.restamped) slot)
        (Work.follows_loadAction hL.toInterchange slot) fun a a' => ?_
      refine .knowing fun ⟨ha, haa', hfirst⟩ => ?_
      simp only [haa'.same.2.1]
      split
      · exact leads_spend hwall slot here queued hrr'
      · next p hp =>
        refine .bind (Work.leads_loadRecord (fun _ _ => hL.restamped) (hfirst p hp))
          (Work.follows_loadRecord hL.toInterchange (hfirst p hp)) fun prior prior' => ?_
        refine .knowing fun ⟨hprior, _⟩ => ?_
        have hsame : prior'.map Record.status = prior.map Record.status := by
          cases hprior with
          | none => rfl
          | some hpp' => exact congrArg some hpp'.same.2.2.1
        rw [hsame]
        split
        · exact leads_giveUp hwall slot here queued hrr' _ _ _ _
        · exact .pure _ _
        · exact leads_spend hwall slot here queued hrr'

theorem leads_recordResult (slot : Slot b o a.id a'.id) (haa' : Action.Renumbered L a'.id a a')
    (left : Nat) (result : CallResult) (h : Alike L b o c d) :
    Leads (fun s t => (∃ r, (Legible.ledger s).record? a.id c.endpoint = some r ∧
        r.status = .queued) ∧ Near (σ := σ) L c.endpoint b o s t)
      (c.recordResult policy a left result wall) (d.recordResult policy a' left result wall') := by
  obtain ⟨-, -, hprocedure⟩ := haa'.same
  unfold recordResult
  rw [h.endpoint, hprocedure]
  generalize Verdict.ofResult a.procedure result = verdict
  refine .bind ((Work.leads_loadRecord (fun _ _ => hL.restamped) slot).weaken fun _ _ hM => hM.2)
    (Work.follows_loadQueued hL.toInterchange slot) fun found found' => ?_
  refine .knowing fun ⟨r, r', hr, hr', hrr', hid, here, queued⟩ => ?_
  subst hr hr'
  have queued' : r'.status = .queued := hrr'.same.2.2.1.trans queued
  have hslot : Slot b o r.actionId a'.id := hid ▸ slot
  have hfinished := hrr'.finished hwall verdict.status verdict.code verdict.message
  simp only [Record.finish_of_queued queued, Record.finish_of_queued queued']
  refine .bind (Work.leads_save hslot here hfinished) (Work.follows_save hslot here hfinished)
    fun _ _ => ?_
  split
  · refine .bind (Work.leads_loadEndpoint (fun _ _ => hL.restamped) hL.refl)
      (Work.follows_loadEndpoint hL.toInterchange) fun x x' => ?_
    refine .knowing fun ⟨hx, hxx'⟩ => ?_
    exact .bind (Work.leads_saveEndpoint _ _) (Work.follows_saveEndpoint hx hxx'.markRefresh)
      fun _ _ => leads_checkIn
  · exact leads_checkIn

theorem leads_refresh (hdated : wall.IsDated) (hdated' : wall'.IsDated) (open_ : o = none)
    (h : Alike L b o c d) :
    Leads (Near (σ := σ) L c.endpoint b o) (c.refresh policy wall) (d.refresh policy wall') := by
  subst open_
  unfold refresh
  rw [h.endpoint, h.now]
  refine .bind (Work.leads_loadEndpoint (fun _ _ => hL.restamped) hL.refl)
    (Work.follows_loadEndpoint hL.toInterchange) fun x x' => ?_
  refine .knowing fun ⟨hx, hxx'⟩ => ?_
  rw [hxx'.needsRefresh]
  split
  · refine .bind (Work.leads_insertAction rfl rfl hdated)
      (Work.follows_insertAction hL.refl hwall rfl rfl hdated') fun new new' => ?_
    refine .knowing fun hid => ?_
    exact .map (Work.leads_saveEndpoint _ _)
  · exact .pure _ _

theorem Alike.leads (hdated : wall.IsDated) (hdated' : wall'.IsDated) (h : Alike L b o c d)
    {w w' : Work σ (Ending × Cycle)} (hw : c.work? policy wall = some w)
    (hw' : d.work? policy wall' = some w') :
    Leads (fun s t => c.Busy (Legible.ledger s) ∧ Near L c.endpoint b o s t) w w' := by
  have hstage := h.stage
  unfold work? at hw hw'
  generalize hc : c.stage = x at hstage hw
  generalize hd : d.stage = y at hstage hw'
  cases hstage with
  | preparing slot =>
    obtain rfl := Option.some.inj hw
    obtain rfl := Option.some.inj hw'
    exact (leads_prepare hwall hL slot h).weaken fun _ _ hM => hM.2
  | recording slot haa' left result =>
    obtain rfl := Option.some.inj hw
    obtain rfl := Option.some.inj hw'
    exact (leads_recordResult hwall hL slot haa' left result h).weaken
      fun _ _ hM => ⟨hM.1 _ (by rw [task?, hc]), hM.2⟩
  | refreshing open_ =>
    obtain rfl := Option.some.inj hw
    obtain rfl := Option.some.inj hw'
    exact (leads_refresh hwall hL hdated hdated' open_ h).weaken fun _ _ hM => hM.2
  | checkingIn =>
    obtain rfl := Option.some.inj hw
    obtain rfl := Option.some.inj hw'
    have hcheckIn : Leads (Near (σ := σ) L c.endpoint b o) (c.checkIn wall) (d.checkIn wall') := by
      unfold checkIn
      rw [h.endpoint]
      exact leads_checkIn
    exact hcheckIn.weaken fun _ _ hM => hM.2
  | calling | pinging | closed => cases hw

end transactions

section step

variable {χ : Type} {channel : Channel χ} {s t t' : Store σ} {p q q' : Run σ χ}

omit [ActionRows σ] [Legible σ] [Transcribed σ] in
theorem transact_leads {M : σ → σ → Prop} {w w' : Work σ (Ending × Cycle)} {d' : Cycle}
    (hleads : Leads M w w') (hM : M s.rows t.rows) (calm : s.Calm) (calm' : t.Calm)
    (h : t.transact w' = (.ok d', t')) : ∃ c' s', s.transact w = (.ok c', s') := by
  obtain ⟨ending, d, hw'⟩ := calm'.of_transact h
  obtain ⟨⟨ending', c'⟩, rows, hw⟩ := hleads hM hw'
  exact ⟨c', _, calm.transact hw⟩

theorem Abreast.leads (hL : Instant.Exchange (Legible.keeping σ) L) (hwall : L wall wall')
    (hdated : wall.IsDated) (hdated' : wall'.IsDated) (h : Abreast L b o p q)
    (calm : p.store.Calm) (hstep : Cycle.step policy wall' channel q = (.ok (), q')) :
    ∃ p', Cycle.step policy wall channel p = (.ok (), p') := by
  unfold Cycle.step at hstep ⊢
  split
  · next w hw =>
    obtain ⟨w', hw', -⟩ := h.cycle.follows hwall hL.toInterchange hdated' hw
    rw [hw'] at hstep
    simp only at hstep
    split at hstep
    · cases hstep
    · next d' t' ht =>
      obtain ⟨c', s', hs⟩ := transact_leads (h.cycle.leads hwall hL hdated hdated' hw hw')
        ⟨h.busy, h.near⟩ calm h.calm ht
      exact ⟨_, by rw [hs]⟩
  · split
    · exact ⟨_, rfl⟩
    · exact ⟨_, rfl⟩
    · exact ⟨_, rfl⟩

theorem loads_of_parted {now : Instant} {memory memory' : χ}
    (parted : Parted e b s.rows t.rows) (calm : s.Calm) (calm' : t.Calm)
    (hstep : Cycle.step policy wall' channel ⟨start e now, t, memory⟩ = (.ok (), q')) :
    ∃ p', Cycle.step policy wall channel ⟨start e now, s, memory'⟩ = (.ok (), p') := by
  have hw (wall : Instant) :
      (start e now).work? policy wall = some ((start e now).load (σ := σ)) := rfl
  unfold Cycle.step at hstep ⊢
  simp only [hw] at hstep ⊢
  split at hstep
  · cases hstep
  · next d' t' ht =>
    obtain ⟨c', s', hs⟩ := transact_leads leads_load parted calm calm' ht
    exact ⟨_, by rw [hs]⟩

end step

end Cycle

section alone

variable {σ χ : Type} [ActionRows σ] [Legible σ] [Transcribed σ] {policy : Policy}
  {channel : Cycle.Channel χ} {w : Weave σ χ} {e : EndpointId} {L : Instant → Instant → Prop}
  {clock : Nat → Instant} {wall now : Instant} {w₀ : World σ} {memory : χ} {err : StoreError}
  {r : Cycle.Run σ χ}

theorem Instant.exchange_standsFor (dated : ∀ i, (clock i).IsDated) :
    Exchange (Legible.keeping σ) (StandsFor (Legible.keeping σ) IsDated clock) where
  toInterchange := interchange_standsFor dated
  restamped h := by
    cases h with
    | same => exact .inl rfl
    | shown ht => exact .inr ht
    | kept ht => exact .inr (Transcribed.dated_time ht)

theorem Weave.Alone.fails (hL : Instant.Exchange (Legible.keeping σ) L)
    (hwall : ∀ i, L wall (clock i)) (hdated : wall.IsDated) (dated : ∀ i, (clock i).IsDated)
    (hs : w₀.Sound) (calm₀ : w₀.store.Calm) (calm : w.world.store.Calm)
    (h : w.Alone L policy channel clock e now w₀ memory)
    (failed : Cycle.step policy wall channel w.run = (.error err, r)) :
    ∃ err' s' memory', Cycle.runAt policy channel clock e now w₀.store memory =
      (.error err', s', memory') := by
  -- a step of the lone run that fails is found, and then the whole run fails with it
  suffices ∃ n q err' q', Cycle.driveAt policy channel n clock
      ⟨Cycle.start e now, w₀.store, memory⟩ = (.ok (), q) ∧
        Cycle.step policy (clock n) channel q = (.error err', q') by
    obtain ⟨n, q, err', q', made, stopped⟩ := this
    exact ⟨err', _, _, (Cycle.runAt_error hs).mpr ⟨n, q, q', made, stopped, rfl, rfl⟩⟩
  cases h with
  | waiting start still parted =>
    rw [run, start, still] at failed
    cases hnext : Cycle.step policy (clock 0) channel ⟨Cycle.start e now, w₀.store, memory⟩ with
    | mk answer q' =>
      cases answer with
      | error err' => exact ⟨0, _, err', q', rfl, hnext⟩
      | ok u =>
        obtain ⟨p', hstep⟩ := Cycle.loads_of_parted parted calm calm₀ hnext
        cases failed.symm.trans hstep
  | @going n o q here made abreast =>
    cases hnext : Cycle.step policy (clock n) channel q with
    | mk answer q' =>
      cases answer with
      | error err' => exact ⟨n, q, err', q', made, hnext⟩
      | ok u =>
        -- had the lone run made its step, the one among others would have gone through as well
        obtain ⟨p', hstep⟩ := abreast.leads hL (hwall n) hdated (dated n) calm hnext
        cases failed.symm.trans hstep

namespace World

/-- Others cannot make a cycle fail. Where nothing is planned to fail and all clocks are those of a
calendar, a cycle of which a step fails among moves that leave its endpoint alone comes to no report
alone from the same state either. -/
theorem cycle_unhindered (events : List Event) (policy : Policy) (channel : Cycle.Channel χ)
    (e : EndpointId) (now : Instant) (memory : χ) {strokes : List Stroke} {w : Weave σ χ}
    (woven : Weave.weave policy channel e now (through events) memory strokes = some w)
    (own : ∀ t, Stroke.own t ∈ strokes → t.IsDated) (hdated : wall.IsDated)
    (dated : ∀ i, (clock i).IsDated) (calm₀ : (through events : World σ).store.Calm)
    (calm : w.world.store.Calm)
    (failed : Cycle.step policy wall channel w.run = (.error err, r)) :
    ∃ err' s' memory', Cycle.runAt policy channel clock e now (through events : World σ).store
      memory = (.error err', s', memory') := by
  have hs : (through events : World σ).Sound := sound_through events
  have hL := Instant.exchange_standsFor (σ := σ) dated
  have halone := alone_weave hL.toInterchange (fun t i ht => .shown (own t ht) i) dated hs calm₀
    woven
  exact halone.fails hL (fun i => .shown hdated i) hdated dated hs calm₀ calm failed

end World

end alone

end FleetDispatch
