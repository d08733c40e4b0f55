import FleetDispatch.Proofs.Store.Near

namespace FleetDispatch

section back

variable {L L' : Instant → Instant → Prop} {id : ActionId} {r s : Record} {a b : Action}
  {x y : Endpoint}

theorem option_rel_flip {α : Type} {R S : α → α → Prop} {x y : Option α}
    (hRS : ∀ a b, R a b → S b a) (h : Option.Rel R x y) : Option.Rel S y x := by
  cases h with
  | none => exact .none
  | some hab => exact .some (hRS _ _ hab)

theorem option_rel_none_right {α : Type} {R : α → α → Prop} {x : Option α}
    (h : Option.Rel R x none) : x = none := by
  cases h
  rfl

theorem option_rel_some_right {α : Type} {R : α → α → Prop} {x : Option α} {b : α}
    (h : Option.Rel R x (some b)) : ∃ a, x = some a ∧ R a b := by
  cases h with
  | some hab => exact ⟨_, rfl, hab⟩

variable (hL : ∀ t u, L t u → L' u t)

include hL

theorem Record.Renumbered.back (h : Record.Renumbered L id r s) :
    Record.Renumbered L' r.actionId s r := by
  obtain ⟨t, ht, rfl⟩ := h
  exact ⟨r.completedAt, option_rel_flip hL ht, rfl⟩

theorem Action.Renumbered.back (h : Action.Renumbered L id a b) :
    Action.Renumbered L' a.id b a := by
  obtain ⟨t, ht, rfl⟩ := h
  exact ⟨a.createdAt, hL _ _ ht, rfl⟩

theorem Endpoint.Twin.back (h : Endpoint.Twin L x y) : Endpoint.Twin L' y x := by
  obtain ⟨t, ht, rfl⟩ := h
  exact ⟨x.lastCheckin, option_rel_flip hL ht, rfl⟩

end back

namespace Work

variable {σ α β γ δ : Type} {M : σ → σ → Prop} {R : α → β → σ → σ → Prop} {p : Work σ α}
  {q : Work σ β}

/-- Work that goes through wherever the work that follows it does, on related rows of which no
operation is to fail. -/
def Leads (M : σ → σ → Prop) (p : Work σ α) (q : Work σ β) : Prop :=
  ∀ ⦃s t b d⦄, M s t → q ⟨t, []⟩ = .ok b d → ∃ a s', p ⟨s, []⟩ = .ok a ⟨s', []⟩

namespace Leads

theorem pure (a : α) (q : Work σ β) : Leads M (Pure.pure a) q :=
  fun s _ _ _ _ _ => ⟨a, s, rfl⟩

theorem throw (p : Work σ α) (err : StoreError) :
    Leads M p (MonadExcept.throw err : Work σ β) :=
  fun _ _ _ _ _ h => nomatch h

theorem bind {f : α → Work σ γ} {g : β → Work σ δ} (h : Leads M p q) (follows : Follows M R p q)
    (hfg : ∀ a b, Leads (R a b) (f a) (g b)) : Leads M (p >>= f) (q >>= g) := by
  intro s t y d hM hy
  change EStateM.bind q g _ = _ at hy
  unfold EStateM.bind at hy
  cases hq : q ⟨t, []⟩ with
  | error err d' =>
    rw [hq] at hy
    cases hy
  | ok b d' =>
    rw [hq] at hy
    obtain ⟨a, mid, hp⟩ := h hM hq
    obtain ⟨b', mid', hq', hR⟩ := follows hM ⟨_, _, hp⟩
    cases hq.symm.trans hq'
    obtain ⟨x, s', hf⟩ := hfg a b hR hy
    refine ⟨x, s', ?_⟩
    change EStateM.bind p f _ = _
    unfold EStateM.bind
    rw [hp]
    exact hf

theorem map {f : α → γ} {g : β → δ} (h : Leads M p q) :
    Leads M (p >>= fun a => Pure.pure (f a)) (q >>= fun b => Pure.pure (g b)) := by
  intro s t y d hM hy
  change EStateM.bind q _ _ = _ at hy
  unfold EStateM.bind at hy
  cases hq : q ⟨t, []⟩ with
  | error err d' =>
    rw [hq] at hy
    cases hy
  | ok b d' =>
    obtain ⟨a, s', hp⟩ := h hM hq
    refine ⟨f a, s', ?_⟩
    change EStateM.bind p _ _ = _
    unfold EStateM.bind
    rw [hp]
    rfl

theorem attempt {f : Script σ α} {g : Script σ β} (op : StoreOperation)
    (h : ∀ s t b t', M s t → g t = .ok b t' → ∃ a s', f s = .ok a s') :
    Leads M (Work.attempt op f) (Work.attempt op g) := by
  intro s t b d hM hq
  obtain ⟨a, s', hf⟩ := h s t b d.rows hM (yields_attempt ⟨_, _, hq⟩)
  exact ⟨a, s', attempt_unplanned hf⟩

theorem knowing {A : Prop} (h : A → Leads M p q) : Leads (fun s t => A ∧ M s t) p q :=
  fun _ _ _ _ hM hq => h hM.1 hM.2 hq

theorem weaken {M' : σ → σ → Prop} (hM : ∀ s t, M' s t → M s t) (h : Leads M p q) :
    Leads M' p q :=
  fun s t _ _ hM' hq => h (hM s t hM') hq

end Leads

end Work

open Ledger (Slot)
open Transcribed (transcript)

namespace Work

variable {σ : Type} [ActionRows σ] [Legible σ] [Transcribed σ] {L : Instant → Instant → Prop}
  {e : EndpointId} {b id id' : ActionId} {o : Option ActionId} {wall wall' : Instant}

section read

variable (hL : ∀ t u, L t u → Instant.Restamps u t)

include hL

theorem leads_loadRecord (slot : Slot b o id id') :
    Leads (Near (σ := σ) L e b o) (attempt .loadRecord (ActionRows.loadRecord id e))
      (attempt .loadRecord (ActionRows.loadRecord id' e)) := by
  refine .attempt _ fun s t found t' h hload => ?_
  obtain ⟨l, m, rfl, rfl, same⟩ := h.same
  have hrel := same.record id id' slot
  rcases (Transcribed.loadRecord_iff.mp hload).2 with ⟨hnone, rfl⟩ | ⟨r', x, hsome, hread, rfl⟩
  · rw [hnone] at hrel
    have hl := option_rel_none_right hrel
    exact ⟨none, _, Transcribed.loadRecord_iff.mpr ⟨rfl, .inl ⟨hl, rfl⟩⟩⟩
  · rw [hsome] at hrel
    obtain ⟨r, hl, hrr'⟩ := option_rel_some_right hrel
    obtain ⟨y, hread'⟩ := Transcribed.readRecord_again r.actionId hread (hrr'.back hL)
    exact ⟨some y, _, Transcribed.loadRecord_iff.mpr ⟨rfl, .inr ⟨r, y, hl, hread', rfl⟩⟩⟩

theorem leads_loadAction (slot : Slot b o id id') :
    Leads (Near (σ := σ) L e b o) (attempt .loadAction (ActionRows.loadAction id))
      (attempt .loadAction (ActionRows.loadAction id')) := by
  refine .attempt _ fun s t a' t' h hload => ?_
  obtain ⟨l, m, rfl, rfl, same⟩ := h.same
  obtain ⟨-, x', hsome, hread⟩ := Transcribed.loadAction_iff.mp hload
  have hrel := same.action id id' slot
  rw [hsome] at hrel
  obtain ⟨x, hl, hxx'⟩ := option_rel_some_right hrel
  obtain ⟨a, hread'⟩ := Transcribed.readAction_again x.id hread (hxx'.back hL)
  exact ⟨a, _, Transcribed.loadAction_iff.mpr ⟨rfl, x, hl, hread'⟩⟩

theorem leads_loadEndpoint (hrefl : ∀ t, L t t) :
    Leads (Near (σ := σ) L e b o) (attempt .loadEndpoint (ActionRows.loadEndpoint e))
      (attempt .loadEndpoint (ActionRows.loadEndpoint e)) := by
  refine .attempt _ fun s t x' t' h hload => ?_
  obtain ⟨l, m, rfl, rfl, same⟩ := h.same
  obtain ⟨-, hread⟩ := Transcribed.loadEndpoint_iff.mp hload
  obtain ⟨x, hread'⟩ :=
    Transcribed.readEndpoint_again hread ((same.endpoint_twin hrefl).back hL)
  exact ⟨x, _, Transcribed.loadEndpoint_iff.mpr ⟨rfl, hread'⟩⟩

end read

theorem leads_save {r r' : Record} (slot : Slot b o r.actionId id') (hr : r.endpoint = e)
    (hrr' : Record.Renumbered L id' r r') :
    Leads (Near (σ := σ) L e b o) (attempt .save (ActionRows.save r))
      (attempt .save (ActionRows.save r')) := by
  refine .attempt _ fun s t u t' h hsave => ?_
  obtain ⟨l, m, rfl, rfl, same⟩ := h.same
  obtain ⟨hid, hendpoint, -⟩ := hrr'.same
  obtain ⟨found, -⟩ := Transcribed.save_iff.mp hsave
  obtain ⟨old', hold'⟩ := Option.isSome_iff_exists.mp found
  have hrel := same.record r.actionId id' slot
  rw [← hr, ← hid, ← hendpoint, hold'] at hrel
  obtain ⟨old, hold, -⟩ := option_rel_some_right hrel
  refine ⟨(), _, Transcribed.save_iff.mpr ⟨?_, rfl⟩⟩
  rw [← hendpoint, hold]
  rfl

theorem leads_saveEndpoint (x x' : Endpoint) :
    Leads (Near (σ := σ) L e b o) (attempt .saveEndpoint (ActionRows.saveEndpoint x))
      (attempt .saveEndpoint (ActionRows.saveEndpoint x')) := by
  refine .attempt _ fun s t u t' h _ => ?_
  obtain ⟨l, m, rfl, rfl, -⟩ := h.same
  exact ⟨(), _, Transcribed.saveEndpoint_eq l x⟩

theorem leads_recordCheckin :
    Leads (Near (σ := σ) L e b o) (attempt .recordCheckin (ActionRows.recordCheckin e wall))
      (attempt .recordCheckin (ActionRows.recordCheckin e wall')) := by
  refine .attempt _ fun s t u t' h _ => ?_
  have hsound := h.sound
  obtain ⟨l, m, rfl, rfl, -⟩ := h.same
  exact ⟨(), _, Transcribed.recordCheckin_eq e wall hsound⟩

theorem leads_insertAction {n : NewAction} (hprerequisite : n.prerequisite = none)
    (hendpoints : n.endpoints = [e]) (hdated : wall.IsDated) :
    Leads (Near (σ := σ) L e b o) (attempt .insertAction (ActionRows.insertAction wall n))
      (attempt .insertAction (ActionRows.insertAction wall' n)) := by
  refine .attempt _ fun s t a' t' h hinsert => ?_
  have hsound := h.sound
  obtain ⟨l, m, rfl, rfl, -⟩ := h.same
  obtain ⟨a, hinserted⟩ := Transcribed.insertAction_again hinsert hdated hprerequisite hendpoints
    (record?_transcript_eq_none hsound (Int.lt_succ l.lastId))
  exact ⟨a, _, hinserted⟩

end Work

end FleetDispatch
