import FleetDispatch.Proofs.Store.Serving
import FleetDispatch.Proofs.Store.Transcript

namespace FleetDispatch

/-- Instants that can stand for one another in stores that keep their times alike. -/
structure Instant.Interchange (k : Keeping) (L : Instant → Instant → Prop) : Prop where
  refl (t : Instant) : L t t
  restamps {t u : Instant} : L t u → Restamps t u
  kept {t u : Instant} : L t u → L (k.time t) (k.time u)

namespace Work

variable {σ α β γ δ : Type} {M : σ → σ → Prop} {R : α → β → σ → σ → Prop}
  {S : γ → δ → σ → σ → Prop} {p : Work σ α} {q : Work σ β}

/-- Work that goes through wherever the other work does, on related rows of which no operation is
to fail, and with a related answer. -/
def Follows (M : σ → σ → Prop) (R : α → β → σ → σ → Prop) (p : Work σ α) (q : Work σ β) : Prop :=
  ∀ ⦃s t a s'⦄, M s t → p.Yields s a s' → ∃ b t', q ⟨t, []⟩ = .ok b ⟨t', []⟩ ∧ R a b s' t'

namespace Follows

theorem pure {a : α} {b : β} (h : ∀ s t, M s t → R a b s t) :
    Follows M R (Pure.pure a) (Pure.pure b) := by
  intro s t a' s' hM hy
  obtain ⟨rfl, rfl⟩ := yields_pure hy
  exact ⟨b, t, rfl, h s' t hM⟩

theorem throw (err : StoreError) : Follows M R (MonadExcept.throw err) q :=
  fun _ _ _ _ _ hy => absurd hy not_yields_throw

theorem bind {f : α → Work σ γ} {g : β → Work σ δ} (h : Follows M R p q)
    (hfg : ∀ a b, Follows (R a b) S (f a) (g b)) : Follows M S (p >>= f) (q >>= g) := by
  intro s t x s' hM hy
  obtain ⟨a, mid, hp, hf⟩ := yields_bind hy
  obtain ⟨b, mid', hq, hR⟩ := h hM hp
  obtain ⟨y, t', hg, hS⟩ := hfg a b hR hf
  refine ⟨y, t', ?_, hS⟩
  change EStateM.bind q g _ = _
  unfold EStateM.bind
  rw [hq]
  exact hg

theorem attempt {f : Script σ α} {g : Script σ β} (op : StoreOperation)
    (h : ∀ s t a s', M s t → f s = .ok a s' → ∃ b t', g t = .ok b t' ∧ R a b s' t') :
    Follows M R (Work.attempt op f) (Work.attempt op g) := by
  intro s t a s' hM hy
  obtain ⟨b, t', hg, hR⟩ := h s t a s' hM (yields_attempt hy)
  exact ⟨b, t', attempt_unplanned hg, hR⟩

theorem knowing {A : Prop} (h : A → Follows M R p q) : Follows (fun s t => A ∧ M s t) R p q :=
  fun _ _ _ _ hM hy => h hM.1 hM.2 hy

theorem weaken {M' : σ → σ → Prop} (hM : ∀ s t, M' s t → M s t) (h : Follows M R p q) :
    Follows M' R p q :=
  fun s t _ _ hM' hy => h (hM s t hM') hy

end Follows

end Work

section kept

variable {k : Keeping} {L L' : Instant → Instant → Prop} {id : ActionId} {r s : Record}
  {a b : Action} {x y : Endpoint}

theorem option_rel_none {α : Type} {R : α → α → Prop} {y : Option α} (h : Option.Rel R none y) :
    y = none := by
  cases h
  rfl

theorem option_rel_some {α : Type} {R : α → α → Prop} {a : α} {y : Option α}
    (h : Option.Rel R (some a) y) : ∃ b, y = some b ∧ R a b := by
  cases h with
  | some hab => exact ⟨_, rfl, hab⟩

theorem option_rel_mono {α : Type} {R S : α → α → Prop} {x y : Option α}
    (hRS : ∀ a b, R a b → S a b) (h : Option.Rel R x y) : Option.Rel S x y := by
  cases h with
  | none => exact .none
  | some hab => exact .some (hRS _ _ hab)

theorem option_rel_map {α : Type} {R : α → α → Prop} {f : α → α} {x y : Option α}
    (hf : ∀ a b, R a b → R (f a) (f b)) (h : Option.Rel R x y) :
    Option.Rel R (x.map f) (y.map f) := by
  cases h with
  | none => exact .none
  | some hab => exact .some (hf _ _ hab)

theorem Record.Renumbered.mono (hL : ∀ t u, L t u → L' t u) (h : Record.Renumbered L id r s) :
    Record.Renumbered L' id r s := by
  obtain ⟨t, ht, rfl⟩ := h
  exact ⟨t, option_rel_mono hL ht, rfl⟩

theorem Action.Renumbered.mono (hL : ∀ t u, L t u → L' t u) (h : Action.Renumbered L id a b) :
    Action.Renumbered L' id a b := by
  obtain ⟨t, ht, rfl⟩ := h
  exact ⟨t, hL _ _ ht, rfl⟩

theorem Endpoint.Twin.mono (hL : ∀ t u, L t u → L' t u) (h : Endpoint.Twin L x y) :
    Endpoint.Twin L' x y := by
  obtain ⟨t, ht, rfl⟩ := h
  exact ⟨t, option_rel_mono hL ht, rfl⟩

variable (hL : ∀ t u, L t u → L (k.time t) (k.time u))

include hL

theorem Record.Renumbered.kept (h : Record.Renumbered L id r s) :
    Record.Renumbered L id (r.kept k) (s.kept k) := by
  obtain ⟨t, ht, rfl⟩ := h
  exact ⟨t.map k.time, option_rel_map hL ht, rfl⟩

theorem Action.Renumbered.kept (h : Action.Renumbered L id a b) :
    Action.Renumbered L id (a.kept k) (b.kept k) := by
  obtain ⟨t, ht, rfl⟩ := h
  exact ⟨k.time t, hL _ _ ht, rfl⟩

theorem Endpoint.Twin.kept (h : Endpoint.Twin L x y) : Endpoint.Twin L (x.kept k) (y.kept k) := by
  obtain ⟨t, ht, rfl⟩ := h
  exact ⟨t.map k.time, option_rel_map hL ht, rfl⟩

theorem Ledger.SameFor.kept {e : EndpointId} {b : ActionId} {o : Option ActionId} {l m : Ledger}
    (h : SameFor L e b o l m) : SameFor L e b o (l.kept k) (m.kept k) where
  lastId := h.lastId
  first := h.first
  own id hid := by
    obtain ⟨hb, hle, a, ha, hprerequisite⟩ := h.own id hid
    refine ⟨hb, hle, a.kept k, ?_, hprerequisite⟩
    rw [action?_kept, ha, Option.map_some]
  action id id' slot := by
    rw [action?_kept, action?_kept]
    exact option_rel_map (fun _ _ hab => hab.kept hL) (h.action id id' slot)
  record id id' slot := by
    rw [record?_kept, record?_kept]
    exact option_rel_map (fun _ _ hrs => hrs.kept hL) (h.record id id' slot)
  absent id hid hother := by rw [record?_kept, h.absent id hid hother, Option.map_none]
  endpoint := by
    rw [endpoint?_kept, endpoint?_kept]
    exact option_rel_map (fun _ _ hxy => hxy.kept hL) h.endpoint

end kept

open Ledger (Slot SameFor)
open Transcribed (transcript)

variable {σ : Type} [ActionRows σ] [Legible σ] [Transcribed σ]

/-- Rows that are transcripts of ledgers that show the same of one endpoint. -/
structure Near (L : Instant → Instant → Prop) (e : EndpointId) (b : ActionId) (o : Option ActionId)
    (s t : σ) : Prop where
  sound : Legible.Sound s
  sound' : Legible.Sound t
  same : ∃ l m, transcript l = s ∧ transcript m = t ∧ SameFor L e b o l m

theorem record?_transcript_eq_none {e : EndpointId} {id : ActionId} {m : Ledger}
    (hm : Legible.Sound (transcript m : σ)) (hid : m.lastId < id) : m.record? id e = none := by
  have hnone : (Legible.ledger (transcript m : σ)).lastId < id →
      (Legible.ledger (transcript m : σ)).record? id e = none :=
    (Legible.wellFormed hm).record?_eq_none
  rw [Transcribed.ledger_transcript, Ledger.record?_kept] at hnone
  exact Option.map_eq_none_iff.mp (hnone hid)

namespace Work

variable {L : Instant → Instant → Prop} {e : EndpointId} {b id id' : ActionId} {o : Option ActionId}
  {wall wall' : Instant}

section read

variable (hL : Instant.Interchange (Legible.keeping σ) L)

include hL

theorem follows_loadRecord (slot : Slot b o id id') :
    Follows (Near L e b o) (fun found found' (s t : σ) =>
        (Option.Rel (Record.Renumbered L id') found found' ∧
          ∀ r, found = some r → r.actionId = id ∧ r.endpoint = e) ∧ Near L e b o s t)
      (attempt .loadRecord (ActionRows.loadRecord id e))
      (attempt .loadRecord (ActionRows.loadRecord id' e)) := by
  refine .attempt _ fun s t found s' h hload => ?_
  obtain ⟨rfl, hstands⟩ := Legible.loadRecord_ok h.sound hload
  have hkey : ∀ r, found = some r → r.actionId = id ∧ r.endpoint = e := by
    rintro r rfl
    exact ⟨Ledger.actionId_of_record? hstands, Ledger.endpoint_of_record? hstands⟩
  obtain ⟨l, m, rfl, rfl, same⟩ := h.same
  have hrel := same.record id id' slot
  rcases (Transcribed.loadRecord_iff.mp hload).2 with ⟨hnone, rfl⟩ | ⟨r, x, hsome, hread, rfl⟩
  · rw [hnone] at hrel
    have hm := option_rel_none hrel
    exact ⟨none, _, Transcribed.loadRecord_iff.mpr ⟨rfl, .inl ⟨hm, rfl⟩⟩, ⟨.none, hkey⟩, h⟩
  · rw [hsome] at hrel
    obtain ⟨r', hm, hrr'⟩ := option_rel_some hrel
    obtain ⟨y, hread'⟩ := Transcribed.readRecord_again id' hread (hrr'.mono fun _ _ => hL.restamps)
    refine ⟨some y, _, Transcribed.loadRecord_iff.mpr ⟨rfl, .inr ⟨r', y, hm, hread', rfl⟩⟩,
      ⟨.some ?_, hkey⟩, h⟩
    rw [Transcribed.readRecord_eq hread, Transcribed.readRecord_eq hread']
    exact hrr'.kept fun _ _ => hL.kept

theorem follows_loadQueued (slot : Slot b o id id') :
    Follows (fun (s t : σ) => (∃ r, (Legible.ledger s).record? id e = some r ∧
        r.status = .queued) ∧ Near L e b o s t)
      (fun found found' (s t : σ) => (∃ r r', found = some r ∧ found' = some r' ∧
        Record.Renumbered L id' r r' ∧ r.actionId = id ∧ r.endpoint = e ∧ r.status = .queued) ∧
          Near L e b o s t)
      (attempt .loadRecord (ActionRows.loadRecord id e))
      (attempt .loadRecord (ActionRows.loadRecord id' e)) := by
  rintro s t found s' ⟨⟨r, hr, queued⟩, h⟩ hy
  obtain ⟨found', t', hload, ⟨hfound, hkey⟩, hnear⟩ := follows_loadRecord hL slot h hy
  obtain ⟨-, hstands⟩ := Legible.loadRecord_ok h.sound (yields_attempt hy)
  obtain rfl := hr.symm.trans hstands
  obtain ⟨r', rfl, hrr'⟩ := option_rel_some hfound
  obtain ⟨hid, here⟩ := hkey r rfl
  exact ⟨_, t', hload, ⟨r, r', rfl, rfl, hrr', hid, here, queued⟩, hnear⟩

/-- What an action waits for is one of the first actions. -/
theorem follows_loadAction (slot : Slot b o id id') :
    Follows (Near L e b o) (fun a a' (s t : σ) =>
        (a.id = id ∧ Action.Renumbered L id' a a' ∧
          ∀ p, a.prerequisite = some p → Slot b o p p) ∧ Near L e b o s t)
      (attempt .loadAction (ActionRows.loadAction id))
      (attempt .loadAction (ActionRows.loadAction id')) := by
  refine .attempt _ fun s t a s' h hload => ?_
  obtain ⟨rfl, hstands⟩ := Legible.loadAction_ok h.sound hload
  obtain ⟨l, m, rfl, rfl, same⟩ := h.same
  obtain ⟨-, x, hsome, hread⟩ := Transcribed.loadAction_iff.mp hload
  have hrel := same.action id id' slot
  rw [hsome] at hrel
  obtain ⟨x', hm, hxx'⟩ := option_rel_some hrel
  obtain ⟨a', hread'⟩ := Transcribed.readAction_again id' hread (hxx'.mono fun _ _ => hL.restamps)
  refine ⟨a', _, Transcribed.loadAction_iff.mpr ⟨rfl, x', hm, hread'⟩,
    ⟨Ledger.id_of_action? hstands, ?_, ?_⟩, h⟩
  · rw [Transcribed.readAction_eq hread, Transcribed.readAction_eq hread']
    exact hxx'.kept fun _ _ => hL.kept
  · intro p hp
    -- an action waits for an older one, and a checkpoint for none
    rcases slot with ⟨hle, -⟩ | ⟨hown, -⟩
    · have hlt := ((Legible.wellFormed h.sound).prerequisite_lt hstands hp).2
      exact .inl ⟨Int.le_trans (Int.le_of_lt hlt) hle, rfl⟩
    · obtain ⟨-, -, y, hy, hnone⟩ := same.own id hown
      obtain rfl := Option.some.inj (hy.symm.trans hsome)
      rw [Transcribed.readAction_eq hread] at hp
      exact absurd (hnone.symm.trans hp) nofun

theorem follows_loadEndpoint :
    Follows (Near L e b o) (fun x x' (s t : σ) =>
        (x.id = e ∧ Endpoint.Twin L x x') ∧ Near L e b o s t)
      (attempt .loadEndpoint (ActionRows.loadEndpoint e))
      (attempt .loadEndpoint (ActionRows.loadEndpoint e)) := by
  refine .attempt _ fun s t x s' h hload => ?_
  obtain ⟨l, m, rfl, rfl, same⟩ := h.same
  obtain ⟨rfl, hread⟩ := Transcribed.loadEndpoint_iff.mp hload
  have htwin := same.endpoint_twin hL.refl
  obtain ⟨x', hread'⟩ := Transcribed.readEndpoint_again hread (htwin.mono fun _ _ => hL.restamps)
  refine ⟨x', _, Transcribed.loadEndpoint_iff.mpr ⟨rfl, hread'⟩, ?_, h⟩
  rw [Transcribed.readEndpoint_eq hread, Transcribed.readEndpoint_eq hread']
  exact ⟨Ledger.id_endpoint e l, htwin.kept fun _ _ => hL.kept⟩

end read

theorem follows_save {r r' : Record} (slot : Slot b o r.actionId id') (hr : r.endpoint = e)
    (hrr' : Record.Renumbered L id' r r') :
    Follows (Near L e b o) (fun _ _ (s t : σ) => Near L e b o s t)
      (attempt .save (ActionRows.save r)) (attempt .save (ActionRows.save r')) := by
  refine .attempt _ fun s t u s' h hsave => ?_
  have hs' := (Legible.save_ok h.sound hsave).1
  obtain ⟨l, m, rfl, rfl, same⟩ := h.same
  obtain ⟨found, rfl⟩ := Transcribed.save_iff.mp hsave
  obtain ⟨old, hold⟩ := Option.isSome_iff_exists.mp found
  have hrel := same.record r.actionId id' slot
  rw [← hr, hold] at hrel
  obtain ⟨old', hold', -⟩ := option_rel_some hrel
  obtain ⟨hid, hendpoint, -⟩ := hrr'.same
  have hsaved : ActionRows.save r' (transcript m : σ) = .ok () (transcript (m.putRecord r')) := by
    refine Transcribed.save_iff.mpr ⟨?_, rfl⟩
    rw [hid, hendpoint, hold']
    rfl
  exact ⟨(), _, hsaved, hs', (Legible.save_ok h.sound' hsaved).1, _, _, rfl, rfl,
    same.putRecord slot hr hrr'⟩

theorem follows_saveEndpoint {x x' : Endpoint} (hx : x.id = e) (hxx' : Endpoint.Twin L x x') :
    Follows (Near L e b o) (fun _ _ (s t : σ) => Near L e b o s t)
      (attempt .saveEndpoint (ActionRows.saveEndpoint x))
      (attempt .saveEndpoint (ActionRows.saveEndpoint x')) := by
  refine .attempt _ fun s t u s' h hsave => ?_
  have hs' := (Legible.saveEndpoint_ok h.sound hsave).1
  obtain ⟨l, m, rfl, rfl, same⟩ := h.same
  rw [Transcribed.saveEndpoint_eq] at hsave
  cases hsave
  have hsaved := Transcribed.saveEndpoint_eq (σ := σ) m x'
  exact ⟨(), _, hsaved, hs', (Legible.saveEndpoint_ok h.sound' hsaved).1, _, _, rfl, rfl,
    same.putEndpoint hx hxx'⟩

section write

variable (hL : ∀ t, L t t) (hwall : L wall wall')

include hL hwall

theorem follows_recordCheckin :
    Follows (Near L e b o) (fun _ _ (s t : σ) => Near L e b o s t)
      (attempt .recordCheckin (ActionRows.recordCheckin e wall))
      (attempt .recordCheckin (ActionRows.recordCheckin e wall')) := by
  refine .attempt _ fun s t u s' h hput => ?_
  have hs' := (Legible.recordCheckin_ok h.sound hput).1
  have hsound := h.sound
  have hsound' := h.sound'
  obtain ⟨l, m, rfl, rfl, same⟩ := h.same
  rw [Transcribed.recordCheckin_eq e wall hsound] at hput
  cases hput
  have hsaved := Transcribed.recordCheckin_eq e wall' hsound'
  exact ⟨(), _, hsaved, hs', (Legible.recordCheckin_ok hsound' hsaved).1, _, _, rfl, rfl,
    same.recordCheckin hL hwall⟩

theorem follows_insertAction {n : NewAction} (hprerequisite : n.prerequisite = none)
    (hendpoints : n.endpoints = [e]) (hdated : wall'.IsDated) :
    Follows (Near L e b none)
      (fun a a' (s t : σ) => a'.id = b + 1 ∧ Near L e b (some a.id) s t)
      (attempt .insertAction (ActionRows.insertAction wall n))
      (attempt .insertAction (ActionRows.insertAction wall' n)) := by
  refine .attempt _ fun s t a s' h hinsert => ?_
  have hs' := (Legible.insertAction_ok h.sound hinsert).1
  have hsound' := h.sound'
  obtain ⟨l, m, rfl, rfl, same⟩ := h.same
  have hlast : m.lastId = b := same.lastId
  obtain ⟨rfl, hid⟩ := Transcribed.insertAction_ok hinsert
  obtain ⟨a', hinserted⟩ := Transcribed.insertAction_again hinsert hdated hprerequisite hendpoints
    (record?_transcript_eq_none hsound' (Int.lt_succ m.lastId))
  refine ⟨a', _, hinserted, ?_, hs', (Legible.insertAction_ok hsound' hinserted).1, _, _, rfl, rfl,
    ?_⟩
  · rw [(Transcribed.insertAction_ok hinserted).2, hlast]
  · rw [hid]
    exact same.issue hL hprerequisite hendpoints hwall

end write

end Work

theorem near_of_beside {L : Instant → Instant → Prop} {e : EndpointId} (hL : ∀ t, L t t)
    {l m : Ledger} (hl : Legible.Sound (transcript l : σ)) (hm : Legible.Sound (transcript m : σ))
    (h : m.Beside e l) : Near L e m.lastId none (transcript l : σ) (transcript m) :=
  ⟨hl, hm, l, m, rfl, rfl, h.sameFor hL fun _ hid => record?_transcript_eq_none hm hid⟩

def SetBeside (e : EndpointId) (l₀ : Ledger) (rows : σ) : Prop :=
  ∃ l, transcript l = rows ∧ l₀.Beside e l

theorem withstands_beside (e : EndpointId) (l₀ : Ledger) :
    Withstands (σ := σ) (· ≠ e) (SetBeside e l₀) where
  save {rows rows' r u} hs hrows hr hsave := by
    obtain ⟨l, rfl, hl⟩ := hrows
    obtain ⟨-, rfl⟩ := Transcribed.save_iff.mp hsave
    exact ⟨_, rfl, hl.trans (Ledger.beside_putRecord hr)⟩
  saveEndpoint {rows rows' x u} hs hrows hx hsave := by
    obtain ⟨l, rfl, hl⟩ := hrows
    rw [Transcribed.saveEndpoint_eq] at hsave
    cases hsave
    exact ⟨_, rfl, hl.trans (Ledger.beside_putEndpoint hx)⟩
  recordCheckin {rows rows' x time u} hs hrows hx hput := by
    obtain ⟨l, rfl, hl⟩ := hrows
    rw [Transcribed.recordCheckin_eq x time hs] at hput
    cases hput
    exact ⟨_, rfl, hl.trans (Ledger.beside_recordCheckin hx time)⟩
  insertAction {rows rows' wall n a} hs hrows hn hinsert := by
    obtain ⟨l, rfl, hl⟩ := hrows
    obtain ⟨rfl, -⟩ := Transcribed.insertAction_ok hinsert
    exact ⟨_, rfl, hl.trans (Ledger.beside_issue rfl fun he => hn e he rfl)⟩

theorem SetBeside.record? {e : EndpointId} {l : Ledger} {rows : σ} (h : SetBeside e l rows)
    (id : ActionId) :
    (Legible.ledger rows).record? id e = (Legible.ledger (transcript l : σ)).record? id e := by
  obtain ⟨l', rfl, hbeside⟩ := h
  rw [Transcribed.ledger_transcript, Transcribed.ledger_transcript]
  exact hbeside.kept.record id

theorem Near.aside {L : Instant → Instant → Prop} {e : EndpointId} {b : ActionId}
    {o : Option ActionId} {s t s' : σ} (h : Near L e b o s t) (hs' : Legible.Sound s')
    (hkeeps : ∀ l, transcript l = s → SetBeside e l s') : Near L e b o s' t := by
  obtain ⟨l, m, hl, hm, same⟩ := h.same
  obtain ⟨l', hl', hbeside⟩ := hkeeps l hl
  exact ⟨hs', h.sound', l', m, hl', hm, same.beside hbeside⟩

end FleetDispatch
