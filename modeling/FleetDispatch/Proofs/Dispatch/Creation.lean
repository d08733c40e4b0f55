import FleetDispatch.Proofs.Dispatch.Events
import FleetDispatch.Proofs.Store.Creation
import FleetDispatch.Proofs.Store.Steady

namespace FleetDispatch

namespace Store

section ids

variable {σ : Type} [ActionRows σ]

def issuedIds : List (Instant × NewAction) → Store σ → List ActionId
  | [], _ => []
  | (wall, n) :: requests, s =>
    match s.createAction wall n with
    | (.ok a, s) => a.id :: issuedIds requests s
    | (.error _, s) => issuedIds requests s

variable [Legible σ]

/-- No id is left out on account of an action that was not created. -/
theorem issuedIds_eq {s : Store σ} (hs : Legible.Sound s.rows)
    (requests : List (Instant × NewAction)) : ∃ k, issuedIds requests s =
      (List.range k).map fun i : Nat => (Legible.ledger s.rows).lastId + 1 + i := by
  -- on the requests: a refused one leaves the rows, and with them the last id that was given out
  induction requests generalizing s with
  | nil => exact ⟨0, rfl⟩
  | cons request requests ih =>
    obtain ⟨wall, n⟩ := request
    unfold issuedIds
    cases hran : s.createAction wall n with
    | mk answer s' =>
      cases answer with
      | error e =>
        have hrows := createAction_error hran
        simp only
        rw [← hrows] at hs ⊢
        exact ih hs
      | ok a =>
        obtain ⟨hs', hid, -, hledger⟩ := createAction_ok hs hran
        obtain ⟨k, hk⟩ := ih hs'
        have hlast : (Legible.ledger s'.rows).lastId = (Legible.ledger s.rows).lastId + 1 := by
          rw [hledger, Ledger.lastId_issue]
          rfl
        refine ⟨k + 1, ?_⟩
        simp only [hid, hk, hlast]
        rw [List.range_succ_eq_map, List.map_cons, List.map_map]
        refine congrArg₂ List.cons (Int.add_zero _).symm (List.map_congr_left fun i _ => ?_)
        simp only [Function.comp, Nat.succ_eq_add_one]
        lia

end ids

variable {σ : Type} [ActionRows σ] [Legible σ] [Transcribed σ] {s s' : Store σ} {l : Ledger}
  {wall : Instant} {n : NewAction} {a : Action} {e : StoreError}

theorem createAction_gains (hl : l.WellFormed) (hrows : s.rows = Transcribed.transcript l)
    (h : s.createAction wall n = (.ok a, s')) :
    a.id = l.lastId + 1 ∧ ∃ l', s'.rows = Transcribed.transcript l' ∧
      l.Gains (l.created wall n) n.endpoints n.retries l' := by
  have hinsert := perform_ok h
  rw [hrows] at hinsert
  obtain ⟨hrows', hid⟩ := Transcribed.insertAction_ok hinsert
  exact ⟨hid, _, hrows', hl.gains rfl n.endpoints n.retries⟩

variable [Inserting σ]

theorem createAction_denied (hl : l.WellFormed) (hrows : s.rows = Transcribed.transcript l)
    (denied : n.Denied (Inserting.Admits σ) (Inserting.Dates σ) l wall e) :
    ∃ f s', s.createAction wall n = (.error f, s') ∧ (f = e ∨ ¬ s.Calm ∧ f.IsForced) := by
  obtain ⟨rows, hinsert⟩ := Inserting.insertAction_denied (σ := σ) hl denied
  exact perform_refused (hrows ▸ hinsert)

theorem createAction_reasons (hl : l.WellFormed) (hrows : s.rows = Transcribed.transcript l)
    (h : s.createAction wall n = (.error e, s')) :
    n.Denied (Inserting.Admits σ) (Inserting.Dates σ) l wall e ∨ ¬ s.Calm ∧ e.IsForced := by
  by_cases hdenied : ∃ f, n.Denied (Inserting.Admits σ) (Inserting.Dates σ) l wall f
  · obtain ⟨f, denied⟩ := hdenied
    obtain ⟨f', s'', hran, hcause⟩ := createAction_denied hl hrows denied
    cases h.symm.trans hran
    refine hcause.imp_left fun he => ?_
    rwa [he]
  · obtain ⟨a, rows, hinsert⟩ :=
      Inserting.insertAction_admitted (σ := σ) hl (not_exists.mp hdenied)
    rw [← hrows] at hinsert
    have hends : (∃ b s'', s.createAction wall n = (.ok b, s'')) ∨
        ¬ s.Calm ∧ ∃ f s'', s.createAction wall n = (.error f, s'') ∧ f.IsForced :=
      perform_steady hinsert
    rcases hends with ⟨b, s'', hran⟩ | ⟨hnot, f, s'', hran, hforced⟩
    · cases h.symm.trans hran
    · cases h.symm.trans hran
      exact .inr ⟨hnot, hforced⟩

end Store

namespace World

variable {σ : Type} [ActionRows σ] [Legible σ] [Transcribed σ] [Inserting σ]

/-- To create an action is all or nothing. From any state on, either the next id is given out and
the action and its records are all that comes in, or all rows stay as they are and the ids go on
from there as if the action had not been asked for. It is denied for its prerequisite, for its
endpoints or for a time that the store cannot keep, and for nothing else unless the store is made to
fail. -/
theorem createAction_all_or_nothing (events : List Event) (wall : Instant) (n : NewAction) :
    let s := (through events : World σ).store
    ∃ l : Ledger, s.rows = Transcribed.transcript l ∧
      (∀ id, (l.action? id).isSome ↔ 1 ≤ id ∧ id ≤ l.lastId) ∧
      (∀ a s', s.createAction wall n = (.ok a, s') → a.id = l.lastId + 1 ∧
        ∃ l', s'.rows = Transcribed.transcript l' ∧
          l.Gains (l.created wall n) n.endpoints n.retries l') ∧
      (∀ e s', s.createAction wall n = (.error e, s') → s'.rows = s.rows ∧
        ∀ later : Store σ, later.rows = s'.rows → ∀ requests, ∃ k,
          later.issuedIds requests = (List.range k).map fun i : Nat => l.lastId + 1 + i) ∧
      (∀ e, n.Denied (Inserting.Admits σ) (Inserting.Dates σ) l wall e →
        ∀ a, (s.createAction wall n).1 ≠ .ok a) ∧
      (∀ e s', s.createAction wall n = (.error e, s') →
        n.Denied (Inserting.Admits σ) (Inserting.Dates σ) l wall e ∨
          ¬ s.Calm ∧ e.IsForced) := by
  intro s
  have hs : Legible.Sound s.rows := sound_through events
  obtain ⟨l, hrows⟩ := Transcribed.exists_transcript hs
  have hledger : Legible.ledger s.rows = l.kept (Legible.keeping σ) := by
    rw [← hrows, Transcribed.ledger_transcript]
  have hl : l.WellFormed := .of_kept (hledger ▸ Legible.wellFormed hs)
  refine ⟨l, hrows.symm, hl.action_iff, fun a s' h => Store.createAction_gains hl hrows.symm h,
    fun e s' h => ?_, fun e denied a h => ?_,
    fun e s' h => Store.createAction_reasons hl hrows.symm h⟩
  · have hkept := Store.createAction_error h
    refine ⟨hkept, fun later hlater requests => ?_⟩
    have hsame : later.rows = s.rows := hlater.trans hkept
    have hids := Store.issuedIds_eq (s := later) (hsame ▸ hs) requests
    rwa [hsame, hledger] at hids
  · obtain ⟨f, s', hran, -⟩ := Store.createAction_denied hl hrows.symm denied
    rw [hran] at h
    cases h

def oneCreated : List Event :=
  [.move (.create ⟨0, 0⟩ ⟨"upgrade", ⟨60, 0⟩, none, ⟨"pkg.upgrade", [], []⟩, ["m1"], 2⟩)]

def twiceNamed : NewAction :=
  ⟨"install", ⟨60, 0⟩, some 1, ⟨"pkg.install", [], []⟩, ["m2", "m1", "m2"], 3⟩

theorem createAction_twiceNamed :
    (∃ s', (through oneCreated : World Tables).store.createAction ⟨3, 0⟩ twiceNamed =
        (.error (.backend .duplicateRecord), s') ∧
      s'.rows = (through oneCreated : World Tables).store.rows ∧
      s'.issuedIds [(⟨4, 0⟩, { twiceNamed with endpoints := ["m2", "m1"] })] = [2]) ∧
    ∃ a s', (through oneCreated : World Ledger).store.createAction ⟨3, 0⟩ twiceNamed =
        (.ok a, s') ∧ a.id = 2 ∧
      s'.rows.records.map (·.endpoint) = ["m1", "m1", "m2"] ∧
      s'.rows.endpoints.map (·.id) = ["m1", "m2"] := by
  constructor
  · obtain ⟨l, hrows, known, -, kept, -, reasons⟩ :=
      createAction_all_or_nothing (σ := Tables) oneCreated ⟨3, 0⟩ twiceNamed
    have failed : ((through oneCreated : World Tables).store.createAction ⟨3, 0⟩
        twiceNamed).1.isOk = false := by decide +kernel
    have ids : ((through oneCreated : World Tables).store.createAction ⟨3, 0⟩
        twiceNamed).2.issuedIds [(⟨4, 0⟩, { twiceNamed with endpoints := ["m2", "m1"] })] =
          [2] := by
      decide +kernel
    cases hran : (through oneCreated : World Tables).store.createAction ⟨3, 0⟩ twiceNamed with
    | mk answer s' =>
      rw [hran] at failed ids
      cases answer with
      | ok a => cases failed
      | error e =>
        rcases reasons e s' hran with denied | ⟨hnot, -⟩
        · cases denied with
          | prerequisite asked unknown =>
            obtain rfl := Option.some.inj asked
            have hlast : (through oneCreated : World Tables).store.rows.lastId = 1 := rfl
            rw [hrows] at hlast
            have there := (known 1).mpr ⟨Int.le_refl 1, Int.le_of_eq hlast.symm⟩
            rw [unknown] at there
            cases there
          | repeated => exact ⟨s', rfl, (kept _ s' hran).1, ids⟩
          | undated _ admitted =>
            exact absurd admitted (by decide : ¬ twiceNamed.endpoints.Nodup)
        · exact absurd ⟨rfl, rfl⟩ hnot
  · obtain ⟨l, hrows, -, gains, -⟩ :=
      createAction_all_or_nothing (σ := Ledger) oneCreated ⟨3, 0⟩ twiceNamed
    have ok : ((through oneCreated : World Ledger).store.createAction ⟨3, 0⟩ twiceNamed).1.isOk :=
      by decide +kernel
    have records : ((through oneCreated : World Ledger).store.createAction ⟨3, 0⟩
        twiceNamed).2.rows.records.map (·.endpoint) = ["m1", "m1", "m2"] := by decide +kernel
    have endpoints : ((through oneCreated : World Ledger).store.createAction ⟨3, 0⟩
        twiceNamed).2.rows.endpoints.map (·.id) = ["m1", "m2"] := by decide +kernel
    cases hran : (through oneCreated : World Ledger).store.createAction ⟨3, 0⟩ twiceNamed with
    | mk answer s' =>
      rw [hran] at ok records endpoints
      cases answer with
      | error e => cases ok
      | ok a =>
        have hlast : (through oneCreated : World Ledger).store.rows.lastId = 1 := rfl
        rw [hrows] at hlast
        exact ⟨a, s', rfl, (gains a s' hran).1.trans (congrArg (· + 1) hlast), records, endpoints⟩

/-- A request for the leap second at the end of the last day of a calendar. -/
def pastCalendar : NewAction :=
  ⟨"upgrade", ⟨8210266876799, 1500000000⟩, none, ⟨"pkg.upgrade", [], []⟩, ["m1"], 2⟩

/-- A request that names no prerequisite and no endpoint twice is not taken by a sound store for a
time whose millisecond no calendar has, nor by one that is poisoned. -/
theorem createAction_pastCalendar :
    (through [] : World Tables).store.Calm ∧ pastCalendar.prerequisite = none ∧
      pastCalendar.endpoints.Nodup ∧
      ((through [] : World Tables).store.createAction ⟨3, 0⟩ pastCalendar).1 =
        .error (.invalidData (.time 8210266876800500)) ∧
      ((through [.move (.disturb [] true)] : World Tables).store.createAction ⟨3, 0⟩
        { pastCalendar with scheduledAt := ⟨60, 0⟩ }).1 = .error .lockPoisoned :=
  ⟨⟨rfl, rfl⟩, rfl, by decide, rfl, rfl⟩

end World

end FleetDispatch
