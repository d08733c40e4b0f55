import FleetDispatch.Proofs.Store.Transcript

namespace FleetDispatch

namespace Rows

variable {α κ : Type} [Row α κ] [DecidableEq κ] {row : α}

theorem put_perm_of_none {rows : List α} (h : find? (Row.key row) rows = none) :
    (put row rows).Perm (row :: rows) := by
  induction rows with
  | nil => exact .refl _
  | cons r rows ih =>
    rw [find?_cons] at h
    split at h
    · cases h
    · next hne =>
      rw [put, if_neg hne]
      split
      · exact .refl _
      · exact ((ih h).cons r).trans (.swap row r rows)

theorem put_append [OrderedRow α κ] {front : List α} (rows : List α)
    (h : ∀ r ∈ front, Row.before α (Row.key r) (Row.key row) = true) :
    put row (front ++ rows) = front ++ put row rows := by
  induction front with
  | nil => rfl
  | cons r front ih =>
    have hr := h r List.mem_cons_self
    have hne : Row.key r ≠ Row.key row := by
      intro he
      rw [he, OrderedRow.irrefl] at hr
      cases hr
    have hnot : ¬ Row.before α (Row.key row) (Row.key r) = true := by
      intro hb
      have hself := OrderedRow.trans (α := α) hr hb
      rw [OrderedRow.irrefl] at hself
      cases hself
    rw [List.cons_append, put, if_neg hne, if_neg hnot,
      ih fun x hx => h x (List.mem_cons_of_mem r hx), List.cons_append]

end Rows

namespace Ledger

variable {l l' : Ledger} {a : Action} {i : ActionId} {tries : Nat}

/-- What a ledger has gained if nothing else is different: an action, a queued record with some
attempts for each of its endpoints, and a fresh endpoint for each of them that was not known. -/
structure Gains (l : Ledger) (a : Action) (targets : List EndpointId) (tries : Nat)
    (l' : Ledger) : Prop where
  lastId : l'.lastId = a.id
  actions : l'.actions = l.actions ++ [a]
  records : ∃ names : List EndpointId, names.Nodup ∧ (∀ e, e ∈ names ↔ e ∈ targets) ∧
    l'.records = l.records ++ names.map fun e => .fresh a.id e tries
  endpoints : ∃ names : List EndpointId, names.Nodup ∧
    (∀ e, e ∈ names ↔ e ∈ targets ∧ l.endpoint? e = none) ∧
    l'.endpoints.Perm (names.map .fresh ++ l.endpoints)
  checkins : l'.checkins = l.checkins

theorem checkins_foldl_enlist (i : ActionId) (tries : Nat) (es : List EndpointId) :
    (es.foldl (enlist i tries) l).checkins = l.checkins := by
  induction es generalizing l with
  | nil => rfl
  | cons x es ih => exact ih

theorem put_fresh (i : ActionId) (tries : Nat) (x : EndpointId) (names : List EndpointId) :
    Rows.put (Record.fresh i x tries) (names.map fun e => .fresh i e tries) =
      (insertName x names).map fun e => .fresh i e tries := by
  induction names with
  | nil => rfl
  | cons t ts ih =>
    have hkey : Row.key (Record.fresh i t tries) = Row.key (Record.fresh i x tries) ↔ x = t := by
      simp [Row.key, Record.fresh, eq_comm]
    have hbefore : Row.before Record (Row.key (Record.fresh i x tries))
        (Row.key (Record.fresh i t tries)) = true ↔ x < t := by
      rw [before_record]
      simp [Row.key, Record.fresh]
    rw [List.map_cons, Rows.put, insertName]
    by_cases he : x = t
    · rw [if_pos (hkey.mpr he), if_pos he, List.map_cons, he]
    · rw [if_neg (mt hkey.mp he), if_neg he]
      by_cases hlt : x < t
      · rw [if_pos (hbefore.mpr hlt), if_pos hlt, List.map_cons, List.map_cons]
      · rw [if_neg (mt hbefore.mp hlt), if_neg hlt, ih, List.map_cons]

theorem records_foldl_enlist {front : List Record} {names : List EndpointId}
    (hfront : ∀ r ∈ front, r.actionId < i)
    (hrecords : l.records = front ++ names.map fun e => .fresh i e tries)
    (es : List EndpointId) :
    (es.foldl (enlist i tries) l).records =
      front ++ (es.foldl (fun acc e => insertName e acc) names).map fun e => .fresh i e tries := by
  induction es generalizing l names with
  | nil => exact hrecords
  | cons x es ih =>
    refine ih (l := enlist i tries l x) ?_
    have hbehind : ∀ r ∈ front,
        Row.before Record (Row.key r) (Row.key (Record.fresh i x tries)) = true :=
      fun r hr => before_record.mpr (.inl (hfront r hr))
    change Rows.put (.fresh i x tries) l.records = _
    rw [hrecords, Rows.put_append _ hbehind, put_fresh]

theorem endpoints_foldl_enlist (i : ActionId) (tries : Nat) (es : List EndpointId) :
    ∃ names : List EndpointId, names.Nodup ∧
      (∀ e, e ∈ names ↔ e ∈ es ∧ l.endpoint? e = none) ∧
      (es.foldl (enlist i tries) l).endpoints.Perm (names.map .fresh ++ l.endpoints) := by
  induction es generalizing l with
  | nil => exact ⟨[], .nil, by simp, .refl _⟩
  | cons x es ih =>
    obtain ⟨names, hnodup, hmem, hperm⟩ := ih (l := enlist i tries l x)
    have hensure : (enlist i tries l x).endpoints = Rows.ensure (.fresh x) l.endpoints := rfl
    have hkey : Row.key (Endpoint.fresh x) = x := rfl
    rw [List.foldl_cons]
    cases hx : l.endpoint? x with
    | some y =>
      -- nothing is put in for an endpoint that is known
      have hsame : (enlist i tries l x).endpoints = l.endpoints := by
        rw [hensure, Rows.ensure, hkey, show Rows.find? x l.endpoints = some y from hx]
        rfl
      refine ⟨names, hnodup, fun e => ?_, hsame ▸ hperm⟩
      rw [hmem, endpoint?, hsame, List.mem_cons, ← endpoint?]
      refine ⟨And.imp_left .inr, ?_⟩
      rintro ⟨rfl | he, hnone⟩
      · rw [hx] at hnone
        cases hnone
      · exact ⟨he, hnone⟩
    | none =>
      have hnone : Rows.find? x l.endpoints = none := hx
      have hput : (enlist i tries l x).endpoints.Perm (.fresh x :: l.endpoints) := by
        rw [hensure, Rows.ensure, hkey, hnone]
        exact Rows.put_perm_of_none hnone
      have hmem' : ∀ e, e ∈ names ↔ e ∈ es ∧ e ≠ x ∧ l.endpoint? e = none := by
        intro e
        rw [hmem, endpoint?_enlist, Option.or_eq_none_iff]
        by_cases he : e = x <;> simp [he]
      refine ⟨x :: names, List.nodup_cons.mpr ⟨fun h => ((hmem' x).mp h).2.1 rfl, hnodup⟩,
        fun e => ?_, ?_⟩
      · rw [List.mem_cons, hmem', List.mem_cons]
        by_cases he : e = x <;> simp [he, hx]
      · exact hperm.trans ((hput.append_left _).trans List.perm_middle)

theorem WellFormed.of_kept {k : Keeping} (h : (l.kept k).WellFormed) : l.WellFormed where
  actions_ascending := Action.renders_kept.ascending_map.mp h.actions_ascending
  records_ascending := Record.renders_kept.ascending_map.mp h.records_ascending
  endpoints_ascending := Endpoint.renders_kept.ascending_map.mp h.endpoints_ascending
  lastId_nonneg := h.lastId_nonneg
  action_iff id := by
    have hiff := h.action_iff id
    rwa [action?_kept, Option.isSome_map] at hiff
  prerequisite_lt {id a p} ha hp :=
    h.prerequisite_lt (a := a.kept k) (by rw [action?_kept, ha]; rfl) hp
  record_action {id e r} hr := by
    have there := h.record_action (r := r.kept k) (by rw [record?_kept, hr]; rfl)
    rwa [action?_kept, Option.isSome_map] at there
  record_endpoint {id e r} hr := by
    have there := h.record_endpoint (r := r.kept k) (by rw [record?_kept, hr]; rfl)
    rwa [endpoint?_kept, Option.isSome_map] at there

theorem WellFormed.gains (h : l.WellFormed) (ha : a.id = l.lastId + 1) (es : List EndpointId)
    (tries : Nat) : l.Gains a es tries (l.issue a es tries) where
  lastId := lastId_issue
  actions := by
    have hbefore : ∀ b ∈ l.actions, Row.before Action (Row.key b) (Row.key a) = true := by
      intro b hb
      have hle : b.id ≤ l.lastId := h.le_lastId (Rows.find?_of_mem h.actions_ascending hb)
      have hlt : b.id < a.id := by lia
      exact decide_eq_true hlt
    have hput := Rows.put_append [] hbefore
    rw [List.append_nil] at hput
    rw [Ledger.issue, actions_foldl_enlist]
    exact hput
  records := by
    have hfront : ∀ r ∈ l.records, r.actionId < a.id := by
      intro r hr
      have hle := h.le_lastId_of_record (h.record?_of_mem hr)
      lia
    have hrecords : (l.issue a es tries).records =
        l.records ++ (sortedNames es).map fun e => .fresh a.id e tries :=
      records_foldl_enlist hfront (List.append_nil _).symm es
    exact ⟨sortedNames es, nodup_sortedNames es, fun e => mem_sortedNames, hrecords⟩
  endpoints := endpoints_foldl_enlist
    (l := { l with lastId := a.id, actions := Rows.put a l.actions }) a.id tries es
  checkins := checkins_foldl_enlist a.id tries es

end Ledger

/-- Why an action is not created: its prerequisite is not known, its endpoints are not admitted, or
the time that it is scheduled for or created at is none that can be kept. They are looked at in this
order. -/
inductive NewAction.Denied (Admits : List EndpointId → Prop) (Dates : Instant → Prop) (l : Ledger)
    (wall : Instant) (n : NewAction) : StoreError → Prop
  | prerequisite {p} (asked : n.prerequisite = some p) (unknown : l.action? p = none) :
    Denied Admits Dates l wall n (.notFound (.prerequisite p))
  | repeated (known : ∀ p, n.prerequisite = some p → (l.action? p).isSome)
    (refused : ¬ Admits n.endpoints) : Denied Admits Dates l wall n (.backend .duplicateRecord)
  | undated {t} (known : ∀ p, n.prerequisite = some p → (l.action? p).isSome)
    (admitted : Admits n.endpoints) (first : t = n.scheduledAt ∨ Dates n.scheduledAt ∧ t = wall)
    (undated : ¬ Dates t) : Denied Admits Dates l wall n (.invalidData (.time t.toMillis))

class Inserting (σ : Type) [ActionRows σ] [Legible σ] [Transcribed σ] where
  Admits : List EndpointId → Prop
  Dates : Instant → Prop
  insertAction_denied {l wall n err} : l.WellFormed → NewAction.Denied Admits Dates l wall n err →
    ∃ rows, ActionRows.insertAction wall n (Transcribed.transcript l : σ) = .error err rows
  insertAction_admitted {l wall n} : l.WellFormed →
    (∀ err, ¬ NewAction.Denied Admits Dates l wall n err) →
      ∃ a rows, ActionRows.insertAction wall n (Transcribed.transcript l : σ) = .ok a rows

section denied

variable {Admits : List EndpointId → Prop} {Dates : Instant → Prop} {l : Ledger} {wall : Instant}
  {n : NewAction}

theorem NewAction.of_not_denied (h : ∀ err, ¬ n.Denied Admits Dates l wall err) :
    (∀ p, n.prerequisite = some p → (l.action? p).isSome) ∧ Admits n.endpoints ∧
      Dates n.scheduledAt ∧ Dates wall := by
  have known : ∀ p, n.prerequisite = some p → (l.action? p).isSome := by
    intro p asked
    rw [Option.isSome_iff_ne_none]
    exact fun unknown => h _ (.prerequisite asked unknown)
  have admitted : Admits n.endpoints := by_contra fun refused => h _ (.repeated known refused)
  have scheduled : Dates n.scheduledAt :=
    by_contra fun undated => h _ (.undated known admitted (.inl rfl) undated)
  exact ⟨known, admitted, scheduled,
    by_contra fun undated => h _ (.undated known admitted (.inr ⟨scheduled, rfl⟩) undated)⟩

end denied

/-- A repeated endpoint has its record put in place of the one that is there, and any time is kept
as it is. -/
instance : Inserting Ledger where
  Admits _ := True
  Dates _ := True
  insertAction_denied {l wall n err} _ denied := by
    cases denied with
    | prerequisite asked unknown =>
      exact ⟨l, Ledger.insertAction_of_missing asked unknown⟩
    | repeated known refused => exact absurd trivial refused
    | undated known admitted first undated => exact absurd trivial undated
  insertAction_admitted _ hnot :=
    ⟨_, _, Ledger.insertAction_of_present (NewAction.of_not_denied hnot).1⟩

namespace Tables

variable {l : Ledger} {i : ActionId} {wall : Instant} {n : NewAction}

theorem enlist_ofLedger (tries : Nat) {es : List EndpointId} (hnodup : es.Nodup)
    (free : ∀ e ∈ es, l.record? i e = none) :
    enlist i tries es (ofLedger l) = .ok () (ofLedger (es.foldl (Ledger.enlist i tries) l)) := by
  induction es generalizing l with
  | nil => rfl
  | cons x es ih =>
    obtain ⟨hx, hes⟩ := List.nodup_cons.mp hnodup
    have hfind : Rows.find? (i, x) (ofLedger l).records = none := by
      rw [find?_records_ofLedger, free x List.mem_cons_self, Option.map_none]
    have hrest : ∀ e ∈ es, (Ledger.enlist i tries l x).record? i e = none := by
      intro e he
      have hne : e ≠ x := fun h => hx (h ▸ he)
      rw [Ledger.record?_enlist, if_neg fun h => hne h.2, free e (List.mem_cons_of_mem x he)]
    unfold enlist
    simp only [ensureEndpoint, hfind, ← ofLedger_enlist]
    exact ih hes hrest

theorem enlist_ofLedger_error (tries : Nat) {es : List EndpointId}
    (h : ¬ es.Nodup ∨ ∃ e ∈ es, (l.record? i e).isSome) :
    ∃ t, enlist i tries es (ofLedger l) = .error (.backend .duplicateRecord) t := by
  induction es generalizing l with
  | nil => simp at h
  | cons x es ih =>
    unfold enlist
    simp only [ensureEndpoint]
    cases hfind : Rows.find? (i, x) (ofLedger l).records with
    | some row => exact ⟨_, rfl⟩
    | none =>
      rw [find?_records_ofLedger, Option.map_eq_none_iff] at hfind
      simp only [← ofLedger_enlist]
      refine ih ?_
      -- an endpoint named twice is there once the first of the two is put in
      rcases h with hrepeats | ⟨e, he, hthere⟩
      · rw [List.nodup_cons, not_and_or, not_not] at hrepeats
        refine hrepeats.symm.imp_right fun hx => ⟨x, hx, ?_⟩
        rw [Ledger.record?_enlist, if_pos ⟨rfl, rfl⟩]
        rfl
      · right
        have hne : e ≠ x := by
          rintro rfl
          rw [hfind] at hthere
          cases hthere
        refine ⟨e, List.mem_of_ne_of_mem hne he, ?_⟩
        rwa [Ledger.record?_enlist, if_neg fun h => hne h.2]

def noting (a : Action) (l : Ledger) : Ledger :=
  { l with lastId := a.id, actions := Rows.put a l.actions }

theorem insertAction_of_known (known : ∀ p, n.prerequisite = some p → (l.action? p).isSome) :
    insertAction wall n (ofLedger l) =
      match enlist (l.lastId + 1) n.retries n.endpoints
        (ofLedger (noting (l.created wall n) l)) with
      | .error e t => .error e t
      | .ok () t => look (fun _ => created (l.lastId + 1) wall n) t := by
  have hfilter : (n.prerequisite.filter fun p =>
      (Rows.find? p (ofLedger l).actions).isNone) = none := by
    cases hp : n.prerequisite with
    | none => rfl
    | some p =>
      obtain ⟨a, ha⟩ := Option.isSome_iff_exists.mp (known p hp)
      simp [Option.filter, find?_actions_ofLedger, ha]
  have hnew : ofLedger (noting (l.created wall n) l) = _ := ofLedger_new l wall n
  unfold insertAction
  simp only [hfilter, hnew]
  rfl

theorem insertAction_of_unknown {p : ActionId} (asked : n.prerequisite = some p)
    (unknown : l.action? p = none) :
    insertAction wall n (ofLedger l) = .error (.notFound (.prerequisite p)) (ofLedger l) := by
  have hfilter : (n.prerequisite.filter fun p =>
      (Rows.find? p (ofLedger l).actions).isNone) = some p := by
    simp [asked, Option.filter, find?_actions_ofLedger, unknown]
  unfold insertAction
  simp only [hfilter]

theorem insertAction_of_admitted (hl : l.WellFormed) (wall : Instant)
    (known : ∀ p, n.prerequisite = some p → (l.action? p).isSome) (hnodup : n.endpoints.Nodup) :
    ∃ t, insertAction wall n (ofLedger l) = look (fun _ => created (l.lastId + 1) wall n) t := by
  have free : ∀ e ∈ n.endpoints, (noting (l.created wall n) l).record? (l.lastId + 1) e = none :=
    fun e _ => hl.record?_eq_none (Int.lt_succ l.lastId)
  rw [insertAction_of_known known, enlist_ofLedger n.retries hnodup free]
  exact ⟨_, rfl⟩

/-- There is one record at most for each action and endpoint, and a time is read back as soon as it
is written. -/
instance : Inserting Tables where
  Admits := List.Nodup
  Dates := Instant.IsDated
  insertAction_denied {l wall n err} hl denied := by
    change ∃ rows, insertAction wall n (ofLedger l) = _
    cases denied with
    | prerequisite asked unknown => exact ⟨_, insertAction_of_unknown asked unknown⟩
    | repeated known refused =>
      obtain ⟨t, ht⟩ := enlist_ofLedger_error (l := noting (l.created wall n) l)
        (i := l.lastId + 1) n.retries (.inl refused)
      rw [insertAction_of_known known, ht]
      exact ⟨t, rfl⟩
    | undated known admitted first undated =>
      obtain ⟨t, ht⟩ := insertAction_of_admitted hl wall known admitted
      have hlast := Instant.timeOf_of_undated undated
      rw [ht]
      unfold created
      rcases first with rfl | ⟨scheduled, rfl⟩
      · exact ⟨_, by simp only [look, hlast, bind, Except.bind]; rfl⟩
      · have hs := Instant.timeOf_toMillis (Instant.floorMillis?_eq_some.mpr ⟨scheduled, rfl⟩)
        exact ⟨_, by simp only [look, hs, hlast, bind, Except.bind]; rfl⟩
  insertAction_admitted {l wall n} hl hnot := by
    obtain ⟨known, hnodup, hscheduled, hwall⟩ := NewAction.of_not_denied hnot
    have hs := Instant.timeOf_toMillis (Instant.floorMillis?_eq_some.mpr ⟨hscheduled, rfl⟩)
    have hc := Instant.timeOf_toMillis (Instant.floorMillis?_eq_some.mpr ⟨hwall, rfl⟩)
    obtain ⟨t, ht⟩ := insertAction_of_admitted hl wall known hnodup
    change ∃ a rows, insertAction wall n (ofLedger l) = .ok a rows
    rw [ht]
    unfold created
    exact ⟨_, _, by simp only [look, hs, hc, bind, Except.bind]; rfl⟩

end Tables

end FleetDispatch
