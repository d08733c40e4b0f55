import FleetDispatch.Proofs.Dispatch.Stride
import FleetDispatch.Proofs.Verdict

namespace FleetDispatch

namespace Ledger

def queued (e : EndpointId) (l : Ledger) : List Record :=
  l.records.filter fun r => r.endpoint == e && r.status == .queued

def refreshes (l : Ledger) (r : Record) : Bool :=
  (l.action? r.actionId).any fun a => a.procedure.isPackageRefresh

/-- What is still to be done on an endpoint: the tries of its queued records and one more for each,
and what a checkpoint costs, for its flag and for each record that may put the flag up. -/
def debt (d : Nat) (e : EndpointId) (l : Ledger) : Nat :=
  ((l.queued e).map fun r => r.remainingTries + 1).sum +
    ((l.queued e).countP (fun r => !l.refreshes r) + (l.endpoint e).needsRefresh.toNat) * (d + 1)

/-- Whether a record is queued and no other one holds it back. -/
def Free (id : ActionId) (e : EndpointId) (l : Ledger) : Prop :=
  ∃ r, l.record? id e = some r ∧ r.status = .queued ∧ ∀ {a p q}, l.action? id = some a →
    a.prerequisite = some p → l.record? p e = some q → q.status ≠ .queued

def weight (d : Nat) (e : EndpointId) (l : Ledger) (r : Record) : Nat :=
  if r.endpoint == e && r.status == .queued then
    r.remainingTries + 1 + (if l.refreshes r then 0 else d + 1)
  else 0

variable {l : Ledger} {d : Nat} {e : EndpointId} {r old : Record}

theorem sum_filter {α : Type} (p q : α → Bool) (f : α → Nat) (n : Nat) (rows : List α) :
    ((rows.filter p).map f).sum + (rows.filter p).countP q * n =
      (rows.map fun r => if p r then f r + (if q r then n else 0) else 0).sum := by
  induction rows with
  | nil => simp
  | cons r rows ih =>
    rw [List.map_cons, List.sum_cons, ← ih]
    by_cases hp : p r = true
    · rw [List.filter_cons_of_pos hp, if_pos hp, List.map_cons, List.sum_cons, List.countP_cons,
        Nat.add_mul]
      cases q r <;> simp <;> omega
    · rw [List.filter_cons_of_neg hp, if_neg hp]
      omega

theorem debt_eq : l.debt d e =
    (l.records.map (l.weight d e)).sum + (l.endpoint e).needsRefresh.toNat * (d + 1) := by
  have hsum := sum_filter (fun r : Record => r.endpoint == e && r.status == .queued)
    (fun r => !l.refreshes r) (fun r => r.remainingTries + 1) (d + 1) l.records
  have hweight : l.weight d e = fun r =>
      if (r.endpoint == e && r.status == .queued) = true then
        r.remainingTries + 1 + (if !l.refreshes r then d + 1 else 0)
      else 0 := by
    funext r
    cases hr : l.refreshes r <;> simp [weight, hr]
  rw [debt, queued, Nat.add_mul, ← Nat.add_assoc, hsum, hweight]

theorem weight_of_terminal (h : r.status ≠ .queued) : l.weight d e r = 0 := by
  simp [weight, h]

theorem weight_of_queued (he : r.endpoint = e) (h : r.status = .queued) :
    l.weight d e r = r.remainingTries + 1 + (if l.refreshes r then 0 else d + 1) := by
  simp [weight, he, h]

theorem mem_queued (h : l.WellFormed) :
    r ∈ l.queued e ↔ l.record? r.actionId e = some r ∧ r.status = .queued := by
  rw [queued, List.mem_filter, Rows.mem_iff_find? h.records_ascending]
  simp only [Bool.and_eq_true, beq_iff_eq]
  constructor
  · rintro ⟨hr, rfl, hq⟩
    exact ⟨hr, hq⟩
  · rintro ⟨hr, hq⟩
    obtain rfl := endpoint_of_record? hr
    exact ⟨hr, rfl, hq⟩

theorem debt_eq_zero (h : l.debt d e = 0) :
    l.queued e = [] ∧ (l.endpoint e).needsRefresh = false := by
  unfold debt at h
  obtain ⟨hsum, hmul⟩ := Nat.add_eq_zero_iff.mp h
  constructor
  · cases hq : l.queued e with
    | nil => rfl
    | cons r rest =>
      rw [hq, List.map_cons, List.sum_cons] at hsum
      omega
  · cases hf : (l.endpoint e).needsRefresh with
    | false => rfl
    | true =>
      rw [hf, Nat.mul_eq_zero] at hmul
      simp at hmul

theorem debt_putRecord (h : l.WellFormed)
    (hold : l.record? r.actionId r.endpoint = some old) :
    (l.putRecord r).debt d e + l.weight d e old = l.debt d e + l.weight d e r := by
  have hsum := Rows.sum_put_of_some (l.weight d e) h.records_ascending hold
  have hweight : (l.putRecord r).weight d e = l.weight d e := rfl
  have hrecords : (l.putRecord r).records = Rows.put r l.records := rfl
  have hendpoint : (l.putRecord r).endpoint e = l.endpoint e := rfl
  rw [debt_eq, debt_eq, hweight, hrecords, hendpoint]
  omega

theorem debt_putEndpoint {x : Endpoint} (hx : x.id = e) :
    (l.putEndpoint x).debt d e + (l.endpoint e).needsRefresh.toNat * (d + 1) =
      l.debt d e + x.needsRefresh.toNat * (d + 1) := by
  have hweight : (l.putEndpoint x).weight d e = l.weight d e := rfl
  have hrecords : (l.putEndpoint x).records = l.records := rfl
  rw [debt_eq, debt_eq, endpoint_putEndpoint hx, hweight, hrecords]
  omega

theorem debt_checkIn {t : Instant} : (l.checkIn e t).debt d e = l.debt d e := by
  have h := debt_putEndpoint (l := l) (d := d) (x := (l.endpoint e).checkIn t) (id_endpoint e l)
  have hflag : ((l.endpoint e).checkIn t).needsRefresh = (l.endpoint e).needsRefresh := rfl
  rw [hflag] at h
  exact Nat.add_right_cancel h

theorem debt_flag : (l.flag e).debt d e ≤ l.debt d e + (d + 1) := by
  have h := debt_putEndpoint (l := l) (d := d) (x := (l.endpoint e).markRefresh) (id_endpoint e l)
  have hflag : ((l.endpoint e).markRefresh).needsRefresh.toNat = 1 := rfl
  rw [hflag] at h
  unfold flag
  omega

theorem debt_finished (status : Status) (code : Int) (msg : String) (time : Instant)
    (h : l.WellFormed) (found : l.record? r.actionId r.endpoint = some r)
    (hstatus : status ≠ .queued) :
    (l.putRecord (r.finished status code msg time)).debt d e + l.weight d e r = l.debt d e := by
  have hput := debt_putRecord (d := d) (e := e) h
    (show l.record? (r.finished status code msg time).actionId
      (r.finished status code msg time).endpoint = some r from found)
  rwa [weight_of_terminal (r := r.finished status code msg time) hstatus, Nat.add_zero] at hput

theorem refreshes_issue {a : Action} {es : List EndpointId} {tries : Nat} (h : l.WellFormed)
    (hid : a.id = l.lastId + 1) (hr : r ∈ l.records) :
    (l.issue a es tries).refreshes r = l.refreshes r := by
  have hle := h.le_lastId_of_record (h.record?_of_mem hr)
  rw [refreshes, refreshes, action?_issue, if_neg (by lia)]

theorem debt_issue {a : Action} (h : l.WellFormed) (hid : a.id = l.lastId + 1)
    (refresh : a.procedure.isPackageRefresh) :
    (l.issue a [e] d).debt d e = l.debt d e + (d + 1) := by
  have hnone : l.record? a.id e = none := h.record?_eq_none (by lia)
  have hsum := Rows.sum_put_of_none ((l.issue a [e] d).weight d e)
    (show Rows.find? (Row.key (Record.fresh a.id e d)) l.records = none from hnone)
  have hnew : (l.issue a [e] d).weight d e (.fresh a.id e d) = d + 1 := by
    have hrefreshes : (l.issue a [e] d).refreshes (.fresh a.id e d) = true := by
      rw [refreshes, action?_issue, if_pos (by rfl)]
      exact refresh
    rw [weight, hrefreshes]
    simp [Record.fresh]
  have hold : l.records.map ((l.issue a [e] d).weight d e) = l.records.map (l.weight d e) := by
    refine List.map_congr_left fun r hr => ?_
    rw [weight, weight, refreshes_issue h hid hr]
  have hrecords : (l.issue a [e] d).records = Rows.put (.fresh a.id e d) l.records := rfl
  rw [debt_eq, debt_eq, hrecords, endpoint_issue, hsum, hnew, hold]
  omega

/-- Taking a checkpoint trades the flag for a record, at the same cost. -/
theorem debt_checkpoint {a : Action} (h : l.WellFormed) (hid : a.id = l.lastId + 1)
    (refresh : a.procedure.isPackageRefresh) (flagged : (l.endpoint e).needsRefresh = true) :
    ((l.issue a [e] d).putEndpoint (l.endpoint e).clearRefresh).debt d e = l.debt d e := by
  have hput := debt_putEndpoint (l := l.issue a [e] d) (d := d)
    (x := (l.endpoint e).clearRefresh) (id_endpoint e l)
  have hclear : (l.endpoint e).clearRefresh.needsRefresh = false := rfl
  rw [endpoint_issue, flagged, hclear, debt_issue h hid refresh, Bool.toNat_true,
    Bool.toNat_false] at hput
  omega

theorem record?_self {id : ActionId} (found : l.record? id e = some r) :
    l.record? r.actionId r.endpoint = some r := by
  rw [actionId_of_record? found, endpoint_of_record? found]
  exact found

theorem debt_finished_lt {id : ActionId} (status : Status) (code : Int) (msg : String)
    (time : Instant) (h : l.WellFormed) (found : l.record? id e = some r)
    (queued : r.status = .queued) (hstatus : status ≠ .queued) :
    (l.putRecord (r.finished status code msg time)).debt d e < l.debt d e := by
  have hfinished := debt_finished (d := d) (e := e) status code msg time h (record?_self found)
    hstatus
  have hweight := weight_of_queued (l := l) (d := d) (endpoint_of_record? found) queued
  omega

/-- The result of a call costs no more than it settles: only a record that does not read the
package list anew puts the flag up. -/
theorem debt_withResult {a : Action} {stale : Bool} {status : Status} {code : Int} {msg : String}
    {t : Instant} (h : l.WellFormed) (found : l.record? a.id e = some r)
    (queued : r.status = .queued) (action : l.action? a.id = some a)
    (hstale : stale = true → a.procedure.isPackageRefresh = false) (hstatus : status ≠ .queued) :
    (l.withResult stale (r.finished status code msg t) e t).debt d e < l.debt d e := by
  have hfinished := debt_finished (d := d) (e := e) status code msg t h (record?_self found) hstatus
  have hweight := weight_of_queued (l := l) (d := d) (endpoint_of_record? found) queued
  have hrefreshes : l.refreshes r = a.procedure.isPackageRefresh := by
    rw [refreshes, actionId_of_record? found, action]
    rfl
  cases stale with
  | false =>
    have hsame : l.withResult false (r.finished status code msg t) e t =
        (l.putRecord (r.finished status code msg t)).checkIn e t := rfl
    rw [hsame, debt_checkIn]
    omega
  | true =>
    have hsame : l.withResult true (r.finished status code msg t) e t =
        ((l.putRecord (r.finished status code msg t)).flag e).checkIn e t := rfl
    have hflag := debt_flag (l := l.putRecord (r.finished status code msg t)) (d := d) (e := e)
    rw [hrefreshes, hstale rfl] at hweight
    rw [hsame, debt_checkIn]
    simp only [Bool.false_eq_true, ↓reduceIte] at hweight
    omega

theorem debt_spent {id : ActionId} {n : Nat} (h : l.WellFormed) (found : l.record? id e = some r)
    (queued : r.status = .queued) (tries : r.remainingTries = n + 1) :
    (l.putRecord { r with remainingTries := n }).debt d e < l.debt d e := by
  have hself : l.record? ({ r with remainingTries := n } : Record).actionId
      ({ r with remainingTries := n } : Record).endpoint = some r := record?_self found
  have hput := debt_putRecord (d := d) (e := e) h hself
  have hold := weight_of_queued (l := l) (d := d) (endpoint_of_record? found) queued
  have hnew := weight_of_queued (l := l) (d := d) (e := e) (r := { r with remainingTries := n })
    (endpoint_of_record? (r := r) found) queued
  have hrefreshes : l.refreshes { r with remainingTries := n } = l.refreshes r := rfl
  rw [hrefreshes] at hnew
  simp only at hnew
  omega

end Ledger

namespace Cycle

variable {k : Keeping} {policy : Policy} {wall : Instant} {c c' : Cycle} {l l' : Ledger}

/-- A cycle that comes to a record lowers the debt, or it passes by one that is not free. -/
theorem Turn.prepared {id : ActionId} {d : Nat} (turn : Turn k policy wall c l c' l')
    (hl : l.WellFormed) (stage : c.stage = .preparing id) :
    (∃ o, c' = c.settle o ∧ l' = l ∧ ¬ l.Free id c.endpoint) ∨
      l'.debt d c.endpoint < l.debt d c.endpoint := by
  cases turn with
  | @skipped i r hstage found terminal =>
    obtain rfl := Stage.preparing.inj (stage.symm.trans hstage)
    refine .inl ⟨_, rfl, rfl, ?_⟩
    rintro ⟨q, hq, queued, -⟩
    obtain rfl := Option.some.inj (found.symm.trans hq)
    exact terminal queued
  | @held i r a p prior hstage found queued action prerequisite first waiting =>
    obtain rfl := Stage.preparing.inj (stage.symm.trans hstage)
    refine .inl ⟨_, rfl, rfl, ?_⟩
    rintro ⟨q, -, -, free⟩
    exact free action prerequisite first waiting
  | barred hstage found queued =>
    exact .inr (Ledger.debt_finished_lt _ _ _ _ hl found queued (by decide))
  | exhausted hstage found queued =>
    exact .inr (Ledger.debt_finished_lt _ _ _ _ hl found queued (by decide))
  | spent hstage found queued action unblocked tries =>
    exact .inr (Ledger.debt_spent hl found queued tries)
  | loaded hstage | refused hstage | recorded hstage | unflagged hstage | checkpointed hstage
  | checkedIn hstage => cases stage.symm.trans hstage

theorem Turn.debt_le (turn : Turn k policy wall c l c' l')
    (hk : (k.procedure .packageRefresh).isPackageRefresh) (hl : l.WellFormed)
    (task : ∀ {a}, c.task? = some a → l.action? a.id = some a) :
    l'.debt policy.checkpointRetries c.endpoint ≤ l.debt policy.checkpointRetries c.endpoint := by
  cases turn with
  | loaded | skipped | held | refused | unflagged => exact Nat.le_refl _
  | barred stage found queued =>
    exact Nat.le_of_lt (Ledger.debt_finished_lt _ _ _ _ hl found queued (by decide))
  | exhausted stage found queued =>
    exact Nat.le_of_lt (Ledger.debt_finished_lt _ _ _ _ hl found queued (by decide))
  | spent stage found queued action unblocked tries =>
    exact Nat.le_of_lt (Ledger.debt_spent hl found queued tries)
  -- the one turn that may put the flag up: the record that it settles has paid for that
  | @recorded a left result r verdict stage found queued meaning =>
    have action := task (by simp [task?, stage] : c.task? = some a)
    refine Nat.le_of_lt (Ledger.debt_withResult hl found queued action ?_ ?_)
    · intro stale
      unfold isStale at stale
      cases hr : a.procedure.isPackageRefresh with
      | false => rfl
      | true => simp [hr] at stale
    · rw [meaning]
      exact Verdict.status_ne_queued _ _
  | checkpointed stage flagged action =>
    subst action
    exact Nat.le_of_eq (Ledger.debt_checkpoint hl rfl hk flagged)
  | checkedIn => exact Nat.le_of_eq Ledger.debt_checkIn

end Cycle

end FleetDispatch
