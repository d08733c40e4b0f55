import FleetDispatch.Proofs.Dispatch.Prerequisite
import Mathlib.Data.List.Sort

namespace FleetDispatch

theorem Text.length_cut_le (n : Nat) (s : String) : (Text.cut n s).length ≤ n := by
  simp [Text.cut]

/-- What the fields of a record say of one another, and of the tries that it had at first. -/
structure Record.Standing (r : Record) (budget : Nat) : Prop where
  queued : r.status = .queued → r.resultCode = none ∧ r.resultMsg = none ∧ r.completedAt = none
  ended : r.status ≠ .queued → ∃ code msg time, r.resultCode = some code ∧
    r.resultMsg = some msg ∧ r.completedAt = some time ∧ msg.length ≤ 1024
  completed : r.status = .completed ↔ r.resultCode = some 0
  failed : r.status = .failed ↔ r.resultCode = some (-1) ∨ r.resultCode = some (-100) ∨
    r.resultCode = some (-101)
  exhausted : r.resultCode = some (-101) → r.remainingTries = 0
  called : r.resultCode = some 0 ∨ r.resultCode = some (-1) → r.remainingTries < budget

namespace Record.Standing

variable {r : Record} {budget : Nat} {msg : String} {time : Instant}

theorem of_fresh (id : ActionId) (e : EndpointId) (tries : Nat) :
    (Record.fresh id e tries).Standing budget := by
  constructor <;> simp [Record.fresh]

theorem withTries (h : r.Standing budget) (queued : r.status = .queued) (n : Nat) :
    ({ r with remainingTries := n } : Record).Standing budget := by
  obtain ⟨code, -, -⟩ := h.queued queued
  exact { h with
    exhausted := by simp [code]
    called := by simp [code] }

theorem finished_completed (lt : r.remainingTries < budget) :
    (r.finished .completed 0 msg time).Standing budget where
  queued := by simp [Record.finished]
  ended _ := ⟨0, _, time, rfl, rfl, rfl, Text.length_cut_le _ _⟩
  completed := by simp [Record.finished]
  failed := by simp [Record.finished]
  exhausted := by simp [Record.finished]
  called _ := lt

theorem finished_failed {code : Int} (known : code = -1 ∨ code = -100 ∨ code = -101)
    (exhausted : code = -101 → r.remainingTries = 0)
    (called : code = -1 → r.remainingTries < budget) :
    (r.finished .failed code msg time).Standing budget where
  queued := by simp [Record.finished]
  ended _ := ⟨code, _, time, rfl, rfl, rfl, Text.length_cut_le _ _⟩
  completed := by
    simp only [Record.finished, Option.some.injEq, reduceCtorEq, false_iff]
    omega
  failed := by simp [Record.finished, known]
  exhausted h := exhausted (Option.some.inj h)
  called h := by
    simp only [Record.finished, Option.some.injEq] at h ⊢
    exact called (by omega)

end Record.Standing

namespace Scene

variable {k : Keeping} {s : Scene} {id : ActionId} {e : EndpointId} {next : Bool}
  {o : Option Record} {r r' : Record} {budget : Nat}

theorem Stride.standing (stride : Stride k s id e next o) (ho : o = some r')
    (hs : s.ledger.WellFormed) (found : s.ledger.record? id e = some r)
    (standing : r.Standing budget)
    (task : ∀ {c b}, c ∈ s.cycles → c.task? = some b → b.id = id → c.endpoint = e →
      r.remainingTries < budget) : r'.Standing budget := by
  cases stride with
  | same silent =>
    obtain rfl := Option.some.inj (found.symm.trans ho)
    exact standing
  | fresh tries new silent =>
    rw [hs.record?_eq_none (by lia)] at found
    cases found
  | spent hfound queued =>
    obtain rfl := Option.some.inj ho
    obtain rfl := Option.some.inj (hfound.symm.trans found)
    exact standing.withTries queued _
  | barred time hfound =>
    obtain rfl := Option.some.inj ho
    exact .finished_failed (.inr (.inl rfl)) (by simp [ResultCode.prerequisiteFailed])
      (by simp [ResultCode.prerequisiteFailed])
  | exhausted time hfound queued action unblocked tries =>
    obtain rfl := Option.some.inj ho
    exact .finished_failed (.inr (.inr rfl)) (fun _ => tries)
      (by simp [ResultCode.retriesExhausted])
  -- the call was paid for with a try, so fewer are left than there were
  | @recorded q c a time hfound queued run htask this here result silent =>
    obtain rfl := Option.some.inj ho
    obtain rfl := Option.some.inj (hfound.symm.trans found)
    have lt := task run htask this here
    rcases Verdict.ofResult_cases a.procedure result with ⟨status, code⟩ | ⟨status, code⟩
    · rw [status, code]
      exact .finished_completed lt
    · rw [status, code]
      exact .finished_failed (.inl rfl) (by simp) fun _ => lt

end Scene

namespace Ledger.WellFormed

variable {l : Ledger}

theorem ids_eq (h : l.WellFormed) :
    l.actions.map Action.id = (List.range' 1 l.lastId.toNat).map fun i : Nat => (i : Int) := by
  have nonneg := h.lastId_nonneg
  have ascending : (l.actions.map Action.id).SortedLT := by
    rw [List.sortedLT_iff_pairwise, List.pairwise_map]
    exact h.actions_ascending.imp of_decide_eq_true
  have numbers : ((List.range' 1 l.lastId.toNat).map fun i : Nat => (i : Int)).SortedLT := by
    rw [List.sortedLT_iff_pairwise, List.pairwise_map]
    exact (List.pairwise_lt_range' 1).imp Int.ofNat_lt.mpr
  -- both lists ascend strictly, so it is enough that they have the same members
  refine ascending.eq_of_mem_iff numbers fun id => ?_
  have member : id ∈ l.actions.map Action.id ↔ (l.action? id).isSome := by
    rw [List.mem_map, Option.isSome_iff_exists]
    constructor
    · rintro ⟨a, ha, rfl⟩
      exact ⟨a, Rows.find?_of_mem h.actions_ascending ha⟩
    · rintro ⟨a, action⟩
      exact ⟨a, Rows.mem_of_find? action, id_of_action? action⟩
  rw [member, h.action_iff, List.mem_map]
  constructor
  · intro between
    exact ⟨id.toNat, List.mem_range'_1.mpr (by lia), by lia⟩
  · rintro ⟨i, hi, rfl⟩
    have := List.mem_range'_1.mp hi
    lia

theorem nodup_keys (h : l.WellFormed) :
    (l.records.map fun r => (r.actionId, r.endpoint)).Nodup := by
  rw [List.Nodup, List.pairwise_map]
  refine h.records_ascending.imp fun {q r} before same => ?_
  have key : Row.key q = Row.key r := same
  rw [key, OrderedRow.irrefl] at before
  cases before

end Ledger.WellFormed

namespace World

variable {σ : Type} [ActionRows σ] [Legible σ] {w : World σ}

/-- What the rows of a store say of one another, and of the tries that were granted. -/
structure Consistent (w : World σ) : Prop where
  ids : ∃ n : Nat, w.ledger.actions.map Action.id = (List.range' 1 n).map fun i : Nat => (i : Int)
  prerequisite : ∀ a ∈ w.ledger.actions, ∀ p, a.prerequisite = some p →
    p < a.id ∧ ∃ b ∈ w.ledger.actions, b.id = p
  action : ∀ r ∈ w.ledger.records, ∃ a ∈ w.ledger.actions, a.id = r.actionId
  endpoint : ∀ r ∈ w.ledger.records, ∃ x ∈ w.ledger.endpoints, x.id = r.endpoint
  single : (w.ledger.records.map fun r => (r.actionId, r.endpoint)).Nodup
  standing : ∀ r ∈ w.ledger.records, ∃ budget,
    w.granted r.actionId r.endpoint = some budget ∧ r.Standing budget

def Upright (w : World σ) : Prop :=
  ∀ {id e r}, w.ledger.record? id e = some r → r.Standing (w.budget id e)

theorem upright_initial : (initial : World σ).Upright := by
  intro id e r found
  simp [initial, ledger, Store.empty, Store.ofRows, Legible.ledger_empty, Ledger.empty,
    Ledger.record?] at found

theorem upright_step (h : w.Accounted) (hu : w.Upright) (m : Move) : (w.step m).Upright := by
  intro id e r' found
  rcases h.strode m found with ⟨-, tries, rfl, -⟩ | ⟨r, next, hr, hbudget, stride, task⟩
  · exact .of_fresh id e tries
  · rw [hbudget]
    exact stride.standing rfl (wellFormed h.sound) hr (hu hr) task

theorem upright_after (moves : List Move) :
    (after moves : World σ).Accounted ∧ (after moves : World σ).Upright :=
  foldl_step (P := fun w => w.Accounted ∧ w.Upright)
    (fun _ m h => ⟨h.1.step m, upright_step h.1 h.2 m⟩) moves ⟨accounted_initial, upright_initial⟩

/-- Whatever happens, the rows of a store stay consistent. -/
theorem consistent_after (moves : List Move) : (after moves : World σ).Consistent := by
  obtain ⟨h, upright⟩ := upright_after (σ := σ) moves
  have hwf : (after moves : World σ).ledger.WellFormed := wellFormed h.sound
  refine ⟨⟨_, hwf.ids_eq⟩, fun a ha p hp => ?_, fun r hr => ?_, fun r hr => ?_, hwf.nodup_keys,
    fun r hr => ?_⟩
  · have action := Rows.find?_of_mem hwf.actions_ascending ha
    obtain ⟨least, lt⟩ : 1 ≤ p ∧ p < a.id := hwf.prerequisite_lt action hp
    have known : a.id ≤ (after moves : World σ).ledger.lastId := hwf.le_lastId action
    obtain ⟨b, hb⟩ := Option.isSome_iff_exists.mp ((hwf.action_iff p).mpr (by lia))
    exact ⟨lt, b, Rows.mem_of_find? hb, Ledger.id_of_action? hb⟩
  · obtain ⟨a, ha⟩ := Option.isSome_iff_exists.mp (hwf.record_action (hwf.record?_of_mem hr))
    exact ⟨a, Rows.mem_of_find? ha, Ledger.id_of_action? ha⟩
  · obtain ⟨x, hx⟩ := Option.isSome_iff_exists.mp (hwf.record_endpoint (hwf.record?_of_mem hr))
    exact ⟨x, Rows.mem_of_find? hx, Ledger.id_of_endpoint? hx⟩
  · obtain ⟨n, hn⟩ := h.granted_of_some (hwf.record?_of_mem hr)
    refine ⟨n, hn, ?_⟩
    have standing := upright (hwf.record?_of_mem hr)
    rwa [budget, hn, Option.getD_some] at standing

end World

end FleetDispatch
