import FleetDispatch.Proofs.Store.Legible
import FleetDispatch.Proofs.Store.Twin

namespace FleetDispatch

theorem option_rel_self {α : Type} {R : α → α → Prop} {x : Option α} (h : ∀ a, x = some a → R a a) :
    Option.Rel R x x := by
  cases x with
  | none => exact .none
  | some a => exact .some (h a rfl)

section twins

variable {L : Instant → Instant → Prop}

section refl

variable (hL : ∀ t, L t t)

include hL

theorem Record.twin_self (r : Record) : Record.Twin L r r :=
  ⟨r.completedAt, option_rel_self fun t _ => hL t, rfl⟩

theorem Endpoint.twin_self (x : Endpoint) : Endpoint.Twin L x x :=
  ⟨x.lastCheckin, option_rel_self fun t _ => hL t, rfl⟩

theorem Action.twin_self (a : Action) : Action.Twin L a a :=
  ⟨a.createdAt, hL _, rfl⟩

end refl

variable (L)

def Record.Renumbered (id : ActionId) (r s : Record) : Prop :=
  Record.Twin L { r with actionId := id } s

def Action.Renumbered (id : ActionId) (a b : Action) : Prop :=
  Action.Twin L { a with id } b

variable {L} {id : ActionId}

theorem Record.Renumbered.same {r s : Record} (h : Renumbered L id r s) :
    s.actionId = id ∧ s.endpoint = r.endpoint ∧ s.status = r.status ∧
      s.remainingTries = r.remainingTries := by
  obtain ⟨t, -, rfl⟩ := h
  exact ⟨rfl, rfl, rfl, rfl⟩

theorem Action.Renumbered.same {a b : Action} (h : Renumbered L id a b) :
    b.id = id ∧ b.prerequisite = a.prerequisite ∧ b.procedure = a.procedure := by
  obtain ⟨t, -, rfl⟩ := h
  exact ⟨rfl, rfl, rfl⟩

end twins

namespace Ledger

variable {L : Instant → Instant → Prop} {e : EndpointId} {l l' l'' m : Ledger} {b id id' : ActionId}
  {o : Option ActionId}

/-- What a ledger has become while one endpoint was left alone: nothing that is about this
endpoint is different, and actions have only been added. -/
structure Beside (e : EndpointId) (l l' : Ledger) : Prop where
  lastId : l.lastId ≤ l'.lastId
  action : ∀ id, id ≤ l.lastId → l'.action? id = l.action? id
  record : ∀ id, l'.record? id e = l.record? id e
  endpoint : l'.endpoint? e = l.endpoint? e

theorem Beside.refl (e : EndpointId) (l : Ledger) : Beside e l l :=
  ⟨Int.le_refl _, fun _ _ => rfl, fun _ => rfl, rfl⟩

theorem Beside.trans (h : Beside e l l') (h' : Beside e l' l'') : Beside e l l'' where
  lastId := Int.le_trans h.lastId h'.lastId
  action id hid := (h'.action id (Int.le_trans hid h.lastId)).trans (h.action id hid)
  record id := (h'.record id).trans (h.record id)
  endpoint := h'.endpoint.trans h.endpoint

theorem beside_putRecord {r : Record} (hr : r.endpoint ≠ e) : Beside e l (l.putRecord r) where
  lastId := Int.le_refl _
  action _ _ := rfl
  record id := by
    rw [record?_putRecord, if_neg fun h => hr (congrArg Prod.snd h)]
  endpoint := rfl

theorem beside_putEndpoint {x : Endpoint} (hx : x.id ≠ e) : Beside e l (l.putEndpoint x) where
  lastId := Int.le_refl _
  action _ _ := rfl
  record _ := rfl
  endpoint := by rw [endpoint?_putEndpoint, if_neg hx]

theorem beside_recordCheckin {x : EndpointId} (hx : x ≠ e) (time : Instant) :
    Beside e l (l.recordCheckin x time) where
  lastId := Int.le_refl _
  action _ _ := rfl
  record _ := rfl
  endpoint := by
    change (l.putEndpoint ((l.endpoint x).checkIn time)).endpoint? e = _
    rw [endpoint?_putEndpoint, if_neg]
    exact fun h => hx ((id_endpoint x l).symm.trans h)

theorem beside_issue {a : Action} {es : List EndpointId} {tries : Nat} (ha : a.id = l.lastId + 1)
    (he : e ∉ es) : Beside e l (l.issue a es tries) where
  lastId := by
    rw [lastId_issue]
    lia
  action id hid := by
    rw [action?_issue, if_neg]
    lia
  record id := by
    rw [record?_issue, if_neg fun h => he h.2]
  endpoint := by
    rw [endpoint?_issue, if_neg he, Option.or_none]

theorem Beside.records_eq (h : Beside e l l') (hl : Rows.Ascending l.records)
    (hl' : Rows.Ascending l'.records) :
    l'.records.filter (·.endpoint == e) = l.records.filter (·.endpoint == e) := by
  have hmem : ∀ r, r ∈ l'.records.filter (·.endpoint == e) ↔
      r ∈ l.records.filter (·.endpoint == e) := by
    intro r
    simp only [List.mem_filter, beq_iff_eq]
    refine and_congr_left fun hr => ?_
    have hrecord := h.record r.actionId
    rw [record?, record?, ← hr] at hrecord
    rw [Rows.mem_iff_find? hl', Rows.mem_iff_find? hl]
    exact iff_of_eq (congrArg (· = some r) hrecord)
  have hnodup : ∀ {rs : List Record}, Rows.Ascending rs → (rs.filter (·.endpoint == e)).Nodup := by
    intro rs hrs
    refine (hrs.imp fun hb heq => ?_).filter _
    rw [heq, OrderedRow.irrefl] at hb
    cases hb
  refine List.Perm.eq_of_pairwise (fun r s _ _ hrs hsr => ?_) (hl'.filter _) (hl.filter _)
    ((List.perm_ext_iff_of_nodup (hnodup hl') (hnodup hl)).mpr hmem)
  have hrr := OrderedRow.trans hrs hsr
  rw [OrderedRow.irrefl] at hrr
  cases hrr

/-- Which action of one ledger stands for which of the other: the first ones for themselves, and
of those that came later at most one, for the next. -/
def Slot (b : ActionId) (o : Option ActionId) (id id' : ActionId) : Prop :=
  (id ≤ b ∧ id' = id) ∨ (o = some id ∧ id' = b + 1)

theorem Slot.grow {b id id' : ActionId} (h : Slot b none id id') (new : ActionId) :
    Slot b (some new) id id' :=
  .inl (h.resolve_right fun hown => nomatch hown.1)

def standIn (b : ActionId) (o : Option ActionId) (id : ActionId) : ActionId :=
  if o = some id then b + 1 else id

theorem Slot.standIn_eq {b id id' : ActionId} {o : Option ActionId} (h : Slot b o id id')
    (later : ∀ new, o = some new → b < new) : standIn b o id = id' := by
  unfold standIn
  rcases h with ⟨hle, rfl⟩ | ⟨hown, rfl⟩
  · rw [if_neg]
    intro hown
    have := later _ hown
    lia
  · rw [if_pos hown]

/-- Two ledgers that show the same of one endpoint. The second had no actions but the first ones
and at most one for this endpoint; in the first there are others besides. -/
structure SameFor (L : Instant → Instant → Prop) (e : EndpointId) (b : ActionId)
    (o : Option ActionId) (l m : Ledger) : Prop where
  lastId : m.lastId = if o.isSome then b + 1 else b
  first : b ≤ l.lastId
  own : ∀ id, o = some id → b < id ∧ id ≤ l.lastId ∧
    ∃ a, l.action? id = some a ∧ a.prerequisite = none
  action : ∀ id id', Slot b o id id' →
    Option.Rel (Action.Renumbered L id') (l.action? id) (m.action? id')
  record : ∀ id id', Slot b o id id' →
    Option.Rel (Record.Renumbered L id') (l.record? id e) (m.record? id' e)
  absent : ∀ id, b < id → o ≠ some id → l.record? id e = none
  endpoint : Option.Rel (Endpoint.Twin L) (l.endpoint? e) (m.endpoint? e)

theorem SameFor.slot_inj (h : SameFor L e b o l m) {i i' : ActionId} (hid : Slot b o id id')
    (hi : Slot b o i i') : id = i ↔ id' = i' := by
  rcases hid with ⟨hle, rfl⟩ | ⟨hown, rfl⟩ <;> rcases hi with ⟨hle', rfl⟩ | ⟨hown', rfl⟩
  · exact Iff.rfl
  · have := (h.own _ hown').1
    constructor <;> intro heq <;> lia
  · have := (h.own _ hown).1
    constructor <;> intro heq <;> lia
  · rw [hown] at hown'
    exact ⟨fun _ => rfl, fun _ => Option.some.inj hown'⟩

/-- A ledger beside another one shows the same of the endpoint that was left alone. -/
theorem Beside.sameFor (hL : ∀ t, L t t) (h : Beside e m l)
    (hm : ∀ id, m.lastId < id → m.record? id e = none) : SameFor L e m.lastId none l m where
  lastId := rfl
  first := h.lastId
  own _ hid := nomatch hid
  action id id' hslot := by
    obtain ⟨hle, rfl⟩ | ⟨hown, -⟩ := hslot
    · rw [h.action id' hle]
      refine option_rel_self fun a ha => ?_
      rw [Action.Renumbered, ← id_of_action? ha]
      exact Action.twin_self hL a
    · cases hown
  record id id' hslot := by
    obtain ⟨hle, rfl⟩ | ⟨hown, -⟩ := hslot
    · rw [h.record id']
      refine option_rel_self fun r hr => ?_
      rw [Record.Renumbered, ← actionId_of_record? hr]
      exact Record.twin_self hL r
    · cases hown
  absent id hid _ := (h.record id).trans (hm id hid)
  endpoint := by
    rw [h.endpoint]
    exact option_rel_self fun x _ => Endpoint.twin_self hL x

theorem SameFor.beside (h : SameFor L e b o l m) (hl : Beside e l l') : SameFor L e b o l' m where
  lastId := h.lastId
  first := Int.le_trans h.first hl.lastId
  own id hid := by
    obtain ⟨hb, hle, a, ha, hprerequisite⟩ := h.own id hid
    exact ⟨hb, Int.le_trans hle hl.lastId, a, (hl.action id hle).trans ha, hprerequisite⟩
  action id id' hslot := by
    have hle : id ≤ l.lastId := by
      rcases hslot with ⟨hle, -⟩ | ⟨hown, -⟩
      · exact Int.le_trans hle h.first
      · exact (h.own id hown).2.1
    rw [hl.action id hle]
    exact h.action id id' hslot
  record id id' hslot := by
    rw [hl.record id]
    exact h.record id id' hslot
  absent id hid hother := (hl.record id).trans (h.absent id hid hother)
  endpoint := by
    rw [hl.endpoint]
    exact h.endpoint

theorem SameFor.putRecord {r s : Record} (h : SameFor L e b o l m) (hslot : Slot b o r.actionId id')
    (hr : r.endpoint = e) (hrs : Record.Renumbered L id' r s) :
    SameFor L e b o (l.putRecord r) (m.putRecord s) where
  lastId := h.lastId
  first := h.first
  own := h.own
  action := h.action
  record i i' hi := by
    obtain ⟨hid, hendpoint, -⟩ := hrs.same
    rw [record?_putRecord, record?_putRecord, hid, hendpoint, hr]
    by_cases hsame : r.actionId = i
    · have hsame' := (h.slot_inj hslot hi).mp hsame
      rw [if_pos (by rw [hsame]), if_pos (by rw [hsame'])]
      exact .some (hsame' ▸ hrs)
    · have hother := mt (h.slot_inj hslot hi).mpr hsame
      rw [if_neg fun heq => hsame (congrArg Prod.fst heq),
        if_neg fun heq => hother (congrArg Prod.fst heq)]
      exact h.record i i' hi
  absent i hi hother := by
    rw [record?_putRecord, if_neg]
    · exact h.absent i hi hother
    · intro heq
      obtain rfl : r.actionId = i := congrArg Prod.fst heq
      rcases hslot with ⟨hle, -⟩ | ⟨hown, -⟩
      · lia
      · exact hother hown
  endpoint := h.endpoint

theorem SameFor.putEndpoint {x y : Endpoint} (h : SameFor L e b o l m) (hx : x.id = e)
    (hxy : Endpoint.Twin L x y) :
    SameFor L e b o (l.putEndpoint x) (m.putEndpoint y) where
  lastId := h.lastId
  first := h.first
  own := h.own
  action := h.action
  record := h.record
  absent := h.absent
  endpoint := by
    have hy : y.id = e := by
      obtain ⟨t, -, rfl⟩ := hxy
      exact hx
    rw [endpoint?_putEndpoint, endpoint?_putEndpoint, if_pos hx, if_pos hy]
    exact .some hxy

theorem SameFor.endpoint_twin (hL : ∀ t, L t t) (h : SameFor L e b o l m) :
    Endpoint.Twin L (l.endpoint e) (m.endpoint e) := by
  have hrel := h.endpoint
  rw [endpoint_eq, endpoint_eq]
  generalize l.endpoint? e = x at hrel
  generalize m.endpoint? e = y at hrel
  cases hrel with
  | none => exact Endpoint.twin_self hL _
  | some hxy => exact hxy

theorem SameFor.recordCheckin {time time' : Instant} (hL : ∀ t, L t t) (h : SameFor L e b o l m)
    (ht : L time time') :
    SameFor L e b o (l.recordCheckin e time) (m.recordCheckin e time') := by
  have htwin : Endpoint.Twin L ((l.endpoint e).checkIn time)
      ((m.endpoint e).checkIn time') := by
    obtain ⟨t, -, hm⟩ := h.endpoint_twin hL
    exact ⟨some time', .some ht, by rw [hm]; rfl⟩
  have hput := h.putEndpoint (x := (l.endpoint e).checkIn time) (id_endpoint e l) htwin
  exact ⟨hput.lastId, hput.first, hput.own, hput.action, hput.record, hput.absent, hput.endpoint⟩

theorem SameFor.issue {wall wall' : Instant} {n : NewAction} (hL : ∀ t, L t t)
    (h : SameFor L e b none l m) (hprerequisite : n.prerequisite = none)
    (hendpoints : n.endpoints = [e]) (hwall : L wall wall') :
    SameFor L e b (some (l.lastId + 1)) (l.issue (l.created wall n) n.endpoints n.retries)
      (m.issue (m.created wall' n) n.endpoints n.retries) where
  lastId := by
    have hlast : m.lastId = b := h.lastId
    simp [created, hlast]
  first := by
    have := h.first
    simp only [lastId_issue, created]
    lia
  own id hid := by
    obtain rfl := Option.some.inj hid
    have := h.first
    have hnew : (l.created wall n).id = l.lastId + 1 := rfl
    refine ⟨by lia, by simp [created], l.created wall n, ?_, hprerequisite⟩
    rw [action?_issue, if_pos hnew]
  action id id' hslot := by
    have hlast : m.lastId = b := h.lastId
    have := h.first
    rw [action?_issue, action?_issue]
    -- an id from before the first creation is the same in both, the new one is named anew
    rcases hslot with ⟨hle, rfl⟩ | ⟨hown, rfl⟩
    · have hne : (l.created wall n).id ≠ id' ∧ (m.created wall' n).id ≠ id' := by
        constructor <;> simp only [created] <;> lia
      rw [if_neg hne.1, if_neg hne.2]
      exact h.action id' id' (.inl ⟨hle, rfl⟩)
    · obtain rfl := Option.some.inj hown
      have hnew : (l.created wall n).id = l.lastId + 1 ∧ (m.created wall' n).id = b + 1 :=
        ⟨rfl, by rw [created, hlast]⟩
      rw [if_pos hnew.1, if_pos hnew.2]
      refine .some ⟨wall', hwall, ?_⟩
      simp [created, hlast]
  record id id' hslot := by
    have hlast : m.lastId = b := h.lastId
    have := h.first
    rw [record?_issue, record?_issue, hendpoints]
    rcases hslot with ⟨hle, rfl⟩ | ⟨hown, rfl⟩
    · have hne : (l.created wall n).id ≠ id' ∧ (m.created wall' n).id ≠ id' := by
        constructor <;> simp only [created] <;> lia
      rw [if_neg fun heq => hne.1 heq.1, if_neg fun heq => hne.2 heq.1]
      exact h.record id' id' (.inl ⟨hle, rfl⟩)
    · obtain rfl := Option.some.inj hown
      have hnew : (l.created wall n).id = l.lastId + 1 ∧ (m.created wall' n).id = b + 1 :=
        ⟨rfl, by rw [created, hlast]⟩
      rw [if_pos ⟨hnew.1, List.mem_singleton_self e⟩, if_pos ⟨hnew.2, List.mem_singleton_self e⟩]
      refine .some ⟨none, .none, ?_⟩
      simp [Record.fresh, created, hlast]
  absent id hid hother := by
    have hne : (l.created wall n).id ≠ id := fun heq => hother (congrArg some heq)
    rw [record?_issue, if_neg fun heq => hne heq.1]
    exact h.absent id hid (Option.some_ne_none id).symm
  endpoint := by
    rw [endpoint?_issue, endpoint?_issue, hendpoints]
    have hrel := h.endpoint
    generalize l.endpoint? e = x at hrel
    generalize m.endpoint? e = y at hrel
    cases hrel with
    | some hxy => exact .some hxy
    | none =>
      simp only [List.mem_singleton, if_pos, Option.none_or]
      exact .some (Endpoint.twin_self hL _)

end Ledger

end FleetDispatch
