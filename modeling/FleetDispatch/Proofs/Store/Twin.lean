import FleetDispatch.Proofs.Json.Stored
import FleetDispatch.Proofs.Store.Paired
import FleetDispatch.Proofs.Store.Reading

namespace FleetDispatch

namespace Instant

/-- An instant that a calendar has once it is cut down to its millisecond. -/
def IsDated (t : Instant) : Prop :=
  leastMillis ≤ t.toMillis ∧ t.toMillis ≤ greatestMillis

instance (t : Instant) : Decidable t.IsDated :=
  inferInstanceAs (Decidable (_ ∧ _))

/-- A whole millisecond that is not in a leap second. -/
structure IsWhole (t : Instant) : Prop where
  whole : t.nanos % 1000000 = 0
  notLeap : t.nanos < 1000000000
  dated : t.IsDated

instance (t : Instant) : Decidable t.IsWhole :=
  decidable_of_iff (t.nanos % 1000000 = 0 ∧ t.nanos < 1000000000 ∧ t.IsDated)
    ⟨fun ⟨hwhole, hleap, hdated⟩ => ⟨hwhole, hleap, hdated⟩,
      fun h => ⟨h.whole, h.notLeap, h.dated⟩⟩

variable {t : Instant}

theorem floorMillis?_eq_some {u : Instant} : t.floorMillis? = some u ↔ t.IsDated ∧ u = t.cut := by
  unfold Instant.floorMillis? ofMillis?
  constructor
  · intro h
    split at h
    · next hdated => exact ⟨hdated, (Option.some.inj h).symm⟩
    · cases h
  · rintro ⟨hdated, rfl⟩
    exact if_pos hdated

theorem IsDated.cut (h : t.IsDated) : t.cut.IsDated := by
  unfold IsDated Instant.cut
  rwa [toMillis_atMillis]

theorem IsWhole.eq_cut (h : t.IsWhole) : t = t.cut := by
  obtain ⟨seconds, nanos⟩ := t
  have hwhole : nanos % 1000000 = 0 := h.whole
  have hleap : nanos < 1000000000 := h.notLeap
  simp only [cut, atMillis, toMillis, mk.injEq]
  omega

theorem IsWhole.floorMillis? (h : t.IsWhole) : t.floorMillis? = some t :=
  floorMillis?_eq_some.mpr ⟨h.dated, h.eq_cut⟩

theorem IsWhole.toMillis_le {u : Instant} (ht : t.IsWhole) (hu : u.IsWhole) :
    t.toMillis ≤ u.toMillis ↔ t ≤ u := by
  have hle := @atMillis_le t.toMillis u.toMillis
  change t.cut ≤ u.cut ↔ _ at hle
  rw [← ht.eq_cut, ← hu.eq_cut] at hle
  exact hle.symm

theorem timeOf_toMillis {u : Instant} (h : t.floorMillis? = some u) :
    timeOf t.toMillis = .ok u := by
  unfold Instant.floorMillis? at h
  unfold timeOf
  rw [h]

theorem timeOf_of_undated (h : ¬ t.IsDated) :
    timeOf t.toMillis = .error (.invalidData (.time t.toMillis)) := by
  have hnone : ofMillis? t.toMillis = none := if_neg h
  unfold timeOf
  rw [hnone]

end Instant

/-- A relation between instants that lasts while the second is kept as a millisecond. -/
structure Lasting (L : Instant → Instant → Prop) : Prop where
  kept {t u : Instant} : L t u → ∃ v, u.floorMillis? = some v ∧ L t v

variable {L : Instant → Instant → Prop}

theorem Lasting.optionalTimeOf {t u : Option Instant} (hL : Lasting L) (h : Option.Rel L t u) :
    ∃ v, optionalTimeOf (u.map Instant.toMillis) = .ok v ∧ Option.Rel L t v := by
  cases h with
  | none => exact ⟨none, rfl, .none⟩
  | some h =>
    obtain ⟨v, hv, hlast⟩ := hL.kept h
    refine ⟨some v, ?_, .some hlast⟩
    simp only [Option.map_some, FleetDispatch.optionalTimeOf, Instant.timeOf_toMillis hv]
    rfl

section twins

variable (L)

/-- Records that differ at most in when they ended. -/
def Record.Twin (r s : Record) : Prop :=
  ∃ t, Option.Rel L r.completedAt t ∧ s = { r with completedAt := t }

def Action.Twin (a b : Action) : Prop :=
  ∃ t, L a.createdAt t ∧ b = { a with createdAt := t }

def Endpoint.Twin (e f : Endpoint) : Prop :=
  ∃ t, Option.Rel L e.lastCheckin t ∧ f = { e with lastCheckin := t }

def PendingRecord.Twin (p q : PendingRecord) : Prop :=
  ∃ r, Record.Twin L p.record r ∧ q = { p with record := r }

def Action.request (a : Action) : NewAction :=
  ⟨a.name, a.scheduledAt, a.prerequisite, a.procedure, [], 0⟩

/-- A row that a record can be read from again. -/
def RecordRow.Holds (r : Record) (row : RecordRow) : Prop :=
  ∃ s, Record.Twin L r s ∧ r.remainingTries ≤ Width.most32 ∧ row = encode s

def ActionRow.Holds (a : Action) (row : ActionRow) : Prop :=
  ∃ t, L a.createdAt t ∧ a.scheduledAt.IsWhole ∧ a.procedure.isStorable = true ∧
    row = encode a.id t a.request

def EndpointRow.Holds (e : Endpoint) (row : EndpointRow) : Prop :=
  ∃ f, Endpoint.Twin L e f ∧ row = encode f

def Tables.Joined.Holds (p : PendingRecord) (j : Joined) : Prop :=
  RecordRow.Holds L p.record j.record ∧ ∃ a : Action, ActionRow.Holds L a j.action ∧
    a.id = p.record.actionId ∧ a.name = p.actionName ∧ a.scheduledAt = p.scheduledAt

end twins

theorem RecordRow.pairs_holds : Rows.Pairs (RecordRow.Holds L) where
  key := by
    rintro r - ⟨-, ⟨t, -, rfl⟩, -, rfl⟩
    rfl
  before _ _ := rfl

theorem ActionRow.pairs_holds : Rows.Pairs (ActionRow.Holds L) where
  key := by
    rintro a - ⟨t, -, -, -, rfl⟩
    rfl
  before _ _ := rfl

theorem EndpointRow.pairs_holds : Rows.Pairs (EndpointRow.Holds L) where
  key := by
    rintro e - ⟨-, ⟨t, -, rfl⟩, rfl⟩
    rfl
  before _ _ := rfl

theorem RecordRow.Holds.decode {r : Record} {row : RecordRow} (hL : Lasting L)
    (h : Holds L r row) : ∃ s, row.decode = .ok s ∧ Record.Twin L r s := by
  obtain ⟨-, ⟨t, ht, rfl⟩, htries, rfl⟩ := h
  obtain ⟨u, hu, hru⟩ := hL.optionalTimeOf ht
  refine ⟨{ r with completedAt := u }, ?_, u, hru, rfl⟩
  rw [decode_encode, if_neg (Nat.not_lt.mpr htries), hu]
  rfl

theorem ActionRow.Holds.decode {a : Action} {row : ActionRow} (hL : Lasting L)
    (h : Holds L a row) : ∃ b, row.decode = .ok b ∧ Action.Twin L a b := by
  obtain ⟨t, ht, hwhole, hstorable, rfl⟩ := h
  obtain ⟨u, hu, hau⟩ := hL.kept ht
  refine ⟨{ a with createdAt := u }, ?_, u, hau, rfl⟩
  have hscheduled := Instant.timeOf_toMillis hwhole.floorMillis?
  have hcreated := Instant.timeOf_toMillis hu
  simp only [ActionRow.decode, encode, Action.request, Column.int, Column.optionalInt_ofOption,
    Procedure.ofText_toText hstorable, Except.mapError, bind, Except.bind, hscheduled, hcreated]
  rfl

theorem EndpointRow.Holds.decode {e : Endpoint} {row : EndpointRow} (hL : Lasting L)
    (h : Holds L e row) : ∃ f, row.decode = .ok f ∧ Endpoint.Twin L e f := by
  obtain ⟨-, ⟨t, ht, rfl⟩, rfl⟩ := h
  obtain ⟨u, hu, heu⟩ := hL.optionalTimeOf ht
  refine ⟨{ e with lastCheckin := u }, ?_, u, heu, rfl⟩
  simp only [EndpointRow.decode, encode, Column.int, Column.optionalInt_ofOption, bind, Except.bind,
    hu]
  cases e.needsRefresh <;> rfl

namespace Tables.Joined

variable {p q : PendingRecord} {j k : Joined}

theorem Holds.decode (hL : Lasting L) (h : Holds L p j) :
    ∃ q, j.decode = .ok q ∧ PendingRecord.Twin L p q := by
  obtain ⟨hrecord, a, ⟨t, ht, hwhole, hstorable, haction⟩, hid, hname, hat⟩ := h
  obtain ⟨s, hs, htwin⟩ := hrecord.decode hL
  refine ⟨{ p with record := s }, ?_, s, htwin, rfl⟩
  obtain ⟨numbers, hnumbers, hwith⟩ := of_bind_eq_ok hs
  have hscheduled := Instant.timeOf_toMillis hwhole.floorMillis?
  rw [hat] at hscheduled
  obtain ⟨record, action⟩ := j
  subst haction
  simp only [Joined.decode, hnumbers, hwith, ActionRow.encode, Action.request, Column.int, bind,
    Except.bind, hscheduled, hname, hat]
  rfl

theorem Holds.before (hj : Holds L p j) (hk : Holds L q k) :
    Joined.before j k = PendingRecord.before p q := by
  obtain ⟨-, a, ⟨t, -, hwhole, -, haction⟩, hid, -, hat⟩ := hj
  obtain ⟨-, b, ⟨u, -, hwhole', -, haction'⟩, hid', -, hat'⟩ := hk
  have hp : p.scheduledAt = .atMillis a.scheduledAt.toMillis := hat.symm.trans hwhole.eq_cut
  have hq : q.scheduledAt = .atMillis b.scheduledAt.toMillis := hat'.symm.trans hwhole'.eq_cut
  simp only [Joined.before, PendingRecord.before, PendingRecord.actionId, haction, haction',
    ActionRow.encode, Action.request, Cell.int.injEq, Cell.le, hp, hq, hid, hid',
    Instant.atMillis_inj, Instant.atMillis_le]
  rfl

end Tables.Joined

end FleetDispatch
