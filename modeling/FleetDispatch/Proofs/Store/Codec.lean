import FleetDispatch.Proofs.Store.Legible

namespace FleetDispatch

namespace Instant

def atMillis (ms : Int) : Instant :=
  ⟨ms / 1000, (ms % 1000).toNat * 1000000⟩

@[simp] theorem toMillis_atMillis (ms : Int) : (atMillis ms).toMillis = ms := by
  simp only [atMillis, toMillis]
  omega

theorem atMillis_le {m n : Int} : atMillis m ≤ atMillis n ↔ m ≤ n := by
  change (_ < _ ∨ _ = _ ∧ _ ≤ _) ↔ _
  simp only [atMillis]
  omega

theorem atMillis_inj {m n : Int} : atMillis m = atMillis n ↔ m = n := by
  refine ⟨fun h => ?_, congrArg atMillis⟩
  have ht := congrArg toMillis h
  rwa [toMillis_atMillis, toMillis_atMillis] at ht

def cut (t : Instant) : Instant :=
  atMillis t.toMillis

@[simp] theorem cut_atMillis (ms : Int) : (atMillis ms).cut = atMillis ms := by
  rw [cut, toMillis_atMillis]

@[simp] theorem cut_cut (t : Instant) : t.cut.cut = t.cut :=
  cut_atMillis _

end Instant

theorem timeOf_eq_ok {ms : Int} {t : Instant} (h : timeOf ms = .ok t) : t = .atMillis ms := by
  unfold timeOf Instant.ofMillis? at h
  by_cases hr : Instant.leastMillis ≤ ms ∧ ms ≤ Instant.greatestMillis
  · rw [if_pos hr] at h
    exact (Except.ok.inj h).symm
  · rw [if_neg hr] at h
    cases h

theorem optionalTimeOf_eq_ok {ms : Option Int} {t : Option Instant}
    (h : optionalTimeOf ms = .ok t) : t = ms.map .atMillis := by
  cases ms with
  | none => exact (Except.ok.inj h).symm
  | some ms =>
    cases ht : timeOf ms with
    | ok x =>
      simp only [optionalTimeOf, ht] at h
      rw [← Except.ok.inj h, timeOf_eq_ok ht]
      rfl
    | error e =>
      simp only [optionalTimeOf, ht] at h
      cases h

theorem Column.optionalInt_ofOption (c : Column) (n : Option Int) :
    c.optionalInt (.ofOption n) = .ok n := by
  cases n <;> rfl

/-- The procedure that a stored text stands for; a text that stands for none is taken as a name. -/
def Procedure.ofStored (s : String) : Procedure :=
  match ofText s with
  | .ok p => p
  | .error _ => ⟨s, [], []⟩

theorem Procedure.eq_ofStored {s : String} {p : Procedure} {f : Option Json.Misreading → StoreError}
    (h : (ofText s).mapError f = .ok p) : p = .ofStored s := by
  unfold ofStored
  cases hs : ofText s with
  | ok q =>
    rw [hs] at h
    exact (Except.ok.inj h).symm
  | error m =>
    rw [hs] at h
    cases h

@[simp] theorem Cell.int?_ofOption (n : Option Int) : (ofOption n).int? = n := by
  cases n <;> rfl

theorem Status.ofText?_name (s : Status) : ofText? s.name = some s := by
  cases s <;> decide +kernel

theorem Status.name_beq (s t : Status) : (s.name == t.name) = (s == t) := by
  cases s <;> cases t <;> decide +kernel

def Keeping.rows : Keeping :=
  ⟨Instant.cut, fun p => .ofStored p.toText⟩

namespace RecordRow

def reading (r : RecordRow) : Record :=
  ⟨r.actionId, r.endpoint, (Status.ofText? r.status).getD .queued,
    (r.remainingTries.int?.getD 0).toNat, r.resultCode.int?, r.resultMsg,
    r.completedAtMs.int?.map .atMillis⟩

theorem renders_reading : Rows.Renders reading :=
  ⟨fun _ => rfl, fun _ _ => rfl⟩

theorem reading_encode (r : Record) : (encode r).reading = r.kept .rows := by
  simp only [reading, encode, Status.ofText?_name, Cell.int?_ofOption, Option.map_map]
  rfl

theorem numbers_encode (r : Record) : (encode r).numbers =
    .ok ⟨r.remainingTries, r.resultCode, r.completedAt.map Instant.toMillis⟩ := by
  obtain ⟨id, e, status, tries, code, msg, time⟩ := r
  cases code <;> cases time <;> rfl

theorem withNumbers_encode (r : Record) (ms : Option Int) :
    (encode r).withNumbers ⟨r.remainingTries, r.resultCode, ms⟩ =
      if Width.most32 < r.remainingTries then .error (.invalidData (.tries r.remainingTries))
      else (optionalTimeOf ms).map fun t => { r with completedAt := t } := by
  have hs : Status.ofText? (encode r).status = some r.status := Status.ofText?_name r.status
  have hn : ((r.remainingTries : Int) < 0 || (Width.most32 : Int) < r.remainingTries) =
      decide (Width.most32 < r.remainingTries) := by
    rw [Bool.eq_iff_iff]
    simp only [Bool.or_eq_true, decide_eq_true_eq]
    omega
  unfold withNumbers
  simp only [hs, hn, decide_eq_true_eq]
  split
  · rfl
  · cases optionalTimeOf ms <;> rfl

theorem decode_encode (r : Record) : (encode r).decode =
    if Width.most32 < r.remainingTries then .error (.invalidData (.tries r.remainingTries))
    else (optionalTimeOf (r.completedAt.map Instant.toMillis)).map fun t =>
      { r with completedAt := t } := by
  unfold decode
  rw [numbers_encode]
  exact withNumbers_encode r _

theorem decode_encode_eq_ok {r x : Record} (h : (encode r).decode = .ok x) :
    x = (encode r).reading := by
  rw [decode_encode] at h
  rw [reading_encode]
  split at h
  · cases h
  · cases ht : optionalTimeOf (r.completedAt.map Instant.toMillis) with
    | ok t =>
      rw [ht] at h
      rw [← Except.ok.inj h, optionalTimeOf_eq_ok ht, Option.map_map]
      rfl
    | error e =>
      rw [ht] at h
      cases h

theorem isQueued_encode (r : Record) : (encode r).isQueued = (r.status == .queued) :=
  Status.name_beq r.status .queued

end RecordRow

namespace EndpointRow

def reading (e : EndpointRow) : Endpoint :=
  ⟨e.id, e.needsRefresh.int?.getD 0 != 0, e.lastCheckinMs.int?.map .atMillis⟩

theorem renders_reading : Rows.Renders reading :=
  ⟨fun _ => rfl, fun _ _ => rfl⟩

theorem reading_encode (e : Endpoint) : (encode e).reading = e.kept .rows := by
  obtain ⟨id, flag, time⟩ := e
  cases flag <;> cases time <;> rfl

theorem decode_encode_eq_ok {e x : Endpoint} (h : (encode e).decode = .ok x) :
    x = (encode e).reading := by
  obtain ⟨flag, hflag, h₁⟩ := of_bind_eq_ok h
  obtain ⟨ms, hms, h₂⟩ := of_bind_eq_ok h₁
  obtain ⟨t, ht, h₃⟩ := of_bind_eq_ok h₂
  rw [encode, Column.optionalInt_ofOption] at hms
  obtain rfl := Except.ok.inj hflag
  obtain rfl := Except.ok.inj hms
  rw [optionalTimeOf_eq_ok ht] at h₃
  rw [← Except.ok.inj h₃, reading, encode, Cell.int?_ofOption]
  rfl

end EndpointRow

namespace ActionRow

def reading (a : ActionRow) : Action :=
  ⟨a.id, a.name, .atMillis (a.scheduledAtMs.int?.getD 0), a.prerequisite.int?,
    .ofStored a.procedure, .atMillis (a.createdAtMs.int?.getD 0)⟩

theorem renders_reading : Rows.Renders reading :=
  ⟨fun _ => rfl, fun _ _ => rfl⟩

variable {id : ActionId} {now : Instant} {n : NewAction}

theorem reading_encode : (encode id now n).reading =
    ⟨id, n.name, n.scheduledAt.cut, n.prerequisite, .ofStored n.procedure.toText, now.cut⟩ := by
  simp only [reading, encode, Cell.int?_ofOption]
  rfl

theorem decode_encode_eq_ok {x : Action} (h : (encode id now n).decode = .ok x) :
    x = (encode id now n).reading := by
  obtain ⟨s, hs, h₁⟩ := of_bind_eq_ok h
  obtain ⟨prerequisite, hprerequisite, h₂⟩ := of_bind_eq_ok h₁
  obtain ⟨c, hc, h₃⟩ := of_bind_eq_ok h₂
  obtain ⟨p, hp, h₄⟩ := of_bind_eq_ok h₃
  obtain ⟨scheduledAt, hscheduledAt, h₅⟩ := of_bind_eq_ok h₄
  obtain ⟨createdAt, hcreatedAt, h₆⟩ := of_bind_eq_ok h₅
  rw [encode, Column.optionalInt_ofOption] at hprerequisite
  obtain rfl := Except.ok.inj hs
  obtain rfl := Except.ok.inj hprerequisite
  obtain rfl := Except.ok.inj hc
  rw [timeOf_eq_ok hscheduledAt, timeOf_eq_ok hcreatedAt, Procedure.eq_ofStored hp] at h₆
  rw [← Except.ok.inj h₆, reading_encode]
  rfl

end ActionRow

end FleetDispatch
