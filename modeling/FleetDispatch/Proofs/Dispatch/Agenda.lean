import FleetDispatch.Proofs.Dispatch.Trail

namespace FleetDispatch

namespace Instant

variable {s t u : Instant}

theorem le_iff :
    s ≤ t ↔ s.seconds < t.seconds ∨ (s.seconds = t.seconds ∧ s.nanos ≤ t.nanos) :=
  Iff.rfl

theorem le_trans (hst : s ≤ t) (htu : t ≤ u) : s ≤ u := by
  rw [le_iff] at *
  omega

theorem le_total (s t : Instant) : s ≤ t ∨ t ≤ s := by
  simp only [le_iff]
  omega

theorem le_refl (s : Instant) : s ≤ s :=
  (le_total s s).elim id id

theorem le_antisymm (hst : s ≤ t) (hts : t ≤ s) : s = t := by
  rw [le_iff] at hst hts
  obtain ⟨seconds, nanos⟩ := s
  obtain ⟨seconds', nanos'⟩ := t
  simp only at hst hts
  obtain rfl : seconds = seconds' := by omega
  obtain rfl : nanos = nanos' := by omega
  rfl

end Instant

theorem PendingRecord.before_iff {p q : PendingRecord} :
    p.before q ↔ p.scheduledAt ≤ q.scheduledAt ∧
      (p.scheduledAt = q.scheduledAt → p.actionId ≤ q.actionId) := by
  unfold before
  by_cases h : p.scheduledAt = q.scheduledAt
  · rw [if_pos h, decide_eq_true_iff]
    exact ⟨fun hle => ⟨h ▸ Instant.le_refl _, fun _ => hle⟩, fun hle => hle.2 h⟩
  · rw [if_neg h, decide_eq_true_iff]
    exact ⟨fun hle => ⟨hle, fun heq => absurd heq h⟩, fun hle => hle.1⟩

theorem PendingRecord.before_trans (p q r : PendingRecord) (hpq : p.before q) (hqr : q.before r) :
    p.before r := by
  rw [before_iff] at *
  refine ⟨Instant.le_trans hpq.1 hqr.1, fun h => ?_⟩
  have hp : p.scheduledAt = q.scheduledAt := Instant.le_antisymm hpq.1 (h ▸ hqr.1)
  exact Int.le_trans (hpq.2 hp) (hqr.2 (hp ▸ h))

theorem PendingRecord.before_total (p q : PendingRecord) : (p.before q || q.before p) = true := by
  rw [Bool.or_eq_true, before_iff, before_iff]
  by_cases h : p.scheduledAt = q.scheduledAt
  · rw [h]
    rcases Int.le_total p.actionId q.actionId with hle | hle
    · exact .inl ⟨Instant.le_refl _, fun _ => hle⟩
    · exact .inr ⟨Instant.le_refl _, fun _ => hle⟩
  · rcases Instant.le_total p.scheduledAt q.scheduledAt with hle | hle
    · exact .inl ⟨hle, fun heq => absurd heq h⟩
    · exact .inr ⟨hle, fun heq => absurd heq.symm h⟩

namespace Backlog

variable {b b' : Backlog} {now : Instant} {p : PendingRecord}

theorem sorted_ofPending (pending : List PendingRecord) :
    (ofPending pending).items.Pairwise fun p q => p.before q = true :=
  List.pairwise_mergeSort PendingRecord.before_trans PendingRecord.before_total pending

theorem nextDue_some (h : b.nextDue now = (some p, b')) :
    b.items = p :: b'.items ∧ p.scheduledAt ≤ now ∧ b'.halted = b.halted := by
  unfold nextDue at h
  split at h
  · cases h
  · split at h
    · cases h
    · next items =>
      split at h
      · next hdue =>
        cases h
        exact ⟨items, hdue, rfl⟩
      · cases h

theorem nextDue_none (awake : b.halted = false) (h : b.nextDue now = (none, b')) :
    b'.items = b.items ∧ ∀ p ∈ b.items.head?, ¬ p.scheduledAt ≤ now := by
  unfold nextDue at h
  rw [awake, if_neg Bool.false_ne_true] at h
  split at h
  · next items =>
    cases h
    exact ⟨rfl, by simp [items]⟩
  · next head rest items =>
    split at h
    · cases h
    · next hdue =>
      cases h
      exact ⟨rfl, by simpa [items] using hdue⟩

theorem not_due_of_head {items : List PendingRecord}
    (sorted : items.Pairwise fun p q => p.before q = true)
    (head : ∀ p ∈ items.head?, ¬ p.scheduledAt ≤ now) : ∀ p ∈ items, ¬ p.scheduledAt ≤ now := by
  cases items with
  | nil => simp
  | cons first rest =>
    intro p hp hdue
    rcases List.mem_cons.mp hp with rfl | hp
    · exact head p rfl hdue
    · have hbefore := PendingRecord.before_iff.mp ((List.pairwise_cons.mp sorted).1 p hp)
      exact head first rfl (Instant.le_trans hbefore.1 hdue)

end Backlog

namespace Ledger

variable {l : Ledger} {e : EndpointId} {now : Instant} {pending : List PendingRecord}

def Awaits (id : ActionId) (e : EndpointId) (time : Instant) (l : Ledger) : Prop :=
  ∃ r a, l.record? id e = some r ∧ r.status = .queued ∧ l.action? id = some a ∧
    a.scheduledAt = time

/-- The actions that an endpoint awaits: the due ones in the order of their times, and of one time
in the order of their ids, and the later ones. -/
structure Agenda (e : EndpointId) (now : Instant) (due later : List ActionId) (l : Ledger) :
    Prop where
  mem_due : ∀ id, id ∈ due ↔ ∃ t, l.Awaits id e t ∧ t ≤ now
  order : due.Pairwise fun i j =>
    ∃ s t, l.Awaits i e s ∧ l.Awaits j e t ∧ s ≤ t ∧ (s = t → i < j)
  mem_later : ∀ id, id ∈ later ↔ ∃ t, l.Awaits id e t ∧ ¬ t ≤ now
  distinct : later.Nodup

theorem Awaits.time_eq {id : ActionId} {s t : Instant} (hs : l.Awaits id e s)
    (ht : l.Awaits id e t) : s = t := by
  obtain ⟨-, a, -, -, ha, rfl⟩ := hs
  obtain ⟨-, b, -, -, hb, rfl⟩ := ht
  rw [Option.some.inj (ha.symm.trans hb)]

theorem awaits_of_mem (hl : l.WellFormed) (found : l.pending e = .ok pending) {p : PendingRecord}
    (hp : p ∈ (Backlog.ofPending pending).items) : l.Awaits p.actionId e p.scheduledAt := by
  obtain ⟨hr, a, action, hat⟩ := (pending_ok found).1 p (List.mem_mergeSort.mp hp)
  obtain ⟨hrecord, queued⟩ := (mem_queued hl).mp hr
  exact ⟨p.record, a, hrecord, queued, action, hat.symm⟩

theorem mem_of_awaits (hl : l.WellFormed) (found : l.pending e = .ok pending) {id : ActionId}
    {t : Instant} (h : l.Awaits id e t) :
    ∃ p ∈ (Backlog.ofPending pending).items, p.actionId = id ∧ p.scheduledAt = t := by
  obtain ⟨r, a, hrecord, queued, action, rfl⟩ := h
  obtain rfl := actionId_of_record? hrecord
  obtain ⟨p, hp, rfl⟩ := (pending_ok found).2 r ((mem_queued hl).mpr ⟨hrecord, queued⟩)
  obtain ⟨-, b, action', hat⟩ := (pending_ok found).1 p hp
  refine ⟨p, List.mem_mergeSort.mpr hp, rfl, ?_⟩
  rw [hat, Option.some.inj (action'.symm.trans action)]

theorem agenda_of_split (hl : l.WellFormed) (found : l.pending e = .ok pending)
    {due later : List PendingRecord} (split : due ++ later = (Backlog.ofPending pending).items)
    (hdue : ∀ p ∈ due, p.scheduledAt ≤ now) (hlater : ∀ p ∈ later, ¬ p.scheduledAt ≤ now) :
    l.Agenda e now (due.map PendingRecord.actionId) (later.map PendingRecord.actionId) := by
  have awaits {p : PendingRecord} (hp : p ∈ due ∨ p ∈ later) :
      l.Awaits p.actionId e p.scheduledAt :=
    awaits_of_mem hl found (split ▸ List.mem_append.mpr hp)
  have backlog {id : ActionId} {t : Instant} (h : l.Awaits id e t) :
      ∃ p, (p ∈ due ∨ p ∈ later) ∧ p.actionId = id ∧ p.scheduledAt = t := by
    obtain ⟨p, hp, hid, hat⟩ := mem_of_awaits hl found h
    exact ⟨p, List.mem_append.mp (split ▸ hp), hid, hat⟩
  have nodup : (due.map PendingRecord.actionId ++ later.map PendingRecord.actionId).Nodup := by
    rw [← List.map_append, split]
    exact nodup_pending hl found
  have sorted : (due ++ later).Pairwise fun p q => p.before q = true :=
    split ▸ Backlog.sorted_ofPending pending
  -- ids are told apart by the backlog, and by it each awaited record has one time only
  constructor
  case mem_due =>
    intro id
    rw [List.mem_map]
    constructor
    · rintro ⟨p, hp, rfl⟩
      exact ⟨_, awaits (.inl hp), hdue p hp⟩
    · rintro ⟨t, h, ht⟩
      obtain ⟨p, hp, rfl, rfl⟩ := backlog h
      exact ⟨p, hp.resolve_right fun hp => hlater p hp ht, rfl⟩
  case mem_later =>
    intro id
    rw [List.mem_map]
    constructor
    · rintro ⟨p, hp, rfl⟩
      exact ⟨_, awaits (.inr hp), hlater p hp⟩
    · rintro ⟨t, h, ht⟩
      obtain ⟨p, hp, rfl, rfl⟩ := backlog h
      exact ⟨p, hp.resolve_left fun hp => ht (hdue p hp), rfl⟩
  case order =>
    have distinct := List.pairwise_map.mp (List.nodup_append.mp nodup).1
    refine List.pairwise_map.mpr ?_
    refine ((List.pairwise_append.mp sorted).1.and distinct).imp_of_mem ?_
    intro p q hp hq ⟨hbefore, hne⟩
    obtain ⟨hle, hids⟩ := PendingRecord.before_iff.mp hbefore
    exact ⟨_, _, awaits (.inl hp), awaits (.inl hq), hle,
      fun h => Int.lt_iff_le_and_ne.mpr ⟨hids h, hne⟩⟩
  case distinct => exact (List.nodup_append.mp nodup).2.1

end Ledger

namespace Cycle

variable {k : Keeping} {policy : Policy} {wall : Instant} {c c' : Cycle} {l l' : Ledger}
  {items : List PendingRecord}

/-- How far a loaded cycle has come on the records that it loaded. It has gone by none that is not
due, and when it goes by no more, the first one left is not due. -/
structure Round (items : List PendingRecord) (c : Cycle) : Prop where
  route : ∃ walked, walked ++ c.backlog.items = items ∧ (∀ p ∈ walked, p.scheduledAt ≤ c.now) ∧
    c.visited = walked.map PendingRecord.actionId ++ c.report.checkpoint.toList
  awake : c.report.checkpoint = none → c.stage.current ≠ none → c.backlog.halted = false
  ended : c.report.checkpoint ≠ none ∨ c.stage.current = none →
    (∀ p ∈ c.backlog.items.head?, ¬ p.scheduledAt ≤ c.now) ∧
      c.report.deferred = c.backlog.remaining

theorem round_advance
    (route : ∃ walked, walked ++ c.backlog.items = items ∧ (∀ p ∈ walked, p.scheduledAt ≤ c.now) ∧
      c.report.ids = walked.map PendingRecord.actionId ++ c.report.checkpoint.toList)
    (awake : c.report.checkpoint = none → c.backlog.halted = false)
    (ended : c.report.checkpoint ≠ none →
      (∀ p ∈ c.backlog.items.head?, ¬ p.scheduledAt ≤ c.now) ∧
        c.report.deferred = c.backlog.remaining) :
    Round items c.advance := by
  obtain ⟨walked, hitems, hdue, hids⟩ := route
  unfold advance
  -- after a checkpoint the cycle concludes, without it the backlog gives the next record or halts
  split
  · next hsome =>
    have htaken : c.report.checkpoint ≠ none := Option.isSome_iff_ne_none.mp hsome
    refine ⟨⟨walked, hitems, hdue, ?_⟩, fun h => absurd h htaken, fun _ => ended htaken⟩
    rw [visited, current_conclude, Option.toList_none, List.append_nil]
    exact hids
  · next hnone =>
    have hopen : c.report.checkpoint = none := by simpa using hnone
    rw [hopen, Option.toList_none, List.append_nil] at hids
    split
    · next p backlog hnext =>
      obtain ⟨hsplit, hp, hhalted⟩ := Backlog.nextDue_some hnext
      refine ⟨⟨walked ++ [p], ?_, ?_, ?_⟩,
        fun _ _ => hhalted.trans (awake hopen), fun h => ?_⟩
      · simp [← hitems, hsplit]
      · intro q hq
        rcases List.mem_append.mp hq with hq | hq
        · exact hdue q hq
        · obtain rfl : q = p := by simpa using hq
          exact hp
      · simp [visited, Stage.current, hids, hopen]
      · simp [Stage.current, hopen] at h
    · next backlog hnext =>
      obtain ⟨hsame, hhead⟩ := Backlog.nextDue_none (awake hopen) hnext
      refine ⟨⟨walked, ?_, hdue, ?_⟩, fun _ h => absurd rfl h, fun _ => ⟨?_, rfl⟩⟩
      · rw [← hitems, hsame]
      · change c.report.ids ++ [] = _ ++ c.report.checkpoint.toList
        simp [hids, hopen]
      · rw [hsame]
        exact hhead

theorem round_loaded {e : EndpointId} {now : Instant} (pending : List PendingRecord) :
    Round (Backlog.ofPending pending).items
      { start e now with backlog := .ofPending pending }.advance :=
  round_advance ⟨[], rfl, by simp, rfl⟩ (fun _ => rfl) fun h => absurd rfl h

theorem Round.next (round : Round items c) (hc : c.stage ≠ .loading)
    (open_ : c.stage = .refreshing → c.report.checkpoint = none)
    (pace : Pace k policy wall c l c' l') : Round items c' := by
  obtain ⟨⟨walked, hitems, hdue, hvisited⟩, awake, ended⟩ := round
  have hnow := pace.unmoved.2
  cases pace.visit with
  | loaded stage => exact absurd stage hc
  | @spent id r a n stage found queued action tries =>
    obtain rfl := Ledger.id_of_action? action
    refine ⟨⟨walked, hitems, hdue, ?_⟩, fun h _ => awake h (by simp [stage, Stage.current]),
      fun h => ended (h.imp_right fun h => by simp [call, Stage.current] at h)⟩
    simpa [visited, stage, Stage.current, call, Report.ids] using hvisited
  | replied stage result =>
    refine ⟨⟨walked, hitems, hdue, ?_⟩, fun h _ => awake h (by simp [stage, Stage.current]),
      fun h => ended (h.imp_right fun h => by simp [Stage.current] at h)⟩
    simpa [visited, stage, Stage.current] using hvisited
  | @settled o l' current =>
    have hcurrent : c.stage.current ≠ none := by simp [current]
    refine round_advance (c := { c with report := c.report.add o }) ⟨walked, hitems, hdue, ?_⟩
      (fun h => awake h hcurrent) fun h => ended (.inl h)
    rw [visited, current] at hvisited
    exact (Report.ids_add o c.report).trans hvisited
  | checkpointed stage action =>
    have hcurrent : c.stage.current = none := by simp [stage, Stage.current]
    refine ⟨⟨walked, hitems, hdue, ?_⟩, fun h => absurd h (Option.some_ne_none _),
      fun _ => ended (.inr hcurrent)⟩
    rw [visited, hcurrent, open_ stage] at hvisited
    simpa [visited, Stage.current, Report.ids] using hvisited
  | rested rests =>
    refine ⟨⟨walked, ?_, hnow ▸ hdue, ?_⟩, fun _ h => absurd rests.after h, fun _ => ?_⟩
    · rw [rests.backlog, hitems]
    · rw [visited, rests.ids, rests.after, rests.checkpoint, ← hvisited, visited, rests.before]
    · rw [rests.backlog, rests.deferred, hnow]
      exact ended (.inr rests.before)

theorem Round.closed {e : EndpointId} {now : Instant} {pending : List PendingRecord}
    (round : Round (Backlog.ofPending pending).items c) (closed : c.stage = .closed)
    (hnow : c.now = now) (hl : l.WellFormed) (found : l.pending e = .ok pending) :
    ∃ due later, l.Agenda e now due later ∧
      c.report.ids = due ++ c.report.checkpoint.toList ∧ c.report.deferred = later.length := by
  obtain ⟨⟨walked, hitems, hdue, hvisited⟩, -, ended⟩ := round
  have hcurrent : c.stage.current = none := by rw [closed]; rfl
  obtain ⟨hhead, hdeferred⟩ := ended (.inr hcurrent)
  have sorted := (List.pairwise_append.mp (hitems ▸ Backlog.sorted_ofPending pending)).2.1
  have hlater := Backlog.not_due_of_head sorted hhead
  rw [hnow] at hdue hlater
  refine ⟨_, _, Ledger.agenda_of_split hl found hitems hdue hlater, ?_, ?_⟩
  · rwa [visited, hcurrent, Option.toList_none, List.append_nil] at hvisited
  · rw [hdeferred, List.length_map]
    rfl

end Cycle

end FleetDispatch
