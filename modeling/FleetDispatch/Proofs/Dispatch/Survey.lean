import FleetDispatch.Proofs.Dispatch.Events
import FleetDispatch.Proofs.Pool.Polls
import FleetDispatch.Proofs.Store.Fault
import FleetDispatch.Proofs.Store.Reading

namespace FleetDispatch

namespace Ledger

variable {l : Ledger} {e : EndpointId} {now : Instant}

theorem known_iff (h : Rows.Ascending l.endpoints) :
    (l.endpoint? e).isSome ↔ e ∈ l.endpoints.map (·.id) := by
  rw [List.mem_map]
  constructor
  · intro hsome
    obtain ⟨x, hx⟩ := Option.isSome_iff_exists.mp hsome
    exact ⟨x, Rows.mem_of_find? hx, id_of_endpoint? hx⟩
  · rintro ⟨x, hx, rfl⟩
    rw [show l.endpoint? x.id = some x from Rows.find?_of_mem h hx]
    rfl

theorem known_of_record (h : l.WellFormed) {r : Record} (hr : r ∈ l.records) :
    (l.endpoint? r.endpoint).isSome :=
  h.record_endpoint (h.record?_of_mem hr)

end Ledger

/-- Rows of which every endpoint can be listed, and of which the query for due ones names no
others. -/
class Surveyed (σ : Type) [ActionRows σ] [Legible σ] : Prop where
  dueEndpoints_total (now : Instant) (rows : σ) :
    ∃ due, ActionRows.dueEndpoints now rows = .ok due rows
  dueEndpoints_ok {rows rows' : σ} {now due} : Legible.Sound rows →
    ActionRows.dueEndpoints now rows = .ok due rows' →
      rows' = rows ∧ ∀ e ∈ due, ((Legible.ledger rows).endpoint? e).isSome
  listEndpoints_ok {rows rows' : σ} {all} : Legible.Sound rows →
    ActionRows.listEndpoints rows = .ok all rows' →
      rows' = rows ∧ ∀ e, e ∈ all.map (·.id) ↔ ((Legible.ledger rows).endpoint? e).isSome

instance : Surveyed Ledger where
  dueEndpoints_total _ _ := ⟨_, rfl⟩
  dueEndpoints_ok {l l' now due} hl h := by
    obtain ⟨rfl, hdue⟩ := Ledger.look_ok h
    obtain rfl := Except.ok.inj hdue
    refine ⟨rfl, fun e he => ?_⟩
    change (l'.endpoint? e).isSome
    rw [Ledger.dueEndpoints, mem_sortedNames, List.mem_append, List.mem_map, List.mem_map] at he
    rcases he with ⟨r, hr, rfl⟩ | ⟨x, hx, rfl⟩
    · exact Ledger.known_of_record hl (List.mem_filter.mp hr).1
    · exact (Ledger.known_iff hl.endpoints_ascending).mpr
        (List.mem_map_of_mem (List.mem_filter.mp hx).1)
  listEndpoints_ok {l l' all} hl h := by
    obtain ⟨rfl, hall⟩ := Ledger.look_ok h
    obtain rfl := Except.ok.inj hall
    exact ⟨rfl, fun e => (Ledger.known_iff hl.endpoints_ascending).symm⟩

theorem EndpointRow.id_of_decode {row : EndpointRow} {x : Endpoint} (h : row.decode = .ok x) :
    x.id = row.id := by
  obtain ⟨flag, -, h₁⟩ := of_bind_eq_ok h
  obtain ⟨ms, -, h₂⟩ := of_bind_eq_ok h₁
  obtain ⟨t, -, h₃⟩ := of_bind_eq_ok h₂
  rw [← Except.ok.inj h₃]

instance : Surveyed Tables where
  dueEndpoints_total _ _ := ⟨_, rfl⟩
  dueEndpoints_ok {t t' now due} ht h := by
    obtain ⟨rfl, hdue⟩ := Tables.look_ok h
    obtain rfl := Except.ok.inj hdue
    have hl := ht.wellFormed
    refine ⟨rfl, fun e he => ?_⟩
    change (t'.reading.endpoint? e).isSome
    rw [Tables.dueEndpoints, mem_sortedNames, List.mem_append, List.mem_map, List.mem_map] at he
    rcases he with ⟨j, hj, rfl⟩ | ⟨row, hrow, rfl⟩
    · obtain ⟨row, hrow, hjoined⟩ := List.mem_filterMap.mp (List.mem_filter.mp hj).1
      obtain ⟨a, -, rfl⟩ := Option.map_eq_some_iff.mp hjoined
      exact Ledger.known_of_record hl (List.mem_map_of_mem (List.mem_filter.mp hrow).1)
    · exact (Ledger.known_iff hl.endpoints_ascending).mpr
        (List.mem_map_of_mem (List.mem_map_of_mem (List.mem_filter.mp hrow).1))
  listEndpoints_ok {t t' all} ht h := by
    obtain ⟨rfl, hall⟩ := Tables.look_ok h
    refine ⟨rfl, fun e => ?_⟩
    have hids : all.map (·.id) = t'.endpoints.map (·.id) :=
      map_of_mapM (fun row _ x hx => EndpointRow.id_of_decode hx) hall
    change _ ↔ (t'.reading.endpoint? e).isSome
    rw [Ledger.known_iff ht.wellFormed.endpoints_ascending, hids, Tables.reading, List.map_map]
    rfl

namespace Poller

section cover

variable {σ : Type} [ActionRows σ] [Legible σ] {idle : Bool} {now : Instant}

/-- Whether a poll is to ask for a cycle on an endpoint: it has due work, or it is known and idle
ones are polled as well. -/
def Covers (idle : Bool) (now : Instant) (rows : σ) (e : EndpointId) : Prop :=
  if idle then ((Legible.ledger rows).endpoint? e).isSome = true
  else ∃ due, ActionRows.dueEndpoints now rows = .ok due rows ∧ e ∈ due

theorem covers_due {rows : σ} {due : List EndpointId} {e : EndpointId}
    (h : ActionRows.dueEndpoints now rows = .ok due rows) : Covers false now rows e ↔ e ∈ due := by
  constructor
  · rintro ⟨found, hfound, he⟩
    cases h.symm.trans hfound
    exact he
  · exact fun he => ⟨due, h, he⟩

variable [Surveyed σ] {s s' : Store σ} {names : List EndpointId}

theorem candidates_ok (hs : Legible.Sound s.rows) (h : candidates idle now s = (.ok names, s')) :
    s'.rows = s.rows ∧ names.Nodup ∧ (∀ e, e ∈ names ↔ Covers idle now s.rows e) ∧
      ∃ due s₁, s.dueEndpoints now = (.ok due, s₁) ∧
        ∀ e, (Covers false now s.rows e ↔ e ∈ due) ∧ (e ∈ due → Covers true now s.rows e) := by
  unfold candidates at h
  split at h
  · cases h
  · next due s₁ hdue =>
    have hquery := Store.perform_ok hdue
    obtain ⟨hrows, hknown⟩ := Surveyed.dueEndpoints_ok hs hquery
    rw [hrows] at hquery
    have hcovers (e : EndpointId) : Covers false now s.rows e ↔ e ∈ due := covers_due hquery
    split at h
    · next hidle =>
      split at h
      · cases h
      · next all s₂ hall =>
        cases h
        have hlist := Store.perform_ok hall
        rw [hrows] at hlist
        obtain ⟨hrows₂, hids⟩ := Surveyed.listEndpoints_ok hs hlist
        refine ⟨hrows₂, nodup_sortedNames _, fun e => ?_, due, _, hdue, fun e =>
          ⟨hcovers e, hknown e⟩⟩
        -- the due endpoints are among those that are listed, so that they add nothing
        rw [mem_sortedNames, List.mem_append, hids, Covers, if_pos hidle]
        exact or_iff_right_of_imp (hknown e)
    · next hidle =>
      cases h
      rw [Bool.not_eq_true] at hidle
      refine ⟨hrows, nodup_sortedNames due, fun e => ?_, due, _, hdue, fun e =>
        ⟨hcovers e, hknown e⟩⟩
      rw [mem_sortedNames, hidle]
      exact (hcovers e).symm

theorem candidates_calm (calm : s.Calm) (now : Instant)
    (listed : idle = true → ∃ all, ActionRows.listEndpoints s.rows = .ok all s.rows) :
    ∃ names, candidates idle now s = (.ok names, s) := by
  obtain ⟨due, hquery⟩ := Surveyed.dueEndpoints_total now s.rows
  have hdue : s.dueEndpoints now = (.ok due, s) := calm.perform hquery
  unfold candidates
  rw [hdue]
  cases idle with
  | false => exact ⟨_, rfl⟩
  | true =>
    obtain ⟨all, hlist⟩ := listed rfl
    have hall : s.endpoints = (.ok all, s) := calm.perform hlist
    simp only [hall, if_true]
    exact ⟨_, rfl⟩

end cover

variable {σ : Type} [ActionRows σ] {idle : Bool} {now : Instant} {s s' : Store σ} {p p' : Pool}
  {started : List EndpointId}

theorem poll_ok (h : poll idle now s p = (.ok started, s', p')) :
    ∃ names, candidates idle now s = (.ok names, s') ∧ scheduleAll names p = (started, p') := by
  unfold poll at h
  split at h
  · cases h
  · next names s₁ hnames =>
    cases h
    exact ⟨names, hnames, rfl⟩

end Poller

namespace Crew

/-- The crew after a poll at each of some times, with nobody at work in between, if the store
answers them all. -/
def afterPolls {σ : Type} [ActionRows σ] (idle : Bool) : List Instant → Store σ → Crew →
    Except StoreError Crew
  | [], _, c => .ok c
  | now :: nows, s, c =>
    match Poller.poll idle now s c.pool with
    | (.error e, _, _) => .error e
    | (.ok started, s, p) => afterPolls idle nows s (c.hire started p)

variable {σ : Type} [ActionRows σ] {idle : Bool} {now : Instant} {nows : List Instant}
  {s : Store σ} {c c' : Crew} {e : EndpointId}

theorem afterPolls_cons (h : c.afterPolls idle (now :: nows) s = .ok c') :
    ∃ names s', Poller.candidates idle now s = (.ok names, s') ∧
      (c.after (names.map .schedule)).afterPolls idle nows s' = .ok c' := by
  rw [afterPolls] at h
  split at h
  · cases h
  · next started s' p hpoll =>
    obtain ⟨names, hnames, hscheduled⟩ := Poller.poll_ok hpoll
    refine ⟨names, s', hnames, ?_⟩
    rwa [after_requests, hscheduled]

theorem afterPolls_ok (h : c.afterPolls idle nows s = .ok c') :
    ∃ requests : List Move, c' = c.after requests := by
  induction nows generalizing s c with
  | nil => exact ⟨[], (Except.ok.inj h).symm⟩
  | cons now nows ih =>
    obtain ⟨names, s', -, hrest⟩ := afterPolls_cons h
    obtain ⟨requests, hc'⟩ := ih hrest
    exact ⟨names.map .schedule ++ requests, by rw [hc', after_append]⟩

variable [Legible σ] [Surveyed σ]

theorem afterPolls_calm (calm : s.Calm) (nows : List Instant) (c : Crew)
    (listed : idle = true → ∃ all, ActionRows.listEndpoints s.rows = .ok all s.rows) :
    ∃ c', c.afterPolls idle nows s = .ok c' := by
  induction nows generalizing c with
  | nil => exact ⟨c, rfl⟩
  | cons now nows ih =>
    obtain ⟨names, hnames⟩ := Poller.candidates_calm calm now listed
    simp only [afterPolls, Poller.poll, hnames]
    exact ih _

theorem polled_cons (hs : Legible.Sound s.rows) (accepting : c.pool.closed = false)
    (covered : Poller.Covers idle now s.rows e)
    (h : c.afterPolls idle (now :: nows) s = .ok c') :
    ∃ (c₁ : Crew) (s' : Store σ), s'.rows = s.rows ∧ c₁.afterPolls idle nows s' = .ok c' ∧
      c₁.pool.closed = false ∧ c₁.pool.isActive e = true ∧
      c₁.pool.fresh e = c.pool.fresh e + (if c.pool.isActive e then 0 else 1) ∧
      (e ∈ c₁.pool.reruns ↔ e ∈ c.pool.reruns ∨ c.pool.isActive e = true) := by
  obtain ⟨names, s', hnames, hrest⟩ := afterPolls_cons h
  obtain ⟨hrows, hdistinct, hcovers, -⟩ := Poller.candidates_ok hs hnames
  have hmem : e ∈ names := (hcovers e).mpr covered
  have hpool : (c.after (names.map .schedule)).pool = c.pool.surveyed names := by
    rw [after_requests, Poller.scheduleAll_open accepting hdistinct]
    rfl
  refine ⟨_, s', hrows, hrest, ?_⟩
  rw [hpool]
  refine ⟨accepting, Pool.isActive_surveyed.mpr (.inr hmem), ?_, ?_⟩
  · rw [Pool.fresh_surveyed hdistinct]
    cases c.pool.isActive e <;> simp [hmem]
  · rw [Pool.mem_reruns_surveyed, and_iff_right hmem]

theorem polled_active (hs : Legible.Sound s.rows) (accepting : c.pool.closed = false)
    (active : c.pool.isActive e = true) (covered : ∀ now ∈ nows, Poller.Covers idle now s.rows e)
    (h : c.afterPolls idle nows s = .ok c') :
    c'.pool.fresh e = c.pool.fresh e ∧ (e ∈ c'.pool.reruns ↔ e ∈ c.pool.reruns ∨ nows ≠ []) := by
  -- on the polls: the first one marks the endpoint, and it stays active and marked
  induction nows generalizing s c with
  | nil =>
    obtain rfl := Except.ok.inj h
    simp
  | cons now nows ih =>
    obtain ⟨c₁, s', hrows, hrest, haccepting, hactive, hfresh, hmarked⟩ :=
      polled_cons hs accepting (covered now List.mem_cons_self) h
    have hcovered : ∀ now ∈ nows, Poller.Covers idle now s'.rows e := fun now hnow =>
      hrows ▸ covered now (List.mem_cons_of_mem _ hnow)
    obtain ⟨hfresh', hmarked'⟩ := ih (hrows ▸ hs) haccepting hactive hcovered hrest
    rw [hfresh', hfresh, hmarked', hmarked, if_pos active]
    simp [active]

theorem polled_idle (hs : Legible.Sound s.rows) (sound : c.Sound)
    (accepting : c.pool.closed = false) (inactive : c.pool.isActive e = false) (asked : nows ≠ [])
    (covered : ∀ now ∈ nows, Poller.Covers idle now s.rows e)
    (h : c.afterPolls idle nows s = .ok c') :
    c'.pool.fresh e = 1 ∧ (e ∈ c'.pool.reruns ↔ nows.length ≠ 1) := by
  obtain ⟨now, nows, rfl⟩ := List.exists_cons_of_ne_nil asked
  obtain ⟨c₁, s', hrows, hrest, haccepting, hactive, hfresh, hmarked⟩ :=
    polled_cons hs accepting (covered now List.mem_cons_self) h
  have hcovered : ∀ now ∈ nows, Poller.Covers idle now s'.rows e := fun now hnow =>
    hrows ▸ covered now (List.mem_cons_of_mem _ hnow)
  obtain ⟨hfresh', hmarked'⟩ := polled_active (hrows ▸ hs) haccepting hactive hcovered hrest
  -- marks are left on active endpoints only
  have hunmarked : e ∉ c.pool.reruns := fun he => by
    rw [sound.balanced.marked e he] at inactive
    cases inactive
  rw [hfresh', hfresh, hmarked', hmarked, Pool.fresh_eq_zero inactive, inactive]
  simp [hunmarked]

end Crew

namespace World

variable {σ : Type} [ActionRows σ] [Legible σ] [Surveyed σ]

/-- Polling reaches every endpoint with work. At any state of the store and of the crew, a poll that
the store answers starts a worker for those of the endpoints it covers that are not active, marks
those that are, and leaves everything else alone; if the pool is closed, it leaves that alone as
well. However often an endpoint that was idle is polled before a worker goes on, it has one cycle
for the first poll and one for all the others together; and as long as a worker is left, one can go
on. Polls are answered unless the store is made to fail or an endpoint cannot be read. -/
theorem polls_cover (events : List Event) (size : Nat) (moves : List Crew.Move) (idle : Bool) :
    let s := (through events : World σ).store
    let c := (Crew.ofSize size).after moves
    (∀ now started s' p', Poller.poll idle now s c.pool = (.ok started, s', p') →
      (∃ due s₁, s.dueEndpoints now = (.ok due, s₁) ∧ ∀ e,
        (Poller.Covers false now s.rows e ↔ e ∈ due) ∧
        (e ∈ due → Poller.Covers true now s.rows e)) ∧
      s'.rows = s.rows ∧
      (c.pool.closed = true → started = [] ∧ p' = c.pool) ∧
      (c.pool.closed = false → ∃ names, names.Nodup ∧
        (∀ e, e ∈ names ↔ Poller.Covers idle now s.rows e) ∧
        started = (names.filter fun e => !c.pool.isActive e) ∧ p' = c.pool.surveyed names)) ∧
    (s.Calm → (idle = true → ∃ all, ActionRows.listEndpoints s.rows = .ok all s.rows) →
      ∀ nows, ∃ c', c.afterPolls idle nows s = .ok c') ∧
    ∀ nows c', c.afterPolls idle nows s = .ok c' → nows ≠ [] → c.pool.closed = false →
      ∀ e, c.pool.isActive e = false → (∀ now ∈ nows, Poller.Covers idle now s.rows e) →
        ∀ later : List Crew.Move, (∀ m ∈ later, m.isRequest = false) →
          ((c'.after later).pool.isIdle = true →
            (Crew.events later c').countP (·.begins e) = if nows.length = 1 then 1 else 2) ∧
          ((c'.after later).pool.isIdle = false → ∀ completed, ∃ i,
            (Crew.Move.work i completed).goesOn (c'.after later)) ∧
          Crew.steps later c' ≤ c'.pool.load := by
  intro s c
  have hs : Legible.Sound s.rows := sound_through events
  have sound : c.Sound := (Crew.ofSize_sound size).after moves
  refine ⟨?_, fun calm listed nows => Crew.afterPolls_calm calm nows c listed, ?_⟩
  · intro now started s' p' hpoll
    obtain ⟨names, hnames, hscheduled⟩ := Poller.poll_ok hpoll
    obtain ⟨hrows, hdistinct, hcovers, hdue⟩ := Poller.candidates_ok hs hnames
    refine ⟨hdue, hrows, fun closed => ?_, fun accepting => ⟨names, hdistinct, hcovers, ?_⟩⟩
    · rw [Poller.scheduleAll_closed closed] at hscheduled
      cases hscheduled
      exact ⟨rfl, rfl⟩
    · rw [Poller.scheduleAll_open accepting hdistinct] at hscheduled
      cases hscheduled
      exact ⟨rfl, rfl⟩
  · intro nows c' hpolls asked accepting e inactive covered later unrequested
    obtain ⟨hfresh, hmarked⟩ := Crew.polled_idle hs sound accepting inactive asked covered hpolls
    obtain ⟨requests, rfl⟩ := Crew.afterPolls_ok hpolls
    have sound' := sound.after requests
    refine ⟨fun hidle => ?_, fun hbusy completed => ?_, ?_⟩
    · rw [Crew.cycles_after sound' hfresh unrequested hidle]
      simp only [hmarked, ne_eq, ite_not]
    · obtain ⟨x, hx⟩ := Pool.exists_isActive hbusy
      refine (sound'.after later).exists_goesOn ?_ hx completed
      rw [Crew.capacity_after sound' later, Crew.capacity_after sound requests,
        Crew.capacity_after (Crew.ofSize_sound size) moves]
      exact Nat.le_max_right size 1
    · have hsteps := sound'.steps_le later
      have hnone : later.countP (·.isRequest) = 0 :=
        List.countP_eq_zero.mpr fun m hm => Bool.eq_false_iff.mp (unrequested m hm)
      omega

def twoDue : List Event :=
  [.move (.create ⟨0, 0⟩ ⟨"upgrade", ⟨60, 0⟩, none, ⟨"pkg.upgrade", [], []⟩, ["m1", "m2"], 2⟩)]

theorem polls_cover_twoDue :
    let s := (through twoDue : World Tables).store
    let c := (Crew.ofSize 1).after [.schedule "m1", .work 0 true, .work 0 true]
    let later := List.replicate 10 (Crew.Move.work 0 true)
    (∃ s' p', Poller.poll false ⟨60, 0⟩ s c.pool = (.ok ["m2"], s', p') ∧ s'.rows = s.rows ∧
      Poller.Covers false ⟨60, 0⟩ s.rows "m2") ∧
    ∃ c', c.afterPolls false [⟨60, 0⟩, ⟨60, 0⟩] s = .ok c' ∧
      (Crew.events later c').countP (·.begins "m2") = 2 := by
  intro s c later
  obtain ⟨once, always, again⟩ :=
    polls_cover (σ := Tables) twoDue 1 [.schedule "m1", .work 0 true, .work 0 true] false
  have answered : (Poller.poll false ⟨60, 0⟩ s c.pool).1.toOption = some ["m2"] := by
    decide +kernel
  have polled : (c.afterPolls false [⟨60, 0⟩, ⟨60, 0⟩] s).toOption.any
      fun c' => (c'.after later).pool.isIdle := by decide +kernel
  have accepting : c.pool.closed = false := by decide +kernel
  have inactive : c.pool.isActive "m2" = false := by decide +kernel
  have unrequested : ∀ m ∈ later, m.isRequest = false := by decide +kernel
  cases hpoll : Poller.poll false ⟨60, 0⟩ s c.pool with
  | mk answer rest =>
    rw [hpoll] at answered
    cases answer with
    | error e => cases answered
    | ok started =>
      obtain rfl : started = ["m2"] := Option.some.inj answered
      obtain ⟨-, hrows, -, hopen⟩ := once _ _ _ _ hpoll
      obtain ⟨names, -, hcovers, hstarted, -⟩ := hopen accepting
      have hmem : "m2" ∈ names.filter fun e => !c.pool.isActive e := by
        rw [← hstarted]
        exact List.mem_singleton_self _
      have covered := (hcovers "m2").mp (List.mem_filter.mp hmem).1
      obtain ⟨c', hpolls⟩ := always ⟨rfl, rfl⟩ nofun [⟨60, 0⟩, ⟨60, 0⟩]
      have idle : (c'.after later).pool.isIdle = true := by
        rw [hpolls] at polled
        simpa only [Except.toOption, Option.any_some] using polled
      have twice : ∀ now ∈ [⟨60, 0⟩, ⟨60, 0⟩], Poller.Covers false now s.rows "m2" := by
        simpa using covered
      obtain ⟨cycles, -⟩ := again _ c' hpolls (List.cons_ne_nil _ _) accepting "m2" inactive twice
        later unrequested
      exact ⟨⟨rest.1, rest.2, rfl, hrows, covered⟩, c', hpolls,
        (cycles idle).trans (if_neg (by simp))⟩

end World

end FleetDispatch
