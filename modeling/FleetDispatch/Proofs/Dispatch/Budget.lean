import FleetDispatch.Proofs.Dispatch.Stride
import Mathlib.Data.List.Induction

namespace FleetDispatch

namespace Scene

variable {k : Keeping} {s : Scene} {id : ActionId} {e : EndpointId} {next : Bool}
  {o : Option Record}

theorem Stride.of_terminal {r : Record} (stride : Stride k s id e next o) (hs : s.ledger.WellFormed)
    (found : s.ledger.record? id e = some r) (terminal : r.status ≠ .queued) :
    o = some r ∧ next = false := by
  have hqueued {q : Record} (hq : s.ledger.record? id e = some q) : q.status ≠ .queued := by
    rw [found] at hq
    exact Option.some.inj hq ▸ terminal
  cases stride with
  | same silent => exact ⟨found, silent⟩
  | fresh tries new silent =>
    rw [hs.record?_eq_none (by lia)] at found
    cases found
  | spent hfound queued => exact absurd queued (hqueued hfound)
  | barred time hfound queued => exact absurd queued (hqueued hfound)
  | exhausted time hfound queued => exact absurd queued (hqueued hfound)
  | recorded time hfound queued => exact absurd queued (hqueued hfound)

/-- Tries are never won back, and a call that comes next is paid for with one. -/
theorem Stride.tries_le {r : Record} (stride : Stride k s id e next o) (hs : s.ledger.WellFormed)
    (found : s.ledger.record? id e = some r) :
    ∃ r', o = some r' ∧ r'.remainingTries + next.toNat ≤ r.remainingTries := by
  cases stride with
  | same silent => exact ⟨r, found, by simp [silent]⟩
  | fresh tries new silent =>
    rw [hs.record?_eq_none (by lia)] at found
    cases found
  | spent hfound queued action unblocked tries =>
    obtain rfl := Option.some.inj (hfound.symm.trans found)
    have hnext := Bool.toNat_le next
    exact ⟨_, rfl, by simp only; omega⟩
  | barred time hfound queued action prerequisite first failed silent =>
    obtain rfl := Option.some.inj (hfound.symm.trans found)
    exact ⟨_, rfl, by simp [silent, Record.finished]⟩
  | exhausted time hfound queued action unblocked tries silent =>
    obtain rfl := Option.some.inj (hfound.symm.trans found)
    exact ⟨_, rfl, by simp [silent, Record.finished]⟩
  | recorded time hfound queued run task this here result silent =>
    obtain rfl := Option.some.inj (hfound.symm.trans found)
    exact ⟨_, rfl, by simp [silent, Record.finished]⟩

theorem Stride.of_none (stride : Stride k s id e next o) (found : s.ledger.record? id e = none) :
    next = false ∧
      (o = none ∨ id = s.ledger.lastId + 1 ∧ ∃ tries, o = some (.fresh id e tries)) := by
  cases stride with
  | same silent => exact ⟨silent, .inl found⟩
  | fresh tries new silent => exact ⟨silent, .inr ⟨new, tries, rfl⟩⟩
  | spent hfound => simp [found] at hfound
  | barred time hfound => simp [found] at hfound
  | exhausted time hfound => simp [found] at hfound
  | recorded time hfound => simp [found] at hfound

end Scene

namespace World

variable {σ : Type} [ActionRows σ] [Legible σ] {w w' : World σ} {id : ActionId} {e : EndpointId}

def made (id : ActionId) (e : EndpointId) (w : World σ) : Nat :=
  w.calls.count (id, e)

def tries (id : ActionId) (e : EndpointId) (w : World σ) : Nat :=
  ((w.ledger.record? id e).map Record.remainingTries).getD 0

def budget (id : ActionId) (e : EndpointId) (w : World σ) : Nat :=
  (w.granted id e).getD 0

theorem tries_eq {r : Record} (found : w.ledger.record? id e = some r) :
    w.tries id e = r.remainingTries := by
  rw [tries, found]
  rfl

/-- Every call that was made, every one that is about to be, and every try that is left is covered
by the tries that a record had at first. A task that is under way has cost one of them. -/
structure Accounted (w : World σ) : Prop where
  sound : w.Sound
  noted : ∀ id e, (w.granted id e).isSome = (w.ledger.record? id e).isSome
  task : ∀ {c a}, c ∈ w.cycles → c.task? = some a → w.ledger.action? a.id = some a ∧
    ∃ r, w.ledger.record? a.id c.endpoint = some r ∧ r.remainingTries < w.budget a.id c.endpoint
  covered : ∀ id e, w.made id e + w.scene.waiting id e + w.tries id e ≤ w.budget id e

theorem accounted_initial : (initial : World σ).Accounted where
  sound := sound_initial
  noted id e := by
    simp [initial, ledger, Store.empty, Store.ofRows, Legible.ledger_empty, Ledger.empty,
      Ledger.record?]
  task run := by simp [initial] at run
  covered id e := by
    simp [initial, made, Scene.waiting, scene, tries, ledger, Store.empty, Store.ofRows,
      Legible.ledger_empty, Ledger.empty, Ledger.record?]

theorem wellFormed (h : w.Sound) : w.scene.ledger.WellFormed :=
  Legible.wellFormed h

namespace Accounted

theorem granted_of_some {r : Record} (h : w.Accounted)
    (found : w.ledger.record? id e = some r) : ∃ n, w.granted id e = some n := by
  have hnoted := h.noted id e
  rw [found] at hnoted
  exact Option.isSome_iff_exists.mp hnoted

theorem granted_of_none (h : w.Accounted) (found : w.ledger.record? id e = none) :
    w.granted id e = none := by
  have hnoted := h.noted id e
  rwa [found, Option.isSome_none, Option.isSome_eq_false_iff, Option.isNone_iff_eq_none] at hnoted

theorem budget_note_of_some {r : Record} (h : w.Accounted) (hg : w'.granted = w.granted)
    (found : w.ledger.record? id e = some r) : w'.note.budget id e = w.budget id e := by
  obtain ⟨n, hn⟩ := h.granted_of_some found
  simp [budget, note, hg, hn]

theorem budget_note_of_none (h : w.Accounted) (hg : w'.granted = w.granted)
    (found : w.ledger.record? id e = none) :
    w.granted id e = none ∧ w'.note.budget id e = w'.tries id e := by
  have hnone := h.granted_of_none found
  exact ⟨hnone, by simp [budget, note, hg, hnone, tries]⟩

theorem noted_note {called : Option (ActionId × EndpointId)} (h : w.Accounted)
    (happens : w.scene.Happens (Legible.keeping σ) called w'.scene) (hg : w'.granted = w.granted)
    (id : ActionId) (e : EndpointId) :
    (w'.note.granted id e).isSome = (w'.ledger.record? id e).isSome := by
  cases found : w.ledger.record? id e with
  | none => simp [note, hg, h.granted_of_none found, ledger]
  | some r =>
    obtain ⟨next, stride, -⟩ := happens.stride id e
    obtain ⟨r', hr', -⟩ := stride.tries_le (wellFormed h.sound) found
    have hsome : w'.ledger.record? id e = some r' := hr'
    simp [note, hg, hsome]

theorem task_note {called : Option (ActionId × EndpointId)} {c : Cycle} {a : Action}
    (h : w.Accounted) (happens : w.scene.Happens (Legible.keeping σ) called w'.scene)
    (hg : w'.granted = w.granted) (run : c ∈ w'.cycles) (task : c.task? = some a) :
    w'.ledger.action? a.id = some a ∧ ∃ r, w'.ledger.record? a.id c.endpoint = some r ∧
      r.remainingTries < w'.note.budget a.id c.endpoint := by
  rcases happens.task run task with ⟨c₀, run₀, task₀, he⟩ | ⟨r, n, found, action, tries, put⟩
  · obtain ⟨action, r, found, hlt⟩ := h.task run₀ task₀
    rw [he] at found hlt
    obtain ⟨next, stride, -⟩ := happens.stride a.id c.endpoint
    obtain ⟨r', hr', hle⟩ := stride.tries_le (wellFormed h.sound) found
    refine ⟨happens.action (wellFormed h.sound) action, r', hr', ?_⟩
    rw [h.budget_note_of_some hg found]
    omega
  · refine ⟨happens.action (wellFormed h.sound) action, _, put, ?_⟩
    rw [h.budget_note_of_some hg found]
    have hcovered := h.covered a.id c.endpoint
    have htries : w.tries a.id c.endpoint = n + 1 := (tries_eq found).trans tries
    simp only
    omega

theorem covered_note {called : Option (ActionId × EndpointId)} (h : w.Accounted)
    (happens : w.scene.Happens (Legible.keeping σ) called w'.scene)
    (hcalls : w'.calls = called.toList ++ w.calls) (hg : w'.granted = w.granted)
    (id : ActionId) (e : EndpointId) :
    w'.made id e + w'.scene.waiting id e + w'.tries id e ≤ w'.note.budget id e := by
  have hcovered := h.covered id e
  obtain ⟨next, stride, hcount⟩ := happens.stride id e
  have hmade : w'.made id e = called.toList.count (id, e) + w.made id e := by
    rw [made, hcalls, List.count_append]
    rfl
  cases found : w.ledger.record? id e with
  | none =>
    obtain ⟨hnone, hbudget⟩ := h.budget_note_of_none hg found
    obtain ⟨hnext, -⟩ := stride.of_none found
    have hzero : w.budget id e = 0 := by simp [budget, hnone]
    rw [hnext, Bool.toNat_false] at hcount
    omega
  | some r =>
    obtain ⟨r', hr', hle⟩ := stride.tries_le (wellFormed h.sound) found
    have hold : w.tries id e = r.remainingTries := tries_eq found
    have hnew : w'.tries id e = r'.remainingTries := tries_eq hr'
    rw [h.budget_note_of_some hg found]
    omega

theorem step (h : w.Accounted) (m : Move) : (w.step m).Accounted := by
  obtain ⟨sound, called, happens, hcalls, hg⟩ := shows_act h.sound m
  exact ⟨sound, h.noted_note happens hg, h.task_note happens hg,
    h.covered_note happens hcalls hg⟩

theorem strode {r' : Record} (h : w.Accounted) (m : Move)
    (found : (w.step m).ledger.record? id e = some r') :
    (w.ledger.record? id e = none ∧
        ∃ tries, r' = .fresh id e tries ∧ (w.step m).budget id e = tries) ∨
      ∃ r next, w.ledger.record? id e = some r ∧ (w.step m).budget id e = w.budget id e ∧
        Scene.Stride (Legible.keeping σ) w.scene id e next (some r') ∧
        ∀ {c a}, c ∈ w.cycles → c.task? = some a → a.id = id → c.endpoint = e →
          r.remainingTries < w.budget id e := by
  obtain ⟨-, called, happens, -, hg⟩ := shows_act h.sound m
  obtain ⟨next, stride, -⟩ := happens.stride id e
  have here : (w.act m).scene.ledger.record? id e = some r' := found
  rw [here] at stride
  cases hr : w.ledger.record? id e with
  | none =>
    obtain ⟨-, hnone | ⟨-, tries, hfresh⟩⟩ := stride.of_none hr
    · cases hnone
    · obtain rfl := Option.some.inj hfresh
      refine .inl ⟨rfl, tries, rfl, (h.budget_note_of_none hg hr).2.trans ?_⟩
      exact tries_eq (w := w.act m) found
  | some r =>
    refine .inr ⟨r, next, rfl, h.budget_note_of_some hg hr, stride, ?_⟩
    intro c a run task this here
    obtain ⟨-, q, hq, lt⟩ := h.task run task
    rw [this, here] at hq lt
    obtain rfl := Option.some.inj (hr.symm.trans hq)
    exact lt

end Accounted

theorem accounted_after (moves : List Move) : (after moves : World σ).Accounted :=
  foldl_step (fun _ m h => h.step m) moves accounted_initial

theorem terminal_step {r : Record} (h : w.Sound) (found : w.ledger.record? id e = some r)
    (terminal : r.status ≠ .queued) (m : Move) :
    (w.step m).ledger.record? id e = some r ∧
      (w.step m).made id e + (w.step m).scene.waiting id e ≤
        w.made id e + w.scene.waiting id e := by
  obtain ⟨-, called, happens, hcalls, -⟩ := shows_act h m
  obtain ⟨next, stride, hcount⟩ := happens.stride id e
  obtain ⟨hr, hnext⟩ := stride.of_terminal (wellFormed h) found terminal
  refine ⟨hr, ?_⟩
  have hmade : (w.step m).made id e = called.toList.count (id, e) + w.made id e := by
    rw [made, step, note, hcalls, List.count_append]
    rfl
  rw [hnext, Bool.toNat_false] at hcount
  have hwaiting : (w.step m).scene.waiting id e = (w.act m).scene.waiting id e := rfl
  omega

theorem terminal_foldl {r : Record} (h : w.Sound) (found : w.ledger.record? id e = some r)
    (terminal : r.status ≠ .queued) (later : List Move) :
    (later.foldl World.step w).ledger.record? id e = some r ∧
      (later.foldl World.step w).made id e + (later.foldl World.step w).scene.waiting id e ≤
        w.made id e + w.scene.waiting id e := by
  induction later generalizing w with
  | nil => exact ⟨found, Nat.le_refl _⟩
  | cons m later ih =>
    obtain ⟨hfound, hle⟩ := terminal_step h found terminal m
    obtain ⟨hlast, hle'⟩ := ih (sound_step h m) hfound
    exact ⟨hlast, Nat.le_trans hle' hle⟩

theorem not_calls_of_terminal {r : Record} {c c' : Cycle} {i : ActionId} {wall : Instant}
    {store : Store σ} (h : w.Sound) (found : w.ledger.record? id e = some r)
    (terminal : r.status ≠ .queued) (stage : c.stage = .preparing i)
    (ht : w.store.transact (c.prepare i wall) = (.ok c', store)) : c'.calls id e = false := by
  have hw : c.work? (σ := σ) ⟨Classifier.standard, 0⟩ wall = some (c.prepare i wall) := by
    simp [Cycle.work?, stage]
  obtain ⟨-, turn⟩ := Cycle.turn_of_transact h hw ht
  have stride := turn.stride (s := ⟨w.ledger, [c]⟩) (List.mem_singleton_self c) id e
  exact (stride.of_terminal (wellFormed h) found terminal).2

theorem granted_create {wall : Instant} {n : NewAction} {a : Action} {store : Store σ}
    (h : w.Accounted) (hc : w.store.createAction wall n = (.ok a, store)) (he : e ∈ n.endpoints) :
    (w.step (.create wall n)).granted a.id e = some n.retries := by
  obtain ⟨-, hid, -, hl⟩ := Store.createAction_ok h.sound hc
  have hnone : w.ledger.record? a.id e = none :=
    (wellFormed h.sound).record?_eq_none (by rw [hid]; exact Int.lt_succ _)
  have hg := h.granted_of_none hnone
  have hr : ((w.create wall n).ledger.record? a.id e) = some (.fresh a.id e n.retries) := by
    rw [ledger, create, hc, hl, Ledger.record?_issue, if_pos ⟨hid.symm, he⟩, hid]
    rfl
  have hsame : (w.create wall n).granted = w.granted := rfl
  simp [step, act, note, hr, hsame, hg, Record.fresh]

theorem granted_step {n : Nat} (h : w.granted id e = some n) (m : Move) (hs : w.Sound) :
    (w.step m).granted id e = some n := by
  obtain ⟨-, called, -, -, hg⟩ := shows_act hs m
  simp [step, note, hg, h]

theorem granted_foldl {n : Nat} (h : w.granted id e = some n) (hs : w.Sound) (later : List Move) :
    (later.foldl step w).granted id e = some n := by
  induction later generalizing w with
  | nil => exact h
  | cons m later ih => exact ih (granted_step h m hs) (sound_step hs m)

theorem granted_after_create {wall : Instant} {n : NewAction} {a : Action} {store : Store σ}
    {before : List Move} (hc : (after before : World σ).store.createAction wall n = (.ok a, store))
    (he : e ∈ n.endpoints) (later : List Move) :
    (after (before ++ .create wall n :: later) : World σ).granted a.id e = some n.retries := by
  rw [after_append, List.foldl_cons]
  exact granted_foldl (granted_create (accounted_after before) hc he)
    (sound_step (sound_after before) _) later

/-- A record that is there came up fresh with some move, and its budget is the tries that it had
then. -/
theorem arose {r : Record} (moves : List Move)
    (found : (after moves : World σ).ledger.record? id e = some r) :
    ∃ before m later, moves = before ++ m :: later ∧
      (after before : World σ).ledger.record? id e = none ∧
      (after (before ++ [m]) : World σ).ledger.record? id e =
        some (.fresh id e ((after moves : World σ).budget id e)) := by
  -- on the last move: either the record is new with it, or it arose among those before
  induction moves using List.reverseRecOn generalizing r with
  | nil =>
    have hnoted := (accounted_initial (σ := σ)).noted id e
    rw [show (initial : World σ).ledger.record? id e = some r from found] at hnoted
    cases hnoted
  | append_singleton moves m ih =>
    have hlast : (after (moves ++ [m]) : World σ) = (after moves).step m := after_append moves [m]
    rw [hlast] at found ⊢
    rcases (accounted_after moves).strode m found with
      ⟨hnone, tries, rfl, hbudget⟩ | ⟨q, next, hq, hbudget, -⟩
    · refine ⟨moves, m, [], rfl, hnone, ?_⟩
      rw [hlast, found, hbudget]
    · obtain ⟨before, m', later, hmoves, hnone, hfresh⟩ := ih hq
      refine ⟨before, m', later ++ [m], by rw [hmoves, List.append_assoc]; rfl, hnone, ?_⟩
      rw [hbudget]
      exact hfresh

/-- Whatever happens, the calls made for an action on an endpoint and the tries left for it stay
within the budget of its record, which is what it had when it came up: if it was created, the
retries that were asked for. Once the record is completed or failed it stays as it is, and a cycle
that comes to it afterwards makes no call for it. -/
theorem calls_within_budget (moves : List Move) (id : ActionId) (e : EndpointId) :
    ((after moves : World σ).ledger.record? id e = none → (after moves : World σ).made id e = 0) ∧
      ∀ r, (after moves : World σ).ledger.record? id e = some r →
        (∃ budget, (after moves : World σ).granted id e = some budget ∧
          (after moves : World σ).made id e + r.remainingTries ≤ budget ∧
          (∃ before m later, moves = before ++ m :: later ∧
            (after before : World σ).ledger.record? id e = none ∧
            (after (before ++ [m]) : World σ).ledger.record? id e = some (.fresh id e budget)) ∧
          ∀ before wall n later a store, moves = before ++ .create wall n :: later →
            (after before : World σ).store.createAction wall n = (.ok a, store) →
            a.id = id → e ∈ n.endpoints → budget = n.retries) ∧
        (r.status ≠ .queued → ∀ later,
          (after (moves ++ later) : World σ).ledger.record? id e = some r ∧
          (after (moves ++ later) : World σ).made id e +
              (after (moves ++ later) : World σ).scene.waiting id e ≤
            (after moves : World σ).made id e + (after moves : World σ).scene.waiting id e ∧
          ∀ (c c' : Cycle) (i : ActionId) (wall : Instant) (store : Store σ),
            c.stage = .preparing i →
            (after (moves ++ later) : World σ).store.transact (c.prepare i wall) = (.ok c', store) →
            c'.calls id e = false) := by
  have h := accounted_after (σ := σ) moves
  have hcovered := h.covered id e
  refine ⟨fun found => ?_, fun r found => ⟨?_, fun terminal later => ?_⟩⟩
  · rw [budget, h.granted_of_none found, Option.getD_none] at hcovered
    omega
  · obtain ⟨n, hn⟩ := h.granted_of_some found
    have hbudget : (after moves : World σ).budget id e = n := by rw [budget, hn, Option.getD_some]
    rw [hbudget, tries_eq found] at hcovered
    refine ⟨n, hn, by omega, hbudget ▸ arose moves found, ?_⟩
    rintro before wall request later a store rfl hc rfl he
    exact Option.some.inj (hn.symm.trans (granted_after_create hc he later))
  · obtain ⟨hfound, hle⟩ := terminal_foldl h.sound found terminal later
    rw [← after_append] at hfound hle
    refine ⟨hfound, hle, fun c c' i wall store stage ht => ?_⟩
    exact not_calls_of_terminal (sound_after (moves ++ later)) hfound terminal stage ht

def oneCall : List Move :=
  [.create ⟨0, 0⟩ ⟨"ping", ⟨0, 0⟩, none, ⟨"test.ping", [], []⟩, ["m1"], 2⟩, .start "m1" ⟨1, 0⟩,
    .transact 0 ⟨.standard, 5⟩ ⟨1, 0⟩, .transact 0 ⟨.standard, 5⟩ ⟨1, 0⟩,
    .call 0 (some (.ok (some (.succeeded (.bool true))))), .transact 0 ⟨.standard, 5⟩ ⟨1, 0⟩]

theorem oneCall_within_budget :
    (after oneCall : World Ledger).made 2 "m1" = 0 ∧
      ∃ r c' store, r.status = .completed ∧
        (after oneCall : World Ledger).granted 1 "m1" = some 2 ∧
        (after oneCall : World Ledger).made 1 "m1" + r.remainingTries ≤ 2 ∧
        (after (oneCall ++ [.start "m1" ⟨2, 0⟩]) : World Ledger).ledger.record? 1 "m1" = some r ∧
        (after (oneCall ++ [.start "m1" ⟨2, 0⟩]) : World Ledger).store.transact
          (Cycle.prepare 1 ⟨2, 0⟩ { Cycle.start "m1" ⟨2, 0⟩ with stage := .preparing 1 }) =
            (.ok c', store) ∧
        c'.calls 1 "m1" = false := by
  have found : (after oneCall : World Ledger).ledger.record? 1 "m1" =
      some ⟨1, "m1", .completed, 1, some 0, some "test.ping succeeded", some ⟨1, 0⟩⟩ := by
    decide +kernel
  have ok : ((after (oneCall ++ [.start "m1" ⟨2, 0⟩]) : World Ledger).store.transact
      (Cycle.prepare 1 ⟨2, 0⟩ { Cycle.start "m1" ⟨2, 0⟩ with stage := .preparing 1 })).1.isOk := by
    decide +kernel
  obtain ⟨a, made, hc, hid⟩ : ∃ a made, (after [] : World Ledger).store.createAction ⟨0, 0⟩
      ⟨"ping", ⟨0, 0⟩, none, ⟨"test.ping", [], []⟩, ["m1"], 2⟩ = (.ok a, made) ∧ a.id = 1 :=
    ⟨_, _, rfl, rfl⟩
  refine ⟨(calls_within_budget oneCall 2 "m1").1 (by decide +kernel), ?_⟩
  obtain ⟨⟨budget, granted, within, -, given⟩, final⟩ :=
    (calls_within_budget oneCall 1 "m1").2 _ found
  obtain rfl := given [] ⟨0, 0⟩ _ _ a made rfl hc hid (List.mem_singleton_self _)
  obtain ⟨same, -, silent⟩ := final (by decide) [.start "m1" ⟨2, 0⟩]
  cases ht : (after (oneCall ++ [.start "m1" ⟨2, 0⟩]) : World Ledger).store.transact
      (Cycle.prepare 1 ⟨2, 0⟩ { Cycle.start "m1" ⟨2, 0⟩ with stage := .preparing 1 }) with
  | mk answer store =>
    rw [ht] at ok
    cases answer with
    | error e => cases ok
    | ok c' =>
      exact ⟨_, c', store, rfl, granted, within, same, rfl, silent _ c' 1 _ store rfl ht⟩

end World

end FleetDispatch
