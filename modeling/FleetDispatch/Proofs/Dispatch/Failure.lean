import FleetDispatch.Proofs.Dispatch.Course
import FleetDispatch.Proofs.Dispatch.Refresh
import FleetDispatch.Proofs.Dispatch.Trail

namespace FleetDispatch

namespace Cycle

section pace

variable {k : Keeping} {policy : Policy} {wall : Instant} {c c' : Cycle} {l l' : Ledger}
  {a : Action} {left : Nat}

theorem Pace.recording {result : CallResult} (pace : Pace k policy wall c l c' l')
    (stage : c'.stage = .recording a left result) :
    c.stage = .calling a left ∧ c' = { c with stage := .recording a left result } ∧ l' = l := by
  have htask : c'.task? = some a := by rw [task?, stage]
  cases pace.visit with
  | loaded => simp at htask
  | spent | checkpointed => cases stage
  | replied hstage =>
    obtain ⟨rfl, rfl, rfl⟩ := Stage.recording.inj stage
    exact ⟨hstage, rfl, rfl⟩
  | settled => simp at htask
  | rested rests =>
    have hafter := rests.after
    simp [stage, Stage.current] at hafter

/-- Before a cycle calls for a record, it spends an attempt on it and changes nothing else. -/
theorem Pace.calling (pace : Pace k policy wall c l c' l') (stage : c'.stage = .calling a left) :
    c.stage = .preparing a.id ∧ c' = c.call a left ∧
      ∃ r, l.record? a.id c.endpoint = some r ∧ r.status = .queued ∧
        r.remainingTries = left + 1 ∧ l' = l.putRecord { r with remainingTries := left } := by
  have htask : c'.task? = some a := by rw [task?, stage]
  cases pace.visit with
  | loaded => simp at htask
  | replied | checkpointed => cases stage
  | spent hstage found queued action tries =>
    obtain ⟨rfl, rfl⟩ := Stage.calling.inj stage
    obtain rfl := Ledger.id_of_action? action
    exact ⟨hstage, rfl, _, found, queued, tries, rfl⟩
  | settled => simp at htask
  | rested rests =>
    have hafter := rests.after
    simp [stage, Stage.current] at hafter

theorem Pace.flag_kept (pace : Pace k policy wall c l c' l')
    (open_ : c'.report.checkpoint = none) :
    c.report.checkpoint = none ∧ (l.flagged c.endpoint = true → l'.flagged c.endpoint = true) := by
  constructor
  · cases pace.visit with
    | loaded | settled => simpa using open_
    | spent | replied => exact open_
    | checkpointed => cases open_
    | rested rests => exact rests.checkpoint.symm.trans open_
  · intro hup
    cases pace with
    | answered | pinged | rested => exact hup
    | turned turn =>
      rw [turn.flag, if_pos rfl]
      cases hsignal : c.signalOn policy l with
      | none => exact hup
      | some x =>
        cases x with
        | raised => rfl
        | replaced =>
          obtain ⟨a, -, rfl, -⟩ := turn.replaced hsignal
          cases open_

end pace

section course

variable {σ χ : Type} [ActionRows σ] [Legible σ] {policy : Policy} {channel : Channel χ}
  {clock : Nat → Instant} {n : Nat} {r₀ r r' : Run σ χ}

theorem endpoint_driveAt (hs : Legible.Sound r₀.store.rows)
    (h : driveAt policy channel n clock r₀ = (.ok (), r)) :
    r.cycle.endpoint = r₀.cycle.endpoint :=
  (driveAt_keeps (P := fun c _ => c.endpoint = r₀.cycle.endpoint)
    (fun _ hc pace => pace.unmoved.1.trans hc) hs rfl h).2

theorem flag_driveAt (hs : Legible.Sound r₀.store.rows)
    (h : driveAt policy channel n clock r₀ = (.ok (), r))
    (open_ : r.cycle.report.checkpoint = none) {i : Nat} {q : Run σ χ} (hi : i ≤ n)
    (hq : driveAt policy channel i clock r₀ = (.ok (), q))
    (up : (Legible.ledger q.store.rows).flagged r₀.cycle.endpoint = true) :
    (Legible.ledger r.store.rows).flagged r₀.cycle.endpoint = true := by
  -- on the steps since the flag was up: none of them takes a checkpoint, or one would be there now
  induction n generalizing r with
  | zero =>
    obtain rfl := Nat.le_zero.mp hi
    cases h
    cases hq
    exact up
  | succ n ih =>
    rcases Nat.lt_or_eq_of_le hi with hlt | rfl
    · obtain ⟨p, hdrive, hstep⟩ := driveAt_succ_ok.mp h
      obtain ⟨-, pace⟩ := pace_of_step (sound_driveAt hs hdrive) hstep
      obtain ⟨hopen, hflag⟩ := pace.flag_kept open_
      rw [endpoint_driveAt hs hdrive] at hflag
      exact hflag (ih hdrive hopen (Nat.le_of_lt_succ hlt))
    · rw [h] at hq
      cases hq
      exact up

theorem trail_driveAt (hs : Legible.Sound r₀.store.rows) {e : EndpointId} {now : Instant}
    (hstart : r₀.cycle = start e now)
    (h : driveAt policy channel (n + 1) clock r₀ = (.ok (), r)) :
    ∃ ids, ids.Nodup ∧ (∀ id ∈ ids, id ≤ (Legible.ledger r₀.store.rows).lastId) ∧
      Trail policy ids (Legible.ledger r₀.store.rows) r.cycle (Legible.ledger r.store.rows) := by
  cases hfirst : step policy (clock 0) channel r₀ with
  | mk answer r₁ =>
    cases answer with
    | error err =>
      rw [driveAt, hfirst] at h
      cases h
    | ok u =>
      rw [driveAt_cons hfirst] at h
      obtain ⟨hs₁, pace⟩ := pace_of_step hs hfirst
      rw [hstart] at pace
      obtain ⟨pending, found, hc, hl⟩ := pace.first
      have hl₀ := Legible.wellFormed hs
      have distinct := Ledger.nodup_pending hl₀ found
      have old := Ledger.le_lastId_pending hl₀ found
      have loaded : Trail policy (Backlog.ofPending pending).ids
          (Legible.ledger r₀.store.rows) r₁.cycle (Legible.ledger r₁.store.rows) := by
        rw [hc, hl]
        exact trail_loaded
      exact ⟨_, distinct, old,
        (driveAt_keeps (fun _ trail pace => trail.next distinct old pace) hs₁ loaded h).2⟩

/-- The records, the flag and the actions after a cycle has come by its steps to one that fails:
what it has not come to is as it was when the cycle began; a record that was to be prepared is as
the cycle came to it; of a call that was not recorded only the attempt is left, of all that the
cycle did since it came to the record; and a checkpoint that was not taken leaves the flag up. -/
structure Leaves (policy : Policy) (channel : Channel χ) (clock : Nat → Instant) (r₀ : Run σ χ)
    (n : Nat) (c : Cycle) (l : Ledger) : Prop where
  unreached : ∀ id e, e ≠ r₀.cycle.endpoint ∨ id ∉ c.visited →
    l.record? id e = (Legible.ledger r₀.store.rows).record? id e
  unprepared : ∀ id, c.stage = .preparing id →
    l.record? id r₀.cycle.endpoint = c.origin policy (Legible.ledger r₀.store.rows) id
  unrecorded : ∀ a left result, c.stage = .recording a left result →
    ∃ i q record, n = i + 2 ∧ driveAt policy channel i clock r₀ = (.ok (), q) ∧
      q.cycle.stage = .preparing a.id ∧
      (Legible.ledger q.store.rows).record? a.id r₀.cycle.endpoint = some record ∧
      c.origin policy (Legible.ledger r₀.store.rows) a.id = some record ∧
      record.status = .queued ∧ record.remainingTries = left + 1 ∧
      l = (Legible.ledger q.store.rows).putRecord { record with remainingTries := left }
  unrefreshed : c.stage = .refreshing →
    l.actions = (Legible.ledger r₀.store.rows).actions ∧
      l.lastId = (Legible.ledger r₀.store.rows).lastId ∧
      ∀ i q, i ≤ n → driveAt policy channel i clock r₀ = (.ok (), q) →
        (Legible.ledger q.store.rows).flagged r₀.cycle.endpoint = true →
        l.flagged r₀.cycle.endpoint = true

theorem leaves (hs : Legible.Sound r₀.store.rows) {e : EndpointId} {now : Instant}
    (hstart : r₀.cycle = start e now) (h : driveAt policy channel n clock r₀ = (.ok (), r)) :
    Leaves policy channel clock r₀ n r.cycle (Legible.ledger r.store.rows) := by
  have hendpoint := endpoint_driveAt hs h
  cases n with
  -- before the first step the cycle is at no record, so there is nothing to say of one
  | zero =>
    cases h
    have hstage : r₀.cycle.stage = .loading := by rw [hstart]; rfl
    refine ⟨fun _ _ _ => rfl, fun _ h => ?_, fun _ _ _ h => ?_, fun h => ?_⟩
    all_goals cases hstage.symm.trans h
  | succ n =>
    obtain ⟨ids, distinct, old, trail⟩ := trail_driveAt hs hstart h
    constructor
    case unreached =>
      intro id x hx
      by_cases hhere : x = r₀.cycle.endpoint
      · rw [hhere, ← hendpoint]
        exact trail.unvisited (hx.resolve_left (not_not_intro hhere))
      · exact trail.elsewhere id x (hendpoint ▸ hhere)
    case unprepared =>
      intro id stage
      rw [← hendpoint]
      exact trail.at_preparing distinct old stage
    case unrecorded =>
      intro a left result stage
      -- two steps back: the call, and before it the attempt that was spent on the call
      obtain ⟨q₁, hdrive₁, hstep₁⟩ := driveAt_succ_ok.mp h
      obtain ⟨-, pace₁⟩ := pace_of_step (sound_driveAt hs hdrive₁) hstep₁
      obtain ⟨stage₁, hcycle₁, hledger₁⟩ := pace₁.recording stage
      cases n with
      | zero =>
        cases hdrive₁
        rw [hstart] at stage₁
        cases stage₁
      | succ i =>
        obtain ⟨q, hdrive, hstep⟩ := driveAt_succ_ok.mp hdrive₁
        obtain ⟨-, pace⟩ := pace_of_step (sound_driveAt hs hdrive) hstep
        obtain ⟨stage₀, hcycle, record, found, queued, tries, hledger⟩ := pace.calling stage₁
        have hsame : r.cycle.origin policy (Legible.ledger r₀.store.rows) a.id =
            q.cycle.origin policy (Legible.ledger r₀.store.rows) a.id := by
          rw [hcycle₁, hcycle]
          rfl
        rw [endpoint_driveAt hs hdrive] at found
        refine ⟨i, q, record, rfl, hdrive, stage₀, found, ?_, queued, tries,
          hledger₁.trans hledger⟩
        cases i with
        | zero =>
          cases hdrive
          rw [hstart] at stage₀
          cases stage₀
        | succ i =>
          obtain ⟨ids, distinct, old, trail⟩ := trail_driveAt hs hstart hdrive
          rw [hsame, ← trail.at_preparing distinct old stage₀, endpoint_driveAt hs hdrive, found]
    case unrefreshed =>
      intro stage
      have open_ := trail.open_ stage
      obtain ⟨hactions, hlast⟩ := trail.untaken open_
      exact ⟨hactions, hlast, fun i q hi hq => flag_driveAt hs h open_ hi hq⟩

end course

end Cycle

/-- The tries that are left after the call of which the result is to be recorded. -/
def Stage.leftToRecord : Stage → Option Nat
  | recording _ left _ => some left
  | _ => none

namespace World

variable {σ χ : Type} [ActionRows σ] [Legible σ]

/-- A failure of the store leaves no half of a step behind. From any state on, and with any failures
planned, a cycle that goes through to its report was struck by none of them; and it fails with a
step of it that fails, at whichever step that is. Then nobody is called any more, the rows are as
the last step that committed has left them, and so the records, the flag and the actions. -/
theorem failures_leave_whole_steps (moves : List Move) (policy : Policy)
    (channel : Cycle.Channel χ) (clock : Nat → Instant) (e : EndpointId) (now : Instant)
    (memory : χ) :
    let s := (after moves : World σ).store
    let r₀ : Cycle.Run σ χ := ⟨.start e now, s, memory⟩
    (∀ report s' memory',
      Cycle.runAt policy channel clock e now s memory = (.ok report, s', memory') →
      s.plan.Spared s'.plan) ∧
    (∀ err s' memory',
      Cycle.runAt policy channel clock e now s memory = (.error err, s', memory') →
      ∃ n r r', Cycle.driveAt policy channel n clock r₀ = (.ok (), r) ∧
        Cycle.step policy (clock n) channel r = (.error err, r') ∧ s' = r'.store) ∧
    ∀ n r err r', Cycle.driveAt policy channel n clock r₀ = (.ok (), r) →
      Cycle.step policy (clock n) channel r = (.error err, r') →
      Cycle.runAt policy channel clock e now s memory = (.error err, r'.store, r.channel) ∧
      (∃ k q, Cycle.LastCommit policy channel clock r₀ (n + 1) k ∧
        Cycle.driveAt policy channel k clock r₀ = (.ok (), q) ∧ r'.store.rows = q.store.rows) ∧
      Cycle.Leaves policy channel clock r₀ n r.cycle (Legible.ledger r'.store.rows) := by
  intro s r₀
  have hs : Legible.Sound s.rows := sound_after moves
  refine ⟨fun report s' memory' => Cycle.runAt_spared, fun err s' memory' ran => ?_,
    fun n r err r' hdrive hstep => ?_⟩
  · obtain ⟨n, r, r', hdrive, hstep, hstore, -⟩ := (Cycle.runAt_error hs).mp ran
    exact ⟨n, r, r', hdrive, hstep, hstore⟩
  · obtain ⟨hchannel, hrows, hcommits, -⟩ := Cycle.step_error hstep
    refine ⟨?_, ?_, ?_⟩
    · exact (Cycle.runAt_error hs).mpr ⟨n, r, r', hdrive, hstep, rfl, hchannel.symm⟩
    · obtain ⟨k, q, hlast, hq, hsame⟩ := Cycle.rows_lastCommit hdrive
      exact ⟨k, q, hlast.next hdrive hcommits, hq, hrows.trans hsame⟩
    · rw [hrows]
      exact Cycle.leaves hs rfl hdrive

def interrupted (n : Int) : List Move :=
  [.create ⟨0, 0⟩ ⟨"install", ⟨0, 0⟩, none, ⟨"pkg.install", [.str "vim"], []⟩, ["m1"], 2⟩,
    .disturb [(.commit, n)] false]

def obedient : Cycle.Channel Nat :=
  ⟨fun _ _ n => (.ok (some (.succeeded (.bool true))), n + 1), fun _ n => (.ok (some true), n + 1)⟩

def uninstalled (n : Int) : Cycle.Run Ledger Nat :=
  ⟨.start "m1" ⟨1, 0⟩, (after (interrupted n)).store, 0⟩

/-- If the third commit fails, it is the one of the result, and nobody is called after the one call:
of the two tries one is spent, and the record is as it was otherwise. If the ninth is to fail, the
cycle goes through before it. -/
theorem result_not_committed :
    (∃ (r r' : Cycle.Run Ledger Nat) (a : Action) (result : CallResult) (record : Record) (k : Nat),
      r.cycle.stage = .recording a 1 result ∧
      Cycle.runAt ⟨.standard, 5⟩ obedient (fun _ => ⟨1, 0⟩) "m1" ⟨1, 0⟩
        (after (interrupted 3)).store 0 = (.error (.backend (.injected .commit)), r'.store, 1) ∧
      Cycle.LastCommit ⟨.standard, 5⟩ obedient (fun _ => ⟨1, 0⟩) (uninstalled 3) 4 k ∧
      record.status = .queued ∧ record.remainingTries = 2 ∧
      (Legible.ledger r'.store.rows).record? a.id "m1" =
        some { record with remainingTries := 1 }) ∧
    (∃ n r, Cycle.driveAt ⟨.standard, 5⟩ obedient n (fun _ => ⟨1, 0⟩) (uninstalled 3) =
      (.ok (), r)) ∧
    ∃ plan, (after (interrupted 9) : World Ledger).store.plan.Spared plan := by
  obtain ⟨-, fails, whole⟩ := failures_leave_whole_steps (σ := Ledger) (interrupted 3)
    ⟨.standard, 5⟩ obedient (fun _ => ⟨1, 0⟩) "m1" ⟨1, 0⟩ 0
  obtain ⟨spared, -⟩ := failures_leave_whole_steps (σ := Ledger) (interrupted 9)
    ⟨.standard, 5⟩ obedient (fun _ => ⟨1, 0⟩) "m1" ⟨1, 0⟩ 0
  have reached : (Cycle.driveAt ⟨.standard, 5⟩ obedient 3 (fun _ => ⟨1, 0⟩)
      (uninstalled 3)).1.isOk := by decide +kernel
  have recording : (Cycle.driveAt ⟨.standard, 5⟩ obedient 3 (fun _ => ⟨1, 0⟩)
      (uninstalled 3)).2.cycle.stage.leftToRecord = some 1 := by decide +kernel
  have called : (Cycle.driveAt ⟨.standard, 5⟩ obedient 3 (fun _ => ⟨1, 0⟩)
      (uninstalled 3)).2.channel = 1 := by decide +kernel
  have struck : (Cycle.step ⟨.standard, 5⟩ ⟨1, 0⟩ obedient (Cycle.driveAt ⟨.standard, 5⟩ obedient 3
      (fun _ => ⟨1, 0⟩) (uninstalled 3)).2).1 = .error (.backend (.injected .commit)) := by
    decide +kernel
  have through : (Cycle.runAt ⟨.standard, 5⟩ obedient (fun _ => ⟨1, 0⟩) "m1" ⟨1, 0⟩
      (after (interrupted 9) : World Ledger).store 0).1.isOk := by decide +kernel
  cases hdrive : Cycle.driveAt ⟨.standard, 5⟩ obedient 3 (fun _ => ⟨1, 0⟩) (uninstalled 3) with
  | mk answer r =>
    rw [hdrive] at reached recording called struck
    cases answer with
    | error err => cases reached
    | ok u =>
      cases hstep : Cycle.step ⟨.standard, 5⟩ ⟨1, 0⟩ obedient r with
      | mk answer r' =>
        rw [hstep] at struck
        obtain rfl : answer = .error (.backend (.injected .commit)) := struck
        obtain ⟨ran, ⟨k, q, hlast, -⟩, leaves⟩ := whole 3 r _ r' hdrive hstep
        obtain ⟨n, q, -, hq, -⟩ := fails _ _ _ ran
        refine ⟨?_, ⟨n, q, hq⟩, ?_⟩
        · cases hstage : r.cycle.stage with
          | recording a left result =>
            obtain ⟨i, q, record, -, -, -, found, -, queued, tries, hledger⟩ :=
              leaves.unrecorded a left result hstage
            rw [hstage] at recording
            obtain rfl : left = 1 := Option.some.inj recording
            refine ⟨r, r', a, result, record, k, hstage, called ▸ ran, hlast, queued, tries, ?_⟩
            rw [hledger, Ledger.record?_putRecord, if_pos]
            exact Prod.ext (Ledger.actionId_of_record? found) (Ledger.endpoint_of_record? found)
          | loading | preparing | calling | refreshing | pinging | checkingIn | closed =>
            rw [hstage] at recording
            cases recording
        · cases hran : Cycle.runAt ⟨.standard, 5⟩ obedient (fun _ => ⟨1, 0⟩) "m1" ⟨1, 0⟩
              (after (interrupted 9) : World Ledger).store 0 with
          | mk answer rest =>
            rw [hran] at through
            cases answer with
            | error err => cases through
            | ok report => exact ⟨_, spared report rest.1 rest.2 hran⟩

end World

end FleetDispatch
