import FleetDispatch.Proofs.Dispatch.Refresh
import FleetDispatch.Proofs.Dispatch.Walk

namespace FleetDispatch

def Stage.isOver : Stage → Bool
  | pinging => true
  | checkingIn => true
  | closed => true
  | _ => false

namespace Cycle

variable {k : Keeping} {policy : Policy} {wall : Instant} {c c' : Cycle} {l l' : Ledger}
  {due : Bool} {o : Outcome}

/-- Whether what a cycle is at is to read the package list anew, or it is done. -/
def Reads (c : Cycle) (l : Ledger) : Prop :=
  match c.stage with
  | .preparing id => ∃ a, l.action? id = some a ∧ a.procedure.isPackageRefresh
  | .calling a _ => a.procedure.isPackageRefresh
  | .recording a _ _ => a.procedure.isPackageRefresh
  | .loading => False
  | .refreshing => False
  | _ => True

/-- How a cycle stands to the flag of its endpoint, of which it is told if it was up at some time
since the cycle began: the flag is left as it is until the records are done. Then there is nothing
to do, or there is a checkpoint that the cycle goes through with. -/
inductive Duty (c : Cycle) (l : Ledger) (due : Bool) : Prop
  | walking (open_ : c.report.checkpoint = none) (busy : c.stage.isOver = false)
    (flag : l.flagged c.endpoint = due)
  | spared (open_ : c.report.checkpoint = none) (past : c.stage.isOver = true)
    (flag : l.flagged c.endpoint = false) (free : due = false)
  | refreshed {id} (taken : c.report.checkpoint = some id) (reads : c.Reads l)
    (flag : l.flagged c.endpoint = false) (met : due = true)

theorem isOver_conclude : c.conclude.stage.isOver = true := by
  unfold conclude
  by_cases h : c.report.visitedAny <;> simp [h, Stage.isOver]

theorem advance_open (h : c.report.checkpoint = none) :
    c.advance.report.checkpoint = none ∧ c.advance.stage.isOver = false := by
  unfold advance
  rw [h]
  simp only [Option.isSome_none, Bool.false_eq_true, if_false]
  split <;> exact ⟨h, rfl⟩

theorem advance_taken {id : ActionId} (h : c.report.checkpoint = some id) :
    c.advance = c.conclude := by
  unfold advance
  rw [h]
  rfl

theorem settle_open (h : c.report.checkpoint = none) :
    (c.settle o).report.checkpoint = none ∧ (c.settle o).stage.isOver = false :=
  advance_open h

theorem reads_of_over (h : c.stage.isOver = true) : c.Reads l := by
  unfold Reads
  cases hstage : c.stage <;> simp [hstage, Stage.isOver] at h ⊢

theorem settle_taken {id : ActionId} (h : c.report.checkpoint = some id) :
    (c.settle o).report.checkpoint = some id ∧ (c.settle o).Reads l := by
  have hsettle : c.settle o = { c with report := c.report.add o }.conclude := advance_taken h
  rw [hsettle]
  exact ⟨h, reads_of_over isOver_conclude⟩

theorem Duty.aside (h : c.Duty l due) (flag : l'.flagged c.endpoint = l.flagged c.endpoint)
    (actions : ∀ id a, l.action? id = some a → l'.action? id = some a) : c.Duty l' due := by
  cases h with
  | walking open_ busy up => exact .walking open_ busy (flag.trans up)
  | spared open_ past up free => exact .spared open_ past (flag.trans up) free
  | refreshed taken reads up met =>
    refine .refreshed taken ?_ (flag.trans up) met
    unfold Reads at reads ⊢
    split at reads
    · next stage =>
      obtain ⟨a, ha, hrefresh⟩ := reads
      exact ⟨a, actions _ a ha, hrefresh⟩
    all_goals simp_all

theorem Turn.flag_due (turn : Turn k policy wall c l c' l') (flag : l.flagged c.endpoint = due)
    (kept : c.signalOn policy l ≠ some .replaced) :
    l'.flagged c'.endpoint = (due || c.signalOn policy l == some .raised) := by
  rw [turn.unmoved.1, turn.flag, if_pos rfl]
  cases hsignal : c.signalOn policy l with
  | none => simp [flag]
  | some x =>
    cases x with
    | raised => simp
    | replaced => exact absurd hsignal kept

theorem Turn.walks (turn : Turn k policy wall c l c' l') (open_ : c.report.checkpoint = none)
    (busy : c.stage.isOver = false) (kept : c.signalOn policy l ≠ some .replaced) :
    c'.report.checkpoint = none ∧
      (c'.stage.isOver = true → l.flagged c.endpoint = false ∧ c.signalOn policy l = none) := by
  cases turn with
  | loaded stage | skipped stage | barred stage | held stage | exhausted stage | refused stage
  | recorded stage =>
    refine ⟨(advance_open (by exact open_)).1, fun hover => ?_⟩
    exact absurd hover (by rw [Bool.not_eq_true]; exact (advance_open (by exact open_)).2)
  | spent stage => exact ⟨open_, fun hover => by cases hover⟩
  | unflagged stage clear =>
    refine ⟨open_, fun _ => ⟨clear, ?_⟩⟩
    simp only [signalOn, stage]
    exact if_neg (by rw [Ledger.flagged, clear]; decide)
  | checkpointed stage flagged action =>
    refine absurd ?_ kept
    simp only [signalOn, stage]
    exact if_pos flagged
  | checkedIn stage =>
    rw [stage] at busy
    cases busy

theorem duty_turned (hk : (k.procedure .packageRefresh).isPackageRefresh)
    (turn : Turn k policy wall c l c' l') (open_ : c.report.checkpoint = none)
    (busy : c.stage.isOver = false) (flag : l.flagged c.endpoint = due) :
    c'.Duty l' (due || c.signalOn policy l == some .raised) := by
  by_cases hreplaced : c.signalOn policy l = some .replaced
  · have hdown := turn.flag c.endpoint
    rw [if_pos rfl, hreplaced] at hdown
    have hup := (refreshing_of_replaced hreplaced).2
    obtain ⟨a, ha, rfl, rfl⟩ := turn.replaced hreplaced
    refine .refreshed rfl ⟨a, by simp, ?_⟩ hdown ?_
    · rw [ha]
      exact hk
    · rw [← flag, hup, Bool.true_or]
  · obtain ⟨hopen, hover⟩ := turn.walks open_ busy hreplaced
    have hflag := turn.flag_due flag hreplaced
    cases hstage : c'.stage.isOver with
    | false => exact .walking hopen hstage hflag
    | true =>
      obtain ⟨hclear, hsilent⟩ := hover hstage
      have hfree : (due || c.signalOn policy l == some .raised) = false := by
        rw [← flag, hclear, hsilent]
        rfl
      exact .spared hopen hstage (hflag.trans hfree) hfree

theorem signalOn_over (past : c.stage.isOver = true) : c.signalOn policy l = none := by
  unfold signalOn
  cases hstage : c.stage <;> simp [hstage, Stage.isOver] at past ⊢

/-- The checkpoint itself never raises the flag again. -/
theorem signalOn_reads (reads : c.Reads l) : c.signalOn policy l = none := by
  unfold Reads at reads
  unfold signalOn
  cases hstage : c.stage <;> simp_all [isStale]

theorem Turn.reads (turn : Turn k policy wall c l c' l') {id : ActionId}
    (taken : c.report.checkpoint = some id) (reads : c.Reads l) :
    c'.report.checkpoint = some id ∧ c'.Reads l' := by
  cases turn with
  | skipped | barred | held | exhausted | refused | recorded =>
    exact settle_taken taken
  | loaded stage | unflagged stage | checkpointed stage => simp [Reads, stage] at reads
  | @spent i r a n stage found queued action =>
    simp only [Reads, stage] at reads
    obtain ⟨b, hb, hrefresh⟩ := reads
    obtain rfl := Option.some.inj (action.symm.trans hb)
    exact ⟨taken, hrefresh⟩
  | checkedIn => exact ⟨taken, trivial⟩

theorem isOver_pinged {reply : PingReply} : (c.pinged reply).stage.isOver = true := by
  unfold pinged
  split <;> rfl

theorem Turn.isOver (turn : Turn k policy wall c l c' l') (past : c.stage.isOver = true) :
    c'.stage.isOver = true ∧ c'.report.checkpoint = c.report.checkpoint := by
  cases turn with
  | checkedIn stage => exact ⟨rfl, rfl⟩
  | loaded stage | skipped stage | barred stage | held stage | exhausted stage | spent stage
  | refused stage | recorded stage | unflagged stage | checkpointed stage =>
    rw [stage] at past
    cases past

theorem Duty.paced (hk : (k.procedure .packageRefresh).isPackageRefresh) (h : c.Duty l due)
    (pace : Pace k policy wall c l c' l') :
    c'.Duty l' (due || c.signalOn policy l == some .raised) := by
  cases h with
  | walking open_ busy flag =>
    cases pace with
    | turned turn => exact duty_turned hk turn open_ busy flag
    | @answered a left stage reply =>
      have hsilent : c.signalOn policy l = none := by simp only [signalOn, stage]
      have hdue : (due || c.signalOn policy l == some .raised) = due := by simp [hsilent]
      rw [hdue]
      rcases invoked_cases stage reply with ⟨o, -, hnext⟩ | ⟨result, hnext⟩
      · rw [hnext]
        refine .walking (settle_open open_).1 (settle_open open_).2 ?_
        rw [endpoint_settle]
        exact flag
      · rw [hnext]
        exact .walking open_ rfl flag
    | pinged stage | rested stage =>
      rw [stage] at busy
      cases busy
  -- from here on no signal is left to come, and the flag has only to stay down
  | spared open_ past flag free =>
    have hsilent : c.signalOn policy l = none := signalOn_over past
    have hdue : (due || c.signalOn policy l == some .raised) = due := by simp [hsilent]
    rw [hdue]
    cases pace with
    | turned turn =>
      obtain ⟨hover, hsame⟩ := turn.isOver past
      have hflag := turn.flag c.endpoint
      rw [if_pos rfl, hsilent] at hflag
      refine .spared (hsame.trans open_) hover ?_ free
      rw [turn.unmoved.1]
      exact hflag.trans flag
    | answered stage =>
      rw [stage] at past
      cases past
    | pinged stage reply =>
      refine .spared (checkpoint_pinged.trans open_) isOver_pinged ?_ free
      rw [pinged_unmoved.1]
      exact flag
    | rested stage => exact .spared open_ past flag free
  | refreshed taken reads flag met =>
    have hsilent : c.signalOn policy l = none := signalOn_reads reads
    have hdue : (due || c.signalOn policy l == some .raised) = due := by simp [hsilent]
    rw [hdue]
    cases pace with
    | turned turn =>
      obtain ⟨htaken, hreads⟩ := turn.reads taken reads
      have hflag := turn.flag c.endpoint
      rw [if_pos rfl, hsilent] at hflag
      refine .refreshed htaken hreads ?_ met
      rw [turn.unmoved.1]
      exact hflag.trans flag
    | @answered a left stage reply =>
      have hrefresh : a.procedure.isPackageRefresh := by simpa [Reads, stage] using reads
      rcases invoked_cases stage reply with ⟨o, -, hnext⟩ | ⟨result, hnext⟩
      · rw [hnext]
        obtain ⟨htaken, hreads⟩ := settle_taken (l := l) (o := o) taken
        refine .refreshed htaken hreads ?_ met
        rw [endpoint_settle]
        exact flag
      · rw [hnext]
        exact .refreshed taken hrefresh flag met
    | pinged stage reply =>
      refine .refreshed (checkpoint_pinged.trans taken) (reads_of_over isOver_pinged) ?_ met
      rw [pinged_unmoved.1]
      exact flag
    | rested stage => exact .refreshed taken reads flag met

/-- At the end of a cycle the flag is down, and there is a checkpoint if it was ever up. -/
theorem Duty.closed (h : c.Duty l due) (closed : c.stage = .closed) :
    l.flagged c.endpoint = false ∧ c.report.checkpoint.isSome = due := by
  cases h with
  | walking open_ busy flag =>
    rw [closed] at busy
    cases busy
  | spared open_ past flag free => exact ⟨flag, by rw [open_, free]; rfl⟩
  | refreshed taken reads flag met => exact ⟨flag, by rw [taken, met]; rfl⟩

end Cycle

def Move.target : Move → Option Nat
  | .transact i _ _ => some i
  | .call i _ => some i
  | .ping i _ => some i
  | .abandon i => some i
  | _ => none

namespace World

variable {σ : Type} [ActionRows σ]

/-- The place that a cycle has after a move, unless it is given up in it. -/
def place (i : Nat) (m : Move) (w : World σ) : Option Nat :=
  if (w.act m).cycles.length < w.cycles.length then
    match m.target with
    | some j => if j < i then some (i - 1) else if j = i then none else some i
    | none => some i
  else some i

variable [Legible σ]

/-- A cycle is followed from its place through some moves to another place. It gives signals for its
endpoint, and meanwhile the steps of others give none. -/
inductive Followed (e : EndpointId) : World σ → Nat → List Move → List Signal → Nat → Prop
  | done {w i} : Followed e w i [] [] i
  | own {w i m moves signals j} (mine : m.target = some i) (kept : w.place i m = some i)
    (rest : Followed e (w.step m) i moves signals j) :
    Followed e w i (m :: moves) ((w.signal e m).toList ++ signals) j
  | other {w i m moves signals i' j} (others : m.target ≠ some i) (silent : w.signal e m = none)
    (kept : w.place i m = some i') (rest : Followed e (w.step m) i' moves signals j) :
    Followed e w i (m :: moves) signals j

variable {w : World σ} {e : EndpointId} {i j : Nat} {m : Move} {c : Cycle}

omit [ActionRows σ] [Legible σ] in
theorem call_cases (i : Nat) (reply : Option InvokeReply) (w : World σ) :
    w.call i reply = w ∨ ∃ c a left, w.cycles[i]? = some c ∧ c.stage = .calling a left ∧
      ((∃ r, (w.call i reply).cycles = w.cycles.set i (c.invoked r)) ∨
        (w.call i reply).cycles = w.cycles.eraseIdx i) := by
  unfold call
  cases hc : w.cycles[i]? with
  | none => exact .inl rfl
  | some c =>
    simp only
    split
    · next a left stage =>
      refine .inr ⟨c, a, left, rfl, stage, ?_⟩
      cases reply with
      | none => exact .inr rfl
      | some r => exact .inl ⟨r, rfl⟩
    · exact .inl rfl

omit [ActionRows σ] [Legible σ] in
theorem ping_cases (i : Nat) (reply : PingReply) (w : World σ) :
    w.ping i reply = w ∨ ∃ c, w.cycles[i]? = some c ∧ c.stage = .pinging ∧
      (w.ping i reply).cycles = w.cycles.set i (c.pinged reply) := by
  unfold ping
  cases hc : w.cycles[i]? with
  | none => exact .inl rfl
  | some c =>
    simp only
    split
    · next stage => exact .inr ⟨c, rfl, stage, rfl⟩
    · exact .inl rfl

theorem cycles_step (hs : w.Sound) (m : Move) :
    (w.step m).cycles = w.cycles ∨
      (∃ x, (w.step m).cycles = w.cycles ++ [x]) ∨
      (∃ j x, m.target = some j ∧ (w.step m).cycles = w.cycles.set j x) ∨
      ∃ j, m.target = some j ∧ (w.step m).cycles = w.cycles.eraseIdx j := by
  cases m with
  | create | disturb => exact .inl rfl
  | start x now => exact .inr (.inl ⟨_, rfl⟩)
  | abandon j => exact .inr (.inr (.inr ⟨j, rfl, rfl⟩))
  | transact j policy wall =>
    rcases transact_signal hs j policy wall with ⟨-, -, hsame | hgone⟩ | ⟨c, c', -, hset, -, -⟩
    · exact .inl hsame
    · exact .inr (.inr (.inr ⟨j, rfl, hgone⟩))
    · exact .inr (.inr (.inl ⟨j, c', rfl, hset⟩))
  | call j reply =>
    change (w.call j reply).cycles = _ ∨ _
    rcases call_cases j reply w with hsame | ⟨c, a, left, -, -, ⟨r, hset⟩ | hgone⟩
    · exact .inl (by rw [hsame])
    · exact .inr (.inr (.inl ⟨j, _, rfl, hset⟩))
    · exact .inr (.inr (.inr ⟨j, rfl, hgone⟩))
  | ping j reply =>
    change (w.ping j reply).cycles = _ ∨ _
    rcases ping_cases j reply w with hsame | ⟨c, -, -, hset⟩
    · exact .inl (by rw [hsame])
    · exact .inr (.inr (.inl ⟨j, _, rfl, hset⟩))

theorem eq_of_place (h : w.cycles.length ≤ (w.step m).cycles.length)
    (kept : w.place i m = some j) : i = j := by
  have hlong : ¬(w.act m).cycles.length < w.cycles.length := Nat.not_lt.mpr h
  rw [place, if_neg hlong] at kept
  exact Option.some.inj kept

theorem place_gone (mine : m.target = some i) (here : w.cycles[i]? = some c)
    (h : (w.step m).cycles = w.cycles.eraseIdx i) : w.place i m = none := by
  obtain ⟨hi, -⟩ := List.getElem?_eq_some_iff.mp here
  have hshort : (w.act m).cycles.length < w.cycles.length := by
    change (w.step m).cycles.length < _
    rw [h, List.length_eraseIdx_of_lt hi]
    omega
  rw [place, if_pos hshort, mine]
  simp

theorem here_after (hs : w.Sound) (here : w.cycles[i]? = some c) (others : m.target ≠ some i)
    (kept : w.place i m = some j) : (w.step m).cycles[j]? = some c := by
  obtain ⟨hi, -⟩ := List.getElem?_eq_some_iff.mp here
  rcases cycles_step hs m with h | ⟨x, h⟩ | ⟨p, x, hp, h⟩ | ⟨p, hp, h⟩
  · obtain rfl := eq_of_place (by rw [h]) kept
    rw [h, here]
  · obtain rfl := eq_of_place (by rw [h, List.length_append]; omega) kept
    rw [h, List.getElem?_append_left hi, here]
  · obtain rfl := eq_of_place (by rw [h, List.length_set]) kept
    have hne : p ≠ i := fun hpi => others (hpi ▸ hp)
    rw [h, List.getElem?_set_ne hne, here]
  · have hne : p ≠ i := fun hpi => others (hpi ▸ hp)
    -- a cycle that is given up moves those behind it one place forward
    by_cases hlt : p < w.cycles.length
    · have hshort : (w.act m).cycles.length < w.cycles.length := by
        change (w.step m).cycles.length < _
        rw [h, List.length_eraseIdx_of_lt hlt]
        omega
      rw [place, if_pos hshort, hp] at kept
      simp only [hne, if_false] at kept
      rw [h, List.getElem?_eraseIdx]
      split at kept
      · obtain rfl := Option.some.inj kept
        rw [if_neg (by omega), Nat.sub_add_cancel (by omega), here]
      · obtain rfl := Option.some.inj kept
        rw [if_pos (by omega), here]
    · have hsame : (w.step m).cycles = w.cycles := by
        rw [h, List.eraseIdx_of_length_le (Nat.not_lt.mp hlt)]
      obtain rfl := eq_of_place (by rw [hsame]) kept
      rw [hsame, here]

theorem pace_of_own (hs : w.Sound) (here : w.cycles[i]? = some c) (mine : m.target = some i)
    (kept : w.place i m = some i) :
    ∃ c', (w.step m).cycles[i]? = some c' ∧
      ((c' = c ∧ (w.step m).ledger = w.ledger ∧ w.signal c.endpoint m = none) ∨
        ∃ policy wall, Cycle.Pace (Legible.keeping σ) policy wall c w.ledger c' (w.step m).ledger ∧
          w.signal c.endpoint m = c.signalOn policy w.ledger) := by
  obtain ⟨hi, -⟩ := List.getElem?_eq_some_iff.mp here
  -- the cycle is still there afterwards, which rules out each way in which its move gives it up
  have hstays : (w.step m).cycles ≠ w.cycles.eraseIdx i := fun h => by
    rw [place_gone mine here h] at kept
    cases kept
  have hset (x : Cycle) (h : (w.step m).cycles = w.cycles.set i x) :
      (w.step m).cycles[i]? = some x := by
    rw [h, List.getElem?_set_self hi]
  cases m with
  | create | start | disturb => cases mine
  | abandon j =>
    obtain rfl := Option.some.inj mine
    exact absurd rfl hstays
  | transact j policy wall =>
    obtain rfl := Option.some.inj mine
    rcases transact_signal hs j policy wall with ⟨hledger, hnone, hsame | hgone⟩ | hturn
    · refine ⟨c, ?_, .inl ⟨rfl, hledger, hnone c.endpoint⟩⟩
      exact (congrArg (·[j]?) hsame).trans here
    · exact absurd hgone hstays
    · obtain ⟨c₀, c', here₀, hcycles, turn, hsignal⟩ := hturn
      obtain rfl := Option.some.inj (here₀.symm.trans here)
      refine ⟨c', hset c' hcycles, .inr ⟨policy, wall, .turned turn, ?_⟩⟩
      rw [hsignal, if_pos rfl]
  | call j reply =>
    obtain rfl := Option.some.inj mine
    have hledger : (w.step (.call j reply)).ledger = w.ledger :=
      congrArg (fun s : Store σ => Legible.ledger s.rows) (store_call j reply w)
    rcases call_cases j reply w with hsame | ⟨c₀, a, left, here₀, stage, hnext⟩
    · refine ⟨c, ?_, .inl ⟨rfl, hledger, rfl⟩⟩
      exact (congrArg (fun w : World σ => w.cycles[j]?) hsame).trans here
    · obtain rfl := Option.some.inj (here₀.symm.trans here)
      rcases hnext with ⟨r, hcycles⟩ | hgone
      · refine ⟨c₀.invoked r, hset _ hcycles, .inr ⟨⟨fun _ _ => false, 0⟩, ⟨0, 0⟩, ?_, ?_⟩⟩
        · rw [hledger]
          exact .answered stage r
        · simp only [Cycle.signalOn, stage]
          rfl
      · exact absurd hgone hstays
  | ping j reply =>
    obtain rfl := Option.some.inj mine
    have hledger : (w.step (.ping j reply)).ledger = w.ledger :=
      congrArg (fun s : Store σ => Legible.ledger s.rows) (store_ping j reply w)
    rcases ping_cases j reply w with hsame | ⟨c₀, here₀, stage, hcycles⟩
    · refine ⟨c, ?_, .inl ⟨rfl, hledger, rfl⟩⟩
      exact (congrArg (fun w : World σ => w.cycles[j]?) hsame).trans here
    · obtain rfl := Option.some.inj (here₀.symm.trans here)
      refine ⟨c₀.pinged reply, hset _ hcycles, .inr ⟨⟨fun _ _ => false, 0⟩, ⟨0, 0⟩, ?_, ?_⟩⟩
      · rw [hledger]
        exact .pinged stage reply
      · simp only [Cycle.signalOn, stage]
        rfl

theorem Followed.duty {moves : List Move} {own : List Signal} {due : Bool}
    (followed : Followed e w i moves own j) (hs : w.Sound) (here : w.cycles[i]? = some c)
    (he : c.endpoint = e) (duty : c.Duty w.ledger due) :
    ∃ c', (moves.foldl step w).cycles[j]? = some c' ∧ c'.endpoint = e ∧
      c'.Duty (moves.foldl step w).ledger (due || own.contains .raised) := by
  -- on the moves: a step of the cycle itself is a pace of it, and any other move leaves its flag
  -- and its actions as they are
  induction followed generalizing c due with
  | done => exact ⟨c, here, he, by simpa using duty⟩
  | @own w i m moves signals j mine kept rest ih =>
    obtain ⟨c', here', ⟨rfl, hledger, hnone⟩ | ⟨policy, wall, pace, hsignal⟩⟩ :=
      pace_of_own hs here mine kept
    · rw [he] at hnone
      rw [hnone]
      exact ih (sound_step hs m) here' he (hledger ▸ duty)
    · have hduty := duty.paced Legible.keeps_refresh pace
      rw [he] at hsignal
      rw [← hsignal] at hduty
      have hown : (due || w.signal e m == some .raised || signals.contains .raised) =
          (due || ((w.signal e m).toList ++ signals).contains .raised) := by
        cases w.signal e m with
        | none => simp
        | some x =>
          have hne : (Signal.replaced == .raised) = false := rfl
          cases x <;> simp [hne]
      have hnext := ih (sound_step hs m) here' (pace.unmoved.1.trans he) hduty
      rwa [hown] at hnext
  | @other w i m moves signals i' j others silent kept rest ih =>
    have here' := here_after hs here others kept
    have hflag := flagged_step hs e m
    rw [silent] at hflag
    obtain ⟨-, called, happens, -⟩ := shows_act hs m
    refine ih (sound_step hs m) here' he (duty.aside (he ▸ hflag) fun id a ha => ?_)
    exact happens.action (Legible.wellFormed hs) ha

/-- No refresh of a package list is lost or made twice. The flag of an endpoint is up while the last
raise has not been followed by a checkpoint; a checkpoint is an action that is created as the flag
goes down, and no other action is created without being asked for; there are no more checkpoints
than raises. A cycle that is done, while others gave no signal for its endpoint, leaves the flag
down, and has a checkpoint if the flag was up when it began or it has raised it. -/
theorem refreshes_kept (moves : List Move) (e : EndpointId) :
    let w : World σ := after moves
    (w.ledger.flagged e ↔ ∃ early late,
      signals e moves (initial : World σ) = early ++ .raised :: late ∧ .replaced ∉ late) ∧
    (∀ m, w.signal e m = some .replaced →
      w.ledger.flagged e = true ∧ (w.step m).ledger.flagged e = false ∧
      ∃ a tries, w.ledger.action? a.id = none ∧ (w.step m).ledger.action? a.id = some a ∧
        a.procedure.isPackageRefresh ∧
        (w.step m).ledger.record? a.id e = some (.fresh a.id e tries)) ∧
    (∀ m, (∀ wall request, m ≠ .create wall request) →
      (w.step m).ledger.lastId ≠ w.ledger.lastId → ∃ x, w.signal x m = some .replaced) ∧
    (signals e moves (initial : World σ)).count .replaced ≤
      (signals e moves (initial : World σ)).count .raised ∧
    ∀ now later own i c,
      Followed e (w.step (.start e now)) w.cycles.length later own i →
      (after (moves ++ .start e now :: later) : World σ).cycles[i]? = some c →
      c.stage = .closed →
      (after (moves ++ .start e now :: later) : World σ).ledger.flagged e = false ∧
        (c.report.checkpoint.isSome ↔ w.ledger.flagged e = true ∨ .raised ∈ own) := by
  intro w
  have hs : w.Sound := sound_after moves
  refine ⟨flagged_iff e moves, fun m => replaced_step hs, fun m => replaced_of_lastId hs, ?_, ?_⟩
  · have hcount := count_replaced (w := (initial : World σ)) sound_initial e moves
    have hdown : (initial : World σ).ledger.flagged e = false := by
      rw [ledger, initial]
      exact congrArg (Ledger.flagged e) Legible.ledger_empty
    rw [hdown, Bool.toNat_false] at hcount
    omega
  · intro now later own i c followed found closed
    rw [after_append, List.foldl_cons] at found ⊢
    have here : (w.step (.start e now)).cycles[w.cycles.length]? = some (Cycle.start e now) :=
      List.getElem?_concat_length
    have begun : (Cycle.start e now).Duty w.ledger (w.ledger.flagged e) := .walking rfl rfl rfl
    obtain ⟨c', found', he, duty⟩ := followed.duty (sound_step hs _) here rfl begun
    obtain rfl := Option.some.inj (found'.symm.trans found)
    obtain ⟨hflag, hdue⟩ := duty.closed closed
    refine ⟨he ▸ hflag, ?_⟩
    rw [hdue, Bool.or_eq_true, List.contains_iff_mem]

def install : Move :=
  .create ⟨0, 0⟩ ⟨"install", ⟨0, 0⟩, none, ⟨"pkg.install", [.str "vim"], []⟩, ["m1", "m2"], 2⟩

def installed : List Move :=
  let policy : Policy := ⟨.standard, 5⟩
  [.transact 0 policy ⟨1, 0⟩, .start "m2" ⟨1, 0⟩, .transact 0 policy ⟨1, 0⟩,
    .call 0 (some (.ok (some (.succeeded (.bool true))))), .transact 0 policy ⟨1, 0⟩,
    .transact 1 policy ⟨1, 0⟩]

def refreshed : List Move :=
  let policy : Policy := ⟨.standard, 5⟩
  [.transact 0 policy ⟨2, 0⟩, .transact 0 policy ⟨2, 0⟩,
    .call 0 (some (.ok (some (.succeeded (.bool true))))), .transact 0 policy ⟨2, 0⟩]

theorem followed_refreshed :
    ∃ own, Followed "m1" ((after [install] : World Ledger).step (.start "m1" ⟨1, 0⟩)) 0
      (installed ++ refreshed) own 0 ∧ .raised ∈ own := by
  refine ⟨_, .own rfl ?_ <| .other ?_ ?_ ?_ <| .own rfl ?_ <| .own rfl ?_ <| .own rfl ?_ <|
    .other ?_ ?_ ?_ <| .own rfl ?_ <| .own rfl ?_ <| .own rfl ?_ <| .own rfl ?_ .done, ?_⟩
  all_goals decide +kernel

theorem refreshed_kept :
    (∃ c, (after ([install] ++ .start "m1" ⟨1, 0⟩ :: (installed ++ refreshed)) :
        World Ledger).cycles[0]? = some c ∧ c.report.checkpoint.isSome) ∧
      (∃ a : Action, (after ([install] ++ .start "m1" ⟨1, 0⟩ :: installed) :
          World Ledger).ledger.action? a.id = none ∧ a.procedure.isPackageRefresh) ∧
      ∃ x, (after ([install] ++ .start "m1" ⟨1, 0⟩ :: installed) : World Ledger).signal x
        (.transact 0 ⟨.standard, 5⟩ ⟨2, 0⟩) = some .replaced := by
  obtain ⟨own, followed, raised⟩ := followed_refreshed
  obtain ⟨-, replaced, created, -⟩ :=
    refreshes_kept (σ := Ledger) ([install] ++ .start "m1" ⟨1, 0⟩ :: installed) "m1"
  obtain ⟨-, -, -, -, ends⟩ := refreshes_kept (σ := Ledger) [install] "m1"
  refine ⟨?_, ?_, ?_⟩
  · have hclosed : (after ([install] ++ .start "m1" ⟨1, 0⟩ :: (installed ++ refreshed)) :
        World Ledger).cycles[0]?.any (fun c => c.stage matches .closed) = true := by
      decide +kernel
    obtain ⟨c, found, closed⟩ := (Option.any_eq_true _ _).mp hclosed
    have stage : c.stage = .closed := by
      cases h : c.stage <;> simp [h] at closed
      rfl
    obtain ⟨-, hcheckpoint⟩ := ends ⟨1, 0⟩ _ own 0 c followed found stage
    exact ⟨c, found, hcheckpoint.mpr (.inr raised)⟩
  · obtain ⟨-, -, a, tries, hnew, -, hrefresh, -⟩ :=
      replaced (.transact 0 ⟨.standard, 5⟩ ⟨2, 0⟩) (by decide +kernel)
    exact ⟨a, hnew, hrefresh⟩
  · exact created _ (fun _ _ => nofun) (by decide +kernel)

end World

end FleetDispatch
