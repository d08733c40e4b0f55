import FleetDispatch.Proofs.Dispatch.Agenda
import Mathlib.Data.List.ReduceOption

namespace FleetDispatch

/-- A backlog in order: by time, then by action, and records with one time and action as they were
given. -/
structure StablySorted (given ordered : List PendingRecord) : Prop where
  perm : ordered.Perm given
  sorted : ordered.Pairwise fun p q => p.scheduledAt ≤ q.scheduledAt ∧
    (p.scheduledAt = q.scheduledAt → p.actionId ≤ q.actionId)
  stable : ∀ time id, (ordered.filter fun p => p.scheduledAt = time ∧ p.actionId = id) =
    given.filter fun p => p.scheduledAt = time ∧ p.actionId = id

namespace Backlog

def answers : List Instant → Backlog → List (Option PendingRecord)
  | [], _ => []
  | now :: nows, b => (b.nextDue now).1 :: answers nows (b.nextDue now).2

def after (nows : List Instant) (b : Backlog) : Backlog :=
  nows.foldl (fun b now => (b.nextDue now).2) b

def IsEarly (now : Instant) (b : Backlog) : Prop :=
  ∃ p ∈ b.items.head?, ¬ p.scheduledAt ≤ now

/-- Whether one of some calls came too early for the record that was first then. -/
def CameEarly (nows : List Instant) (b : Backlog) : Prop :=
  ∃ earlier now, earlier ++ [now] <+: nows ∧ (b.after earlier).IsEarly now

variable {b : Backlog} {now : Instant} {nows : List Instant}

theorem after_cons : b.after (now :: nows) = (b.nextDue now).2.after nows :=
  rfl

theorem stablySorted_ofPending (pending : List PendingRecord) :
    StablySorted pending (ofPending pending).items where
  perm := List.mergeSort_perm pending _
  sorted := (sorted_ofPending pending).imp PendingRecord.before_iff.mp
  stable time id := by
    let same : PendingRecord → Bool := fun p => p.scheduledAt = time ∧ p.actionId = id
    have hperm : ((ofPending pending).items.filter same).Perm (pending.filter same) :=
      (List.mergeSort_perm pending _).filter same
    -- records with one key are in order already, and a sort leaves such records as they stand
    have hties : (pending.filter same).Pairwise fun p q => p.before q = true := by
      refine List.pairwise_of_forall_mem_list fun p hp q hq => ?_
      obtain ⟨htime, hid⟩ := of_decide_eq_true (List.mem_filter.mp hp).2
      obtain ⟨htime', hid'⟩ := of_decide_eq_true (List.mem_filter.mp hq).2
      rw [PendingRecord.before_iff, htime, htime', hid, hid']
      exact ⟨Instant.le_refl _, fun _ => Int.le_refl _⟩
    have hsub : (pending.filter same).Sublist (ofPending pending).items :=
      List.sublist_mergeSort PendingRecord.before_trans PendingRecord.before_total hties
        List.filter_sublist
    have hfilter : (pending.filter same).filter same = pending.filter same := by simp
    have hties' := hsub.filter same
    rw [hfilter] at hties'
    exact (hties'.eq_of_length hperm.length_eq.symm).symm

theorem toList_nextDue_append (now : Instant) (b : Backlog) :
    (b.nextDue now).1.toList ++ (b.nextDue now).2.items = b.items := by
  cases hnext : b.nextDue now with
  | mk answer b' =>
    cases answer with
    | some p => exact (nextDue_some hnext).1.symm
    | none =>
      cases hhalted : b.halted with
      | false => exact (nextDue_none hhalted hnext).1
      | true =>
        rw [nextDue, if_pos hhalted] at hnext
        cases hnext
        rfl

theorem nextDue_eq_none_iff :
    (b.nextDue now).1 = none ↔ b.items = [] ∨ b.IsEarly now ∨ b.halted = true := by
  obtain ⟨items, halted⟩ := b
  cases halted with
  | true => simp [nextDue]
  | false =>
    cases items with
    | nil => simp [nextDue]
    | cons p rest =>
      by_cases hdue : p.scheduledAt ≤ now <;> simp [nextDue, IsEarly, hdue]

theorem halted_nextDue : (b.nextDue now).2.halted = true ↔ b.halted = true ∨ b.IsEarly now := by
  obtain ⟨items, halted⟩ := b
  cases halted with
  | true => simp [nextDue]
  | false =>
    cases items with
    | nil => simp [nextDue, IsEarly]
    | cons p rest =>
      by_cases hdue : p.scheduledAt ≤ now <;> simp [nextDue, IsEarly, hdue]

theorem cameEarly_cons :
    b.CameEarly (now :: nows) ↔ b.IsEarly now ∨ (b.nextDue now).2.CameEarly nows := by
  constructor
  · rintro ⟨earlier, time, hprefix, hearly⟩
    cases earlier with
    | nil =>
      obtain ⟨rfl, -⟩ := List.cons_prefix_cons.mp hprefix
      exact .inl hearly
    | cons first earlier =>
      obtain ⟨rfl, hrest⟩ := List.cons_prefix_cons.mp hprefix
      exact .inr ⟨earlier, time, hrest, hearly⟩
  · rintro (hearly | ⟨earlier, time, hprefix, hearly⟩)
    · exact ⟨[], now, List.cons_prefix_cons.mpr ⟨rfl, List.nil_prefix⟩, hearly⟩
    · exact ⟨now :: earlier, time, List.cons_prefix_cons.mpr ⟨rfl, hprefix⟩, hearly⟩

theorem halted_after : (b.after nows).halted = true ↔ b.halted = true ∨ b.CameEarly nows := by
  induction nows generalizing b with
  | nil => simp [after, CameEarly]
  | cons now nows ih => rw [after_cons, ih, halted_nextDue, cameEarly_cons, or_assoc]

theorem answers_append_items :
    (answers nows b).reduceOption ++ (b.after nows).items = b.items := by
  induction nows generalizing b with
  | nil => rfl
  | cons now nows ih =>
    have hcall := toList_nextDue_append now b
    have hrest := ih (b := (b.nextDue now).2)
    rw [after_cons, answers, ← hcall, ← hrest]
    cases (b.nextDue now).1 with
    | none => rw [List.reduceOption_cons_of_none, Option.toList_none, List.nil_append]
    | some p => rw [List.reduceOption_cons_of_some, Option.toList_some, List.cons_append]; rfl

theorem due_of_answers :
    List.Forall₂ (fun now answer => ∀ p ∈ answer, p.scheduledAt ≤ now) nows (answers nows b) := by
  induction nows generalizing b with
  | nil => exact .nil
  | cons now nows ih =>
    refine .cons (fun p hp => ?_) ih
    obtain ⟨answer, b', hnext⟩ : ∃ answer b', b.nextDue now = (answer, b') := ⟨_, _, rfl⟩
    rw [hnext, Option.mem_def] at hp
    obtain rfl : answer = some p := hp
    exact (nextDue_some hnext).2.1

theorem answers_of_halted (halted : b.halted = true) :
    answers nows b = List.replicate nows.length none := by
  induction nows with
  | nil => rfl
  | cons now nows ih =>
    rw [answers, nextDue, if_pos halted, ih, List.length_cons, List.replicate_succ]

/-- Whatever records a backlog is made of, and at whatever times it is called, going forth or back,
it answers with the first of them in their order, each one due at its call, and none is lost. A call
without an answer means that nothing is left, that the first record is not due, or that an earlier
call came too early for the record that was first then; from such a call on there are no more
answers. -/
theorem due_prefix_answered (pending : List PendingRecord) (nows : List Instant) :
    let b := ofPending pending
    let b' := b.after nows
    let yielded := (answers nows b).reduceOption
    (∃ ordered, StablySorted pending ordered ∧ yielded ++ b'.items = ordered) ∧
      List.Forall₂ (fun now answer => ∀ p ∈ answer, p.scheduledAt ≤ now) nows (answers nows b) ∧
      (∀ now, (b'.nextDue now).1 = none ↔ b'.items = [] ∨ b'.IsEarly now ∨ b.CameEarly nows) ∧
      (b'.halted = true ↔ b.CameEarly nows) ∧
      (b'.halted = true → ∀ later, answers later b' = List.replicate later.length none) ∧
      b'.remaining + yielded.length = pending.length := by
  intro b b' yielded
  have hitems : yielded ++ b'.items = b.items := answers_append_items
  have hsorted : StablySorted pending b.items := stablySorted_ofPending pending
  have hhalted : b'.halted = true ↔ b.CameEarly nows := by
    have hopen : b.halted = false := rfl
    rw [halted_after, hopen, or_iff_right Bool.false_ne_true]
  refine ⟨⟨_, hsorted, hitems⟩, due_of_answers, fun now => ?_, hhalted,
    fun halted later => answers_of_halted halted, ?_⟩
  · rw [nextDue_eq_none_iff, hhalted]
  · rw [remaining, Nat.add_comm, ← List.length_append, hitems, hsorted.perm.length_eq]

def threeRecords : List PendingRecord :=
  [⟨.fresh 9 "web-1" 3, "reboot", ⟨5, 0⟩⟩, ⟨.fresh 1 "web-1" 3, "upgrade", ⟨20, 0⟩⟩,
    ⟨.fresh 4 "web-1" 3, "install", ⟨5, 0⟩⟩]

def threeOrdered : List PendingRecord :=
  [⟨.fresh 4 "web-1" 3, "install", ⟨5, 0⟩⟩, ⟨.fresh 9 "web-1" 3, "reboot", ⟨5, 0⟩⟩,
    ⟨.fresh 1 "web-1" 3, "upgrade", ⟨20, 0⟩⟩]

def threeCalls : List Instant :=
  [⟨6, 0⟩, ⟨5, 0⟩, ⟨19, 0⟩]

theorem due_prefix_answered_threeRecords :
    (answers threeCalls (ofPending threeRecords)).map (·.map (·.actionId)) =
        [some 4, some 9, none] ∧
      (ofPending threeRecords).CameEarly threeCalls ∧
      ((ofPending threeRecords).after threeCalls).remaining = 1 ∧
      answers [⟨20, 0⟩, ⟨60, 0⟩] ((ofPending threeRecords).after threeCalls) = [none, none] := by
  obtain ⟨-, -, -, hearly, hsilent, -⟩ := due_prefix_answered threeRecords threeCalls
  have apart : ∀ p ∈ threeRecords, ∀ q ∈ threeOrdered, p.before q → q.before p → p = q := by
    decide
  have sorted : threeRecords.mergeSort PendingRecord.before = threeOrdered :=
    List.Perm.eq_of_pairwise (fun p q hp hq => apart p (List.mem_mergeSort.mp hp) q hq)
      (sorted_ofPending threeRecords) (by decide)
      ((List.mergeSort_perm threeRecords _).trans (by decide))
  have hbacklog : ofPending threeRecords = ⟨threeOrdered, false⟩ := by rw [ofPending, sorted]
  have hhalted : ((ofPending threeRecords).after threeCalls).halted = true := by
    rw [hbacklog]
    rfl
  refine ⟨?_, hearly.mp hhalted, ?_, hsilent hhalted [⟨20, 0⟩, ⟨60, 0⟩]⟩
  · rw [hbacklog]
    rfl
  · rw [hbacklog]
    rfl

end Backlog

end FleetDispatch
