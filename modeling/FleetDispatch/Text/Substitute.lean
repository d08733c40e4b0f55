namespace FleetDispatch.Text

def dropMark : List Char → List Char → Option (List Char)
  | [], cs => some cs
  | _ :: _, [] => none
  | m :: mark, c :: cs => if m = c then dropMark mark cs else none

theorem dropMark_eq_some {mark cs rest : List Char} (h : dropMark mark cs = some rest) :
    cs = mark ++ rest := by
  induction mark generalizing cs with
  | nil => simp only [dropMark, Option.some.injEq] at h; simp [h]
  | cons m mark ih =>
    cases cs with
    | nil => simp [dropMark] at h
    | cons c cs =>
      simp only [dropMark] at h
      split at h
      · next hm => simp [hm, ih h]
      · simp at h

/-- Replaces the occurrences of a nonempty `mark`, found from the left without overlap, by
`value`. The inserted text is not looked at again. -/
def substitute (mark value : List Char) (cs : List Char) : List Char :=
  match cs with
  | [] => []
  | c :: cs' =>
    if mark = [] then c :: cs'
    else match _h : dropMark mark (c :: cs') with
      | some rest => value ++ substitute mark value rest
      | none => c :: substitute mark value cs'
termination_by cs.length
decreasing_by
  · have := congrArg List.length (dropMark_eq_some _h)
    have : mark.length ≠ 0 := by simpa using ‹¬mark = []›
    simp only [List.length_append, List.length_cons] at *
    omega
  · simp

end FleetDispatch.Text
