import ProofFrame.Distinct.MergeSpec

/-!
# The anti-join of two sets of runs

A merge that skips repeated values yields the least record of each value, in
ascending order.  The anti-join walks over the two sequences of least records
and keeps those of the left side whose value the right side does not contain.
-/

namespace ProofFrame.Distinct

open Lib Lib.Run Lib.Sorted

variable {ω : Type} [Host ω]

/-! ## One value at a time -/

/-- The least records, one for each value, that a merge has still to yield. -/
def MergeState.Firsts (state : MergeState) (records : List Record) : Prop :=
  ∃ pending, state.Pending ∅ pending ∧ pending.Pairwise (· ≤ ·) ∧
    firsts Record.value pending = records

theorem MergeState.sat_nextUnique {state : MergeState} {records : List Record}
    (h : state.Firsts records) :
    Sat (state.nextUnique : Run ω Fault _) (fun r => r.1 = records.head? ∧
      r.2.Firsts records.tail ∧ r.2.fuel + (if r.1.isSome then 1 else 0) ≤ state.fuel)
      ExactFault := by
  obtain ⟨pending, hpending, hsorted, rfl⟩ := h
  unfold MergeState.nextUnique
  refine sat_checkCancelled_exact.bind fun _ _ => ?_
  cases hheap : state.heap with
  | nil =>
      refine sat_pure ?_
      obtain rfl := hpending.nil hheap
      exact ⟨by simp, ⟨[], hpending, .nil, by simp⟩, by simp⟩
  | cons entry heap =>
      obtain ⟨first, run⟩ := entry
      obtain ⟨rest, rfl⟩ := hpending.exists_rest hheap
      have hrest := (List.pairwise_cons.mp hsorted).2
      refine (MergeState.sat_pop_refill hpending hheap).bind fun next hnext => ?_
      -- records with the value of the first one are skipped
      have hskip : Sat (loop .diverged (skipTurn first.value) next.fuel next : Run ω Fault _)
          (fun last => last.Pending ∅
            (rest.dropWhile fun record => record.value = first.value)) ExactFault := by
        refine sat_loop (fun state => ∃ pending, state.Pending ∅ pending ∧
            (pending.dropWhile fun record => record.value = first.value) =
              rest.dropWhile fun record => record.value = first.value)
          (fun state => state.fuel - 1) ?_ _ _ ⟨rest, hnext, rfl⟩ ?_
        · rintro state ⟨pending, hpending, hdrop⟩
          dsimp only [skipTurn]
          cases hheap : state.heap with
          | nil =>
              refine sat_pure ?_
              obtain rfl := hpending.nil hheap
              exact hdrop ▸ hpending
          | cons entry heap =>
              obtain ⟨record, run⟩ := entry
              obtain ⟨rest', rfl⟩ := hpending.exists_rest hheap
              refine Sat.ite (fun hne => sat_pure ?_) fun heq =>
                (MergeState.sat_pop_refill hpending hheap).map fun next hnext => ?_
              · rw [List.dropWhile_cons_of_neg (by simpa using hne)] at hdrop
                exact hdrop ▸ hpending
              · rw [List.dropWhile_cons_of_pos (by simpa using heq)] at hdrop
                refine ⟨⟨rest', hnext, hdrop⟩, ?_⟩
                have := hpending.fuel_eq
                have := hnext.fuel_eq
                simp only [List.length_cons] at *
                omega
        · have := hnext.fuel_eq
          omega
      refine hskip.bind fun last hlast => sat_pure ?_
      rw [firsts_cons Record.monotone_value hsorted]
      refine ⟨rfl, ⟨_, hlast, ?_, rfl⟩, ?_⟩
      · exact hrest.sublist (List.dropWhile_suffix _).sublist
      · have hlength := (List.dropWhile_suffix (l := rest)
          fun record => decide (record.value = first.value)).length_le
        have := hpending.fuel_eq
        have := hlast.fuel_eq
        simp only [List.length_cons, Option.isSome_some, ↓reduceIte] at *
        omega

/-! ## One side -/

/-- The side has the least of `records` in hand; `total` counts the ones taken and to come. -/
structure Side.Holds (side : Side) (records : List Record) (total : ℕ) : Prop where
  value_eq : side.value = records.head?
  firsts : side.merge.Firsts records.tail
  distinct_eq : side.distinct + records.tail.length = total

/-- What bounds the turns a side can still take. -/
def Side.measure (side : Side) : ℕ := side.merge.fuel + if side.value.isSome then 1 else 0

theorem Side.sat_advance {side : Side} {records : List Record} {total : ℕ}
    (hfirsts : side.merge.Firsts records) (htotal : side.distinct + records.length = total) :
    Sat (side.advance : Run ω Fault _)
      (fun next => next.Holds records total ∧ next.measure ≤ side.merge.fuel) ExactFault := by
  unfold Side.advance
  refine (MergeState.sat_nextUnique hfirsts).bind fun r hr => sat_pure ?_
  obtain ⟨value, merge⟩ := r
  obtain ⟨rfl, hmerge, hfuel⟩ := hr
  refine ⟨⟨rfl, hmerge, ?_⟩, hfuel⟩
  cases records with
  | nil => simpa using htotal
  | cons record records =>
      simp only [List.length_cons, List.head?_cons, Option.isSome_some, ↓reduceIte,
        List.tail_cons] at *
      omega

/-- Advancing past a value in hand. -/
theorem Side.Holds.sat_advance {side : Side} {record : Record} {records : List Record} {total : ℕ}
    (h : side.Holds (record :: records) total) :
    Sat (side.advance : Run ω Fault _)
      (fun next => next.Holds records total ∧ next.measure < side.measure) ExactFault := by
  refine (Side.sat_advance h.firsts h.distinct_eq).post fun next hnext => ⟨hnext.1, ?_⟩
  have := hnext.2
  rw [Side.measure.eq_def side, h.value_eq]
  simp only [List.head?_cons, Option.isSome_some, ↓reduceIte]
  omega

/-! ## The join -/

/-- What the join has found when `left` and `right` are the values still to be compared. -/
structure AntiJoin.Holds (maxSamples : ℕ) (allLeft allRight left right : List Record)
    (join : AntiJoin) : Prop where
  left_holds : join.left.Holds left allLeft.length
  right_holds : join.right.Holds right allRight.length
  left_sorted : left.Pairwise (·.value < ·.value)
  right_sorted : right.Pairwise (·.value < ·.value)
  missing_eq : ∃ found, absent Record.value allLeft (allRight.map Record.value) =
      found ++ absent Record.value left (right.map Record.value) ∧
    join.missing = found.length ∧ join.samples = (found.take maxSamples).map Record.row

/-- One record more than the sample limit admits is not sampled. -/
theorem take_map_snoc (maxSamples : ℕ) (found : List Record) (record : Record) :
    ((found ++ [record]).take maxSamples).map Record.row =
      if ((found.take maxSamples).map Record.row).length < maxSamples
        then (found.take maxSamples).map Record.row ++ [record.row]
        else (found.take maxSamples).map Record.row := by
  rw [List.length_map, List.length_take]
  split
  · rw [List.take_of_length_le (by simp; omega), List.take_of_length_le (by omega)]
    simp
  · rw [List.take_append_of_le_length (by omega)]

/-- What a turn of the join may do: go on with less to compare, or leave without left values. -/
def AntiJoin.TurnFrom (maxSamples : ℕ) (allLeft allRight left : List Record) (join : AntiJoin) :
    Turn AntiJoin AntiJoin → Prop
  | .again next => (∃ left right, next.Holds maxSamples allLeft allRight left right) ∧
      next.left.measure + next.right.measure < join.left.measure + join.right.measure
  | .leave last => last = join ∧ left = []

/-- The branch for a left value that the right side cannot contain any more. -/
theorem AntiJoin.Holds.sat_missing {maxSamples : ℕ} {allLeft allRight left right : List Record}
    {x : Record} {join : AntiJoin} (h : join.Holds maxSamples allLeft allRight (x :: left) right)
    (habsent : absent Record.value (x :: left) (right.map Record.value) =
      x :: absent Record.value left (right.map Record.value)) :
    Sat (do
      let side ← join.left.advance
      pure (.again { join with
        left := side
        missing := join.missing + 1
        samples := if join.samples.length < maxSamples
          then join.samples ++ [x.row] else join.samples }) : Run ω Fault (Turn AntiJoin AntiJoin))
      (join.TurnFrom maxSamples allLeft allRight (x :: left)) ExactFault := by
  obtain ⟨found, hfound, hmissing, hsamples⟩ := h.missing_eq
  refine h.left_holds.sat_advance.bind fun side hside => sat_pure ⟨⟨left, right, hside.1,
    h.right_holds, (List.pairwise_cons.mp h.left_sorted).2, h.right_sorted, found ++ [x],
    ?_, ?_, ?_⟩, ?_⟩
  · rw [hfound, habsent, List.append_assoc, List.singleton_append]
  · simp [hmissing]
  · rw [take_map_snoc, ← hsamples]
  · have := hside.2
    dsimp only
    omega

theorem AntiJoin.Holds.sat_turn {maxSamples : ℕ} {allLeft allRight left right : List Record}
    {join : AntiJoin} (h : join.Holds maxSamples allLeft allRight left right) :
    Sat (antiJoinTurn maxSamples join : Run ω Fault _)
      (join.TurnFrom maxSamples allLeft allRight left) ExactFault := by
  unfold antiJoinTurn
  rw [h.left_holds.value_eq]
  cases left with
  | nil => exact sat_pure ⟨rfl, rfl⟩
  | cons x left =>
      obtain ⟨hx, hleft⟩ := List.pairwise_cons.mp h.left_sorted
      obtain ⟨found, hfound, hmissing, hsamples⟩ := h.missing_eq
      refine sat_checkCancelled_exact.bind fun _ _ => ?_
      rw [h.right_holds.value_eq]
      cases right with
      | nil => exact h.sat_missing (by simp [absent_nil])
      | cons y right =>
          obtain ⟨hy, hright⟩ := List.pairwise_cons.mp h.right_sorted
          have hright' : (y.value :: right.map Record.value).Pairwise (· < ·) :=
            List.pairwise_map.mpr h.right_sorted
          simp only [List.head?_cons, Option.map_some]
          rcases hcompare : compare x.value y.value with _ | _ | _
          · exact h.sat_missing (absent_of_lt (compare_lt_iff_lt.mp hcompare) hright')
          · have heq : x.value = y.value := compare_eq_iff_eq.mp hcompare
            refine h.left_holds.sat_advance.bind fun side hside => ?_
            refine h.right_holds.sat_advance.bind fun other hother => sat_pure
              ⟨⟨left, right, hside.1, hother.1, hleft, hright, found, ?_, hmissing, hsamples⟩, ?_⟩
            · rw [hfound, List.map_cons, absent_of_eq heq h.left_sorted]
            · have := hside.2
              have := hother.2
              dsimp only
              omega
          · have hgt : y.value < x.value := compare_gt_iff_gt.mp hcompare
            refine h.right_holds.sat_advance.bind fun other hother => sat_pure
              ⟨⟨x :: left, right, h.left_holds, hother.1, h.left_sorted, hright, found, ?_,
                hmissing, hsamples⟩, ?_⟩
            · rw [hfound, List.map_cons, absent_of_gt]
              intro record hrecord
              rcases List.mem_cons.mp hrecord with rfl | hrecord
              · exact hgt
              · exact hgt.trans (hx record hrecord)
            · have := hother.2
              dsimp only
              omega

/-- Counting what is left of the right side. -/
theorem Side.Holds.sat_drain {side : Side} {records : List Record} {total fuel : ℕ}
    (h : side.Holds records total) (hfuel : side.measure < fuel) :
    Sat (loop .diverged drainTurn fuel side : Run ω Fault _) (·.distinct = total) ExactFault := by
  refine sat_loop (fun side => ∃ records, side.Holds records total) Side.measure ?_ _ _
    ⟨records, h⟩ hfuel
  rintro side ⟨records, h⟩
  unfold drainTurn
  rw [h.value_eq]
  cases records with
  | nil => exact sat_pure (by simpa using h.distinct_eq)
  | cons record records =>
      refine sat_checkCancelled_exact.bind fun _ _ => ?_
      exact h.sat_advance.map fun next hnext => ⟨⟨records, hnext.1⟩, hnext.2⟩

variable [Crates]

/-- The common start of `merge` and of both sides of an anti-join. -/
theorem sat_uniqueMerge_new {runs : List RunMeta} {account : ResourceAccount}
    {contents : List (List Record)} {pending : List Record}
    (h : List.Forall₂ RunMeta.Holds runs contents) (hsorted : pending.Pairwise (· ≤ ·))
    (hperm : pending.Perm contents.flatten) :
    Sat (UniqueMerge.new runs account : Run ω Fault _) (fun state => state.Pending ∅ pending)
      ExactFault := by
  refine (sat_verifyAll runs).bind fun _ _ => ?_
  refine (sat_mergeMemoryBytes runs).bind fun _ _ => ?_
  refine (sat_reserve_exact _ _ _).bind fun _ _ => ?_
  exact sat_openMergeCursors h hsorted hperm

/-- The sorted union of the contents of some runs has their least records. -/
theorem sat_uniqueMerge_firsts {runs : List RunMeta} {account : ResourceAccount}
    {contents : List (List Record)} (h : List.Forall₂ RunMeta.Holds runs contents) :
    Sat (UniqueMerge.new runs account : Run ω Fault _)
      (fun state => state.Firsts (firsts Record.value contents.flatten)) ExactFault := by
  have hperm := List.perm_insertionSort (· ≤ ·) contents.flatten
  have hsorted := List.pairwise_insertionSort (· ≤ ·) contents.flatten
  exact (sat_uniqueMerge_new h hsorted hperm).post fun state hstate =>
    ⟨_, hstate, hsorted, firsts_perm hperm⟩

/-- The anti-join counts the distinct values of both sides and finds the least records of the
left values that the right side lacks, in ascending order. -/
theorem sat_antiJoin {left right : List RunMeta} {leftAccount rightAccount : ResourceAccount}
    {maxSamples : ℕ} {leftContents rightContents : List (List Record)}
    (hleft : List.Forall₂ RunMeta.Holds left leftContents)
    (hright : List.Forall₂ RunMeta.Holds right rightContents) :
    Sat (antiJoin left right leftAccount rightAccount maxSamples : Run ω Fault _)
      (fun summary =>
        let missing := absent Record.value (firsts Record.value leftContents.flatten)
          (values Record.value rightContents.flatten)
        summary.leftDistinct = (values Record.value leftContents.flatten).length ∧
        summary.rightDistinct = (values Record.value rightContents.flatten).length ∧
        summary.missing = missing.length ∧
        summary.samples = (missing.take maxSamples).map Record.row) ExactFault := by
  generalize hallLeft : firsts Record.value leftContents.flatten = allLeft
  generalize hallRight : firsts Record.value rightContents.flatten = allRight
  have hlengthLeft : (values Record.value leftContents.flatten).length = allLeft.length := by
    rw [← hallLeft, ← map_key_firsts, List.length_map]
  have hlengthRight : (values Record.value rightContents.flatten).length = allRight.length := by
    rw [← hallRight, ← map_key_firsts, List.length_map]
  have hvalues : values Record.value rightContents.flatten = allRight.map Record.value := by
    rw [← hallRight, map_key_firsts]
  rw [hlengthLeft, hlengthRight, hvalues]
  unfold antiJoin
  refine (sat_uniqueMerge_firsts hleft).bind fun leftMerge hleftMerge => ?_
  refine (sat_uniqueMerge_firsts hright).bind fun rightMerge hrightMerge => ?_
  rw [hallLeft] at hleftMerge
  rw [hallRight] at hrightMerge
  refine (sat_checkedMul_exact _ _ _).bind fun _ _ => ?_
  refine (sat_reserve_exact _ _ _).bind fun _ _ => ?_
  refine (Side.sat_advance hleftMerge (Nat.zero_add _)).bind fun leftSide hleftSide => ?_
  refine (Side.sat_advance hrightMerge (Nat.zero_add _)).bind fun rightSide hrightSide => ?_
  -- every turn takes a record from one of the sides, so the records left bound the turns
  have hmain : Sat (loop .diverged (antiJoinTurn maxSamples)
      (leftMerge.fuel + rightMerge.fuel + 1)
      { left := leftSide, right := rightSide, missing := 0, samples := [] } : Run ω Fault AntiJoin)
      (fun join => (∃ right, join.Holds maxSamples allLeft allRight [] right) ∧
        join.right.measure < leftMerge.fuel + rightMerge.fuel + 1) ExactFault := by
    have hstart : AntiJoin.Holds maxSamples allLeft allRight allLeft allRight
        { left := leftSide, right := rightSide, missing := 0, samples := [] } :=
      ⟨hleftSide.1, hrightSide.1, hallLeft ▸ firsts_pairwise, hallRight ▸ firsts_pairwise,
        [], rfl, rfl, by simp⟩
    have hfuel : leftSide.measure + rightSide.measure < leftMerge.fuel + rightMerge.fuel + 1 := by
      have hleft : leftSide.measure ≤ leftMerge.fuel := hleftSide.2
      have hright : rightSide.measure ≤ rightMerge.fuel := hrightSide.2
      omega
    refine sat_loop (fun join => (∃ left right, join.Holds maxSamples allLeft allRight left right) ∧
        join.left.measure + join.right.measure < leftMerge.fuel + rightMerge.fuel + 1)
      (fun join => join.left.measure + join.right.measure) ?_ _ _
      ⟨⟨allLeft, allRight, hstart⟩, hfuel⟩ hfuel
    rintro join ⟨⟨left, right, hjoin⟩, hbound⟩
    refine hjoin.sat_turn.post fun turn hturn => ?_
    cases turn with
    | again next => exact ⟨⟨hturn.1, hturn.2.trans hbound⟩, hturn.2⟩
    | leave last =>
        obtain ⟨rfl, rfl⟩ := hturn
        exact ⟨⟨right, hjoin⟩, by omega⟩
  refine hmain.bind fun join hjoin => ?_
  obtain ⟨⟨right, hjoin⟩, hfuel⟩ := hjoin
  refine (hjoin.right_holds.sat_drain hfuel).bind fun rightSide hdistinct => sat_pure ?_
  obtain ⟨found, hfound, hmissing, hsamples⟩ := hjoin.missing_eq
  have hall : absent Record.value allLeft (allRight.map Record.value) = found := by
    simpa [absent] using hfound
  refine ⟨by simpa using hjoin.left_holds.distinct_eq, hdistinct, ?_, ?_⟩
  · rw [hall, hmissing]
  · rw [hall, hsamples]

end ProofFrame.Distinct
