import ProofFrame.Distinct.StateSpec

/-!
# The intersection of two exact states

The merge of the anti-join read for the branch it throws away: the two sides
advance together where their values meet, and the values they meet at are the
intersection, in ascending order.
-/

namespace ProofFrame.Distinct

open Lib Lib.Run Lib.Sorted

variable {ω : Type} [Host ω]

structure IntersectionSummary where
  leftDistinct : ℕ
  rightDistinct : ℕ
  overlap : ℕ
  samples : List Digest
  deriving DecidableEq

/-- The two sides, and what they met at so far. -/
structure Intersection where
  left : Side
  right : Side
  overlap : ℕ
  samples : List Digest

/-- The digest a sampled value is. -/
def sampleDigest : OwnedValue → Except Fault Digest
  | .bytes bytes =>
      if h : bytes.length = 32 then .ok ⟨bytes, h⟩
      else .error (corrupt "Leakage identity digest is not 32 bytes")
  | _ => .error (corrupt "Leakage intersection requires byte identities")

/-- The samples with one more value, while there is room. -/
def sampleValue (maxSamples : ℕ) (samples : List Digest) (value : OwnedValue) :
    Except Fault (List Digest) :=
  if samples.length < maxSamples then do
    let digest ← sampleDigest value
    .ok (samples ++ [digest])
  else .ok samples

/-- One turn of the main loop of `intersect`. -/
def intersectTurn (maxSamples : ℕ) (join : Intersection) :
    Run ω Fault (Turn Intersection Intersection) := do
  match join.left.value, join.right.value with
  | some left, some right =>
      checkCancelled
      match compare left.value right.value with
      | .lt => do
          let left ← join.left.advance
          pure (.again { join with left })
      | .gt => do
          let right ← join.right.advance
          pure (.again { join with right })
      | .eq => do
          let samples ← lift (sampleValue maxSamples join.samples left.value)
          let left ← join.left.advance
          let right ← join.right.advance
          pure (.again { left, right, overlap := join.overlap + 1, samples })
  | _, _ => pure (.leave join)

/-- One turn of the loops that count what is left of a side. -/
def countTurn (side : Side) : Run ω Fault (Turn Side Side) := do
  match side.value with
  | none => pure (.leave side)
  | some _ => .again <$> side.advance

section Operations

variable [Crates]

/-- `intersect`. -/
def intersect (left right : List RunMeta) (leftAccount rightAccount : ResourceAccount)
    (maxSamples : ℕ) : Run ω Fault IntersectionSummary := do
  let sampleBytes ← checkedMul "Leakage sample size overflowed" maxSamples 32
  reserve leftAccount .memory sampleBytes
  let left ← UniqueMerge.new left leftAccount
  let right ← UniqueMerge.new right rightAccount
  let fuel := left.fuel + right.fuel + 1
  let left ← Side.advance { merge := left, value := none, distinct := 0 }
  let right ← Side.advance { merge := right, value := none, distinct := 0 }
  let join ← loop .diverged (intersectTurn maxSamples) fuel
    { left, right, overlap := 0, samples := [] }
  let left ← loop .diverged countTurn fuel join.left
  let right ← loop .diverged countTurn fuel join.right
  pure { leftDistinct := left.distinct, rightDistinct := right.distinct
         overlap := join.overlap, samples := join.samples }

/-- `intersect_exact_states`. -/
def intersectExactStates (left right : ExactState) (maxSamples : ℕ) :
    Run ω Fault IntersectionSummary := do
  let left ← left.seal
  let right ← right.seal
  intersect left.runs right.runs left.account right.account maxSamples

end Operations

/-! ## What the loop has found -/

/-- A digest as a value of the state. -/
def digestValue (digest : Digest) : OwnedValue := .bytes digest.val

theorem digestValue_injective : Function.Injective digestValue := by
  intro digest digest' h
  exact Subtype.ext (OwnedValue.bytes.inj h)

/-- What was met when `left` and `right` are the values still to be compared. -/
structure Intersection.Holds (maxSamples : ℕ) (allLeft allRight left right : List Record)
    (join : Intersection) : Prop where
  left_holds : join.left.Holds left allLeft.length
  right_holds : join.right.Holds right allRight.length
  left_sorted : left.Pairwise (·.value < ·.value)
  right_sorted : right.Pairwise (·.value < ·.value)
  digests : ∀ record ∈ left, ∃ digest, record.value = digestValue digest
  overlap_eq : ∃ found : List Digest,
    shared (allLeft.map Record.value) (allRight.map Record.value) =
      found.map digestValue ++ shared (left.map Record.value) (right.map Record.value) ∧
    join.overlap = found.length ∧ join.samples = found.take maxSamples

omit [Host ω] in
/-- One value more than the sample limit admits is not sampled. -/
theorem sat_sampleValue (maxSamples : ℕ) (found : List Digest) (digest : Digest) :
    Sat (lift (sampleValue maxSamples (found.take maxSamples) (digestValue digest)) :
        Run ω Fault _)
      (· = (found ++ [digest]).take maxSamples) ExactFault := by
  have hdigest : sampleDigest (digestValue digest) = .ok digest := dif_pos digest.property
  have heq : sampleValue maxSamples (found.take maxSamples) (digestValue digest) =
      .ok ((found ++ [digest]).take maxSamples) := by
    unfold sampleValue
    rw [List.length_take, hdigest]
    split
    · have hall : (found ++ [digest]).take maxSamples = found ++ [digest] :=
        List.take_of_length_le (by rw [List.length_append, List.length_singleton]; omega)
      rw [hall, List.take_of_length_le (by omega)]
      rfl
    · rw [List.take_append_of_le_length (by omega)]
  rw [heq]
  exact sat_pure rfl

/-- What a turn may do: go on with less to compare, or leave with one side exhausted. -/
def Intersection.TurnFrom (maxSamples : ℕ) (allLeft allRight left right : List Record)
    (join : Intersection) : Turn Intersection Intersection → Prop
  | .again next => (∃ left right, next.Holds maxSamples allLeft allRight left right) ∧
      next.left.measure + next.right.measure < join.left.measure + join.right.measure ∧
      next.left.measure ≤ join.left.measure ∧ next.right.measure ≤ join.right.measure
  | .leave last => last = join ∧ (left = [] ∨ right = [])

theorem Intersection.Holds.sat_turn {maxSamples : ℕ} {allLeft allRight left right : List Record}
    {join : Intersection} (h : join.Holds maxSamples allLeft allRight left right) :
    Sat (intersectTurn maxSamples join : Run ω Fault _)
      (join.TurnFrom maxSamples allLeft allRight left right) ExactFault := by
  unfold intersectTurn
  rw [h.left_holds.value_eq, h.right_holds.value_eq]
  cases left with
  | nil => exact sat_pure ⟨rfl, .inl rfl⟩
  | cons x left =>
      cases right with
      | nil => exact sat_pure ⟨rfl, .inr rfl⟩
      | cons y right =>
          obtain ⟨hx, hleft⟩ := List.pairwise_cons.mp h.left_sorted
          obtain ⟨hy, hright⟩ := List.pairwise_cons.mp h.right_sorted
          obtain ⟨found, hfound, hoverlap, hsamples⟩ := h.overlap_eq
          have hdigests : ∀ record ∈ left, ∃ digest, record.value = digestValue digest :=
            fun record hrecord => h.digests record (List.mem_cons_of_mem _ hrecord)
          refine sat_checkCancelled_exact.bind fun _ _ => ?_
          -- the lesser side is dropped; equal values are shared and both sides go on
          rcases hcompare : compare x.value y.value with _ | _ | _
          · refine h.left_holds.sat_advance.bind fun side hside => sat_pure ⟨⟨left, y :: right,
              hside.1, h.right_holds, hleft, h.right_sorted, hdigests, found, ?_, hoverlap,
              hsamples⟩, ?_⟩
            · have hlt : x.value < y.value := compare_lt_iff_lt.mp hcompare
              have hsorted : ((y :: right).map Record.value).Pairwise (· < ·) :=
                List.pairwise_map.mpr h.right_sorted
              rw [hfound, List.map_cons, List.map_cons, shared_of_lt hlt hsorted]
            · have := hside.2
              dsimp only
              omega
          · obtain ⟨digest, hdigest⟩ := h.digests x (List.mem_cons_self ..)
            have heq : y.value = x.value := (compare_eq_iff_eq.mp hcompare).symm
            rw [hdigest, hsamples]
            refine (sat_sampleValue maxSamples found digest).bind fun samples hnext => ?_
            refine h.left_holds.sat_advance.bind fun side hside => ?_
            refine h.right_holds.sat_advance.bind fun other hother => sat_pure ⟨⟨left, right,
              hside.1, hother.1, hleft, hright, hdigests, found ++ [digest], ?_, ?_, hnext⟩, ?_⟩
            · have hsorted : ((x :: left).map Record.value).Pairwise (· < ·) :=
                List.pairwise_map.mpr h.left_sorted
              rw [hfound, List.map_cons, List.map_cons, heq, shared_of_eq hsorted, hdigest]
              simp
            · simp [hoverlap]
            · have := hside.2
              have := hother.2
              dsimp only
              omega
          · refine h.right_holds.sat_advance.bind fun other hother => sat_pure ⟨⟨x :: left, right,
              h.left_holds, hother.1, h.left_sorted, hright, h.digests, found, ?_, hoverlap,
              hsamples⟩, ?_⟩
            · have hgt : y.value < x.value := compare_gt_iff_gt.mp hcompare
              have habove : ∀ key ∈ (x :: left).map Record.value, y.value < key := by
                intro key hkey
                obtain ⟨record, hrecord, rfl⟩ := List.mem_map.mp hkey
                rcases List.mem_cons.mp hrecord with rfl | hrecord
                · exact hgt
                · exact hgt.trans (hx record hrecord)
              rw [hfound, List.map_cons (l := right), shared_of_gt habove]
            · have := hother.2
              dsimp only
              omega

/-- Counting what is left of a side. -/
theorem Side.Holds.sat_count {side : Side} {records : List Record} {total fuel : ℕ}
    (h : side.Holds records total) (hfuel : side.measure < fuel) :
    Sat (loop .diverged countTurn fuel side : Run ω Fault _) (·.distinct = total) ExactFault := by
  refine sat_loop (fun side => ∃ records, side.Holds records total) Side.measure ?_ _ _
    ⟨records, h⟩ hfuel
  rintro side ⟨records, h⟩
  unfold countTurn
  rw [h.value_eq]
  cases records with
  | nil => exact sat_pure (by simpa using h.distinct_eq)
  | cons record records => exact h.sat_advance.map fun next hnext => ⟨⟨records, hnext.1⟩, hnext.2⟩

/-- The main loop, from both sides with their first value in hand. -/
theorem sat_intersectLoop {maxSamples fuel : ℕ} {allLeft allRight : List Record}
    {join : Intersection} (h : join.Holds maxSamples allLeft allRight allLeft allRight)
    (hfuel : join.left.measure + join.right.measure < fuel) :
    Sat (loop .diverged (intersectTurn maxSamples) fuel join : Run ω Fault Intersection)
      (fun last => (∃ left right, last.Holds maxSamples allLeft allRight left right ∧
        (left = [] ∨ right = [])) ∧ last.left.measure < fuel ∧ last.right.measure < fuel)
      ExactFault := by
  refine sat_loop (fun join => (∃ left right, join.Holds maxSamples allLeft allRight left right) ∧
      join.left.measure + join.right.measure < fuel)
    (fun join => join.left.measure + join.right.measure) ?_ _ _ ⟨⟨_, _, h⟩, hfuel⟩ hfuel
  rintro join ⟨⟨left, right, hjoin⟩, hbound⟩
  refine hjoin.sat_turn.post fun turn hturn => ?_
  cases turn with
  | again next => exact ⟨⟨hturn.1, hturn.2.1.trans hbound⟩, hturn.2.1⟩
  | leave last =>
      obtain ⟨rfl, hempty⟩ := hturn
      exact ⟨⟨left, right, hjoin, hempty⟩, by omega, by omega⟩

/-! ## The intersection -/

/-- What the intersection of two sets of digests reports. -/
structure IntersectionSummary.Measures (maxSamples : ℕ) (left right : Finset Digest)
    (summary : IntersectionSummary) : Prop where
  left_eq : summary.leftDistinct = left.card
  right_eq : summary.rightDistinct = right.card
  overlap_eq : summary.overlap = (left ∩ right).card
  /-- The samples are the smallest digests of both sets, in the order of their bytes. -/
  samples_eq : summary.samples.map digestValue =
    (((left ∩ right).image digestValue).sort (· ≤ ·)).take maxSamples

variable [Crates]

/-- The records of some digests, each of the row it came from. -/
def HoldDigests (records : List Record) (digests : List Digest) : Prop :=
  records.map Record.value = digests.map digestValue

omit [Host ω] [Crates] in
theorem HoldDigests.values_eq {records : List Record} {digests : List Digest}
    (h : HoldDigests records digests) :
    values Record.value records = (digests.toFinset.image digestValue).sort (· ≤ ·) := by
  have heq : (digests.map digestValue).toFinset = digests.toFinset.image digestValue := by
    ext value
    simp
  rw [values, h, heq]

theorem sat_intersect {left right : List RunMeta} {leftAccount rightAccount : ResourceAccount}
    {leftContents rightContents : List (List Record)} {leftDigests rightDigests : List Digest}
    (maxSamples : ℕ) (hleft : List.Forall₂ RunMeta.Holds left leftContents)
    (hright : List.Forall₂ RunMeta.Holds right rightContents)
    (hleftValues : values Record.value leftContents.flatten =
      (leftDigests.toFinset.image digestValue).sort (· ≤ ·))
    (hrightValues : values Record.value rightContents.flatten =
      (rightDigests.toFinset.image digestValue).sort (· ≤ ·)) :
    Sat (intersect left right leftAccount rightAccount maxSamples : Run ω Fault _)
      (·.Measures maxSamples leftDigests.toFinset rightDigests.toFinset) ExactFault := by
  rw [← map_key_firsts] at hleftValues hrightValues
  generalize hallLeft : firsts Record.value leftContents.flatten = allLeft at hleftValues
  generalize hallRight : firsts Record.value rightContents.flatten = allRight at hrightValues
  have hshared : shared (allLeft.map Record.value) (allRight.map Record.value) =
      ((leftDigests.toFinset ∩ rightDigests.toFinset).image digestValue).sort (· ≤ ·) := by
    rw [hleftValues, hrightValues, shared_sort, Finset.image_inter _ _ digestValue_injective]
  have hdigests : ∀ record ∈ allLeft, ∃ digest, record.value = digestValue digest := by
    intro record hrecord
    have hmem : record.value ∈ allLeft.map Record.value := List.mem_map_of_mem hrecord
    rw [hleftValues, Finset.mem_sort, Finset.mem_image] at hmem
    obtain ⟨digest, -, hdigest⟩ := hmem
    exact ⟨digest, hdigest.symm⟩
  have hlength : ∀ {records : List Record} {digests : List Digest}, records.map Record.value =
      (digests.toFinset.image digestValue).sort (· ≤ ·) → records.length = digests.toFinset.card := by
    intro records digests h
    rw [← List.length_map (f := Record.value), h, Finset.length_sort,
      Finset.card_image_of_injective _ digestValue_injective]
  unfold intersect
  refine (sat_checkedMul_exact _ _ _).bind fun _ _ => ?_
  refine (sat_reserve_exact _ _ _).bind fun _ _ => ?_
  refine (sat_uniqueMerge_firsts hleft).bind fun leftMerge hleftMerge => ?_
  refine (sat_uniqueMerge_firsts hright).bind fun rightMerge hrightMerge => ?_
  rw [hallLeft] at hleftMerge
  rw [hallRight] at hrightMerge
  refine (Side.sat_advance hleftMerge (Nat.zero_add _)).bind fun leftSide hleftSide => ?_
  refine (Side.sat_advance hrightMerge (Nat.zero_add _)).bind fun rightSide hrightSide => ?_
  have hstart : Intersection.Holds maxSamples allLeft allRight allLeft allRight
      { left := leftSide, right := rightSide, overlap := 0, samples := [] } :=
    ⟨hleftSide.1, hrightSide.1, hallLeft ▸ firsts_pairwise, hallRight ▸ firsts_pairwise, hdigests,
      [], rfl, rfl, by simp⟩
  have hfuel : leftSide.measure + rightSide.measure < leftMerge.fuel + rightMerge.fuel + 1 := by
    have hleft : leftSide.measure ≤ leftMerge.fuel := hleftSide.2
    have hright : rightSide.measure ≤ rightMerge.fuel := hrightSide.2
    omega
  refine (sat_intersectLoop hstart hfuel).bind fun join hjoin => ?_
  obtain ⟨⟨left, right, hjoin, hempty⟩, hleftFuel, hrightFuel⟩ := hjoin
  refine (hjoin.left_holds.sat_count hleftFuel).bind fun leftSide hleftDistinct => ?_
  refine (hjoin.right_holds.sat_count hrightFuel).bind fun rightSide hrightDistinct => sat_pure ?_
  obtain ⟨found, hfound, hoverlap, hsamples⟩ := hjoin.overlap_eq
  -- nothing is shared with a side that is exhausted
  have hrest : shared (left.map Record.value) (right.map Record.value) = [] := by
    rcases hempty with rfl | rfl
    · rfl
    · exact shared_nil
  rw [hrest, List.append_nil, hshared] at hfound
  refine ⟨hleftDistinct.trans (hlength hleftValues), hrightDistinct.trans (hlength hrightValues),
    ?_, ?_⟩
  · rw [← Finset.card_image_of_injective _ digestValue_injective, ← Finset.length_sort (· ≤ ·),
      hfound, List.length_map]
    exact hoverlap
  · rw [hfound, ← List.map_take]
    exact congrArg _ hsamples

theorem sat_intersectExactStates {left right : ExactState} {leftRecords rightRecords : List Record}
    {leftDigests rightDigests : List Digest} (maxSamples : ℕ) (hleft : left.Holds leftRecords)
    (hright : right.Holds rightRecords) (hleftDigests : HoldDigests leftRecords leftDigests)
    (hrightDigests : HoldDigests rightRecords rightDigests) :
    Sat (intersectExactStates left right maxSamples : Run ω Fault _)
      (·.Measures maxSamples leftDigests.toFinset rightDigests.toFinset) ExactFault := by
  unfold intersectExactStates
  refine (ExactState.sat_seal hleft).bind fun sealedLeft hsealedLeft => ?_
  obtain ⟨-, leftContents, hleftRuns, hleftPerm⟩ := hsealedLeft
  refine (ExactState.sat_seal hright).bind fun sealedRight hsealedRight => ?_
  obtain ⟨-, rightContents, hrightRuns, hrightPerm⟩ := hsealedRight
  exact sat_intersect maxSamples hleftRuns hrightRuns
    ((values_perm hleftPerm).trans hleftDigests.values_eq)
    ((values_perm hrightPerm).trans hrightDigests.values_eq)

end ProofFrame.Distinct
