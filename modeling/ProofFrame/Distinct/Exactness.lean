import ProofFrame.Distinct.StateSpec

/-!
# The counts do not depend on the path

Two runs over the same records may differ in their budgets, their directories,
their row-count hints and in everything their surroundings do.  If both end in a
summary, the two summaries count the same.
-/

namespace ProofFrame.Distinct

open Lib Lib.Run

theorem countExactly_path_independent {ω ω' : Type} [Host ω] [Host ω'] [Crates] (kind : ValueKind)
    {account account' : ResourceAccount} (directory directory' : Option String)
    (rowCountHint rowCountHint' : Option ℕ) (records : List Record) {world next : ω}
    {world' next' : ω'} {summary summary' : ExactSummary}
    (hsamples : account.limits.maxSamples = account'.limits.maxSamples)
    (hrun : countExactly kind account directory rowCountHint records world = .ok (summary, next))
    (hrun' : countExactly kind account' directory' rowCountHint' records world' =
      .ok (summary', next')) :
    summary.Counts account.limits.maxSamples records ∧
      summary.distinctCount = summary'.distinctCount ∧
      summary.duplicateCount = summary'.duplicateCount ∧
      summary.duplicateSamples = summary'.duplicateSamples := by
  have hcounts := (sat_countExactly kind account directory rowCountHint records).of_ok hrun
  have hcounts' := (sat_countExactly kind account' directory' rowCountHint' records).of_ok hrun'
  have hdistinct : summary.distinctCount = summary'.distinctCount :=
    hcounts.distinct_eq.trans hcounts'.distinct_eq.symm
  refine ⟨hcounts, hdistinct, ?_, ?_⟩
  · rw [hcounts.duplicate_eq, hcounts'.duplicate_eq, hdistinct]
  · rw [hcounts.samples_eq, hcounts'.samples_eq, hsamples]

/-- The digests of the two runs that three values make in segments of two. -/
@[reducible] def twoRunDigests : Crates where
  blake3 bytes :=
    if bytes = [5, 0, 0, 0, 0, 0, 0, 0, 0, 0, 0, 0, 0, 0, 0, 0, 5, 0, 0, 0, 0, 0, 0, 0, 1, 0, 0, 0, 0, 0, 0, 0] then
      ⟨[154, 128, 58, 127, 164, 55, 231, 75, 222, 253, 168, 220, 128, 226, 244, 65, 72, 184, 248, 208, 72, 18, 209, 206, 175, 86, 12, 237, 246, 199, 192, 19], rfl⟩
    else
      ⟨[60, 102, 178, 198, 124, 121, 199, 190, 193, 78, 210, 22, 46, 205, 15, 79, 82, 68, 125, 19, 16, 114, 195, 75, 3, 121, 36, 116, 220, 167, 229, 127], rfl⟩
  displayType _ := ""
  sizeOfRunCursor := 0
  sizeOfMergeEntry := 0
  regexError _ := none
  regexMatch _ _ := true
  parseRfc3339 _ := none
  parseDate _ := none
  canonicalJson _ := .ok []

def threeRecords : List Record := [⟨.u64 5, 0⟩, ⟨.u64 5, 1⟩, ⟨.u64 3, 2⟩]

def exampleAccount : ResourceAccount := .root ⟨1000000, 1000000, 100, 100⟩

/-- What both runs report of the three records, with the metrics of either. -/
def threeRecordSummary (metrics : ExactMetrics) : ExactSummary :=
  { distinctCount := 2, duplicateCount := 1, duplicateSamples := [⟨0, 1⟩], metrics }

theorem threeRecords_inMemory :
    letI := twoRunDigests
    countExactly .u64 exampleAccount none none threeRecords Granting.granting =
      .ok (threeRecordSummary ⟨0, 0, 0, 0, 0, 0⟩, .granting) := by
  rfl

theorem threeRecords_spilled :
    letI := twoRunDigests
    countExactly .u64 exampleAccount (some "/tmp") (some 2) threeRecords Granting.granting =
      .ok (threeRecordSummary ⟨2, 168, 0, 2, 0, 0⟩, .granting) := by
  rfl

/-- In memory, and spilled as two runs of 92 and 76 bytes. -/
theorem countExactly_path_independent_three_records :
    (threeRecordSummary ⟨0, 0, 0, 0, 0, 0⟩).Counts 100 threeRecords ∧
      (threeRecordSummary ⟨0, 0, 0, 0, 0, 0⟩).duplicateSamples =
        (threeRecordSummary ⟨2, 168, 0, 2, 0, 0⟩).duplicateSamples := by
  let := twoRunDigests
  obtain ⟨hcounts, -, -, hsamples⟩ := countExactly_path_independent .u64 none (some "/tmp") none
    (some 2) threeRecords rfl threeRecords_inMemory threeRecords_spilled
  exact ⟨hcounts, hsamples⟩

end ProofFrame.Distinct
