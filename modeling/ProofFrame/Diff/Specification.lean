import Mathlib.Data.Finset.Card
import Mathlib.Data.List.Perm.Basic
import ProofFrame.Diff.Comparison
import ProofFrame.Table

/-!
# What a diff reports

The report as a function of the records of the sides: the numbers of keys of one
side only and of both sides with two contents, the least of the displayed keys,
and whether anything was left out.  None of this depends on the order of the
rows or on how they are split into batches.
-/

namespace ProofFrame.Diff

open Lib Lib.Run Lib.Sorted

/-! ## How a diff ends -/

section Outcome

variable {ω : Type} [Host ω] [DiffCrates] {beforeReader afterReader : BatchReader}
  {keys : List String} {options : DiffOptions} {before after : List KeyedEntry}
  {events : List DiffEvent} {report : DiffReport}

end Outcome

/-! ## The specification of the report -/

/-- The canonical keys of the records. -/
def keySet (records : List KeyedEntry) : Finset (List UInt8) := (records.map Prod.fst).toFinset

/-- The content of the row with the key. -/
def contentOf (records : List KeyedEntry) (key : List UInt8) :
    Option (List (Option (List UInt8))) := (SortedMap.find key records).map RowEntry.values

/-- The displayed keys of the records whose canonical keys the other side does not have. -/
def displayedOnly (records others : List KeyedEntry) : List String :=
  (records.filter fun record => record.1 ∉ keySet others).map fun record => record.2.displayKey

/-- What the report of a diff of two sets of records says. -/
structure DiffSpecification (limit : ℕ) (before after : List KeyedEntry) (report : DiffReport) :
    Prop where
  before_rows : report.beforeRows = before.length
  after_rows : report.afterRows = after.length
  added_count : report.addedCount = (keySet after \ keySet before).card
  removed_count : report.removedCount = (keySet before \ keySet after).card
  changed_count : report.changedCount = ((keySet before ∩ keySet after).filter fun key =>
    contentOf before key ≠ contentOf after key).card
  balance : report.removedCount ≤ report.beforeRows ∧
    report.beforeRows - report.removedCount + report.addedCount = report.afterRows
  added_keys : report.addedKeys = (sortedKeys id (displayedOnly after before)).take limit
  removed_keys : report.removedKeys = (sortedKeys id (displayedOnly before after)).take limit
  changed_length : report.changed.length = min limit report.changedCount
  truncated_iff : report.truncated = true ↔ report.addedKeys.length < report.addedCount ∨
    report.removedKeys.length < report.removedCount ∨ report.changed.length < report.changedCount

section Events

variable {before after records others : List KeyedEntry} {columnNames : List String}

end Events

/-- Rows of the two sides with one digest have one content. -/
def DigestsDiffer [Crates] (before after : List KeyedEntry) : Prop :=
  ∀ record ∈ before, ∀ other ∈ after,
    rowHash record.2.values = rowHash other.2.values → record.2.values = other.2.values

instance [Crates] (before after : List KeyedEntry) : Decidable (DigestsDiffer before after) :=
  inferInstanceAs (Decidable (∀ _ ∈ _, ∀ _ ∈ _, _ → _))

section Reports

variable {ω : Type} [Host ω] [DiffCrates] {beforeReader afterReader : BatchReader}
  {keys : List String} {options : DiffOptions} {before after : List KeyedEntry}
  {events : List DiffEvent} {report : DiffReport}

end Reports

end ProofFrame.Diff
