import ProofFrame.Acceptance.Bundle
import ProofFrame.Acceptance.Soundness
import ProofFrame.Acceptance.Verification
import ProofFrame.Arrow
import ProofFrame.Contract.Ast
import ProofFrame.Contract.Bounds
import ProofFrame.Contract.Compile
import ProofFrame.Contract.CompileContract
import ProofFrame.Contract.CompileDataset
import ProofFrame.Contract.Dates
import ProofFrame.Contract.Decimals
import ProofFrame.Contract.Digest
import ProofFrame.Contract.Document
import ProofFrame.Contract.Plan
import ProofFrame.Contract.Readers
import ProofFrame.Contract.Strictness
import ProofFrame.Contract.Timestamps
import ProofFrame.Crates
import ProofFrame.Diff.Accumulator
import ProofFrame.Diff.Agreement
import ProofFrame.Diff.Atomicity
import ProofFrame.Diff.Comparison
import ProofFrame.Diff.Distance
import ProofFrame.Diff.Engine
import ProofFrame.Diff.Identity
import ProofFrame.Diff.Ledger
import ProofFrame.Diff.Meaning
import ProofFrame.Diff.Partition
import ProofFrame.Diff.PartitionCodec
import ProofFrame.Diff.PartitionSpec
import ProofFrame.Diff.Reading
import ProofFrame.Diff.Rearrangement
import ProofFrame.Diff.RoundTrip
import ProofFrame.Diff.Rows
import ProofFrame.Diff.SharedLedgers
import ProofFrame.Diff.Sink
import ProofFrame.Diff.Specification
import ProofFrame.Distinct.AntiJoinSpec
import ProofFrame.Distinct.Exactness
import ProofFrame.Distinct.Growth
import ProofFrame.Distinct.InMemory
import ProofFrame.Distinct.Intersection
import ProofFrame.Distinct.MergeSpec
import ProofFrame.Distinct.Requests
import ProofFrame.Distinct.RoundTrip
import ProofFrame.Distinct.Run
import ProofFrame.Distinct.RunSpec
import ProofFrame.Distinct.State
import ProofFrame.Distinct.StateSpec
import ProofFrame.Distinct.Value
import ProofFrame.Encoding.Cells
import ProofFrame.Encoding.Dataset
import ProofFrame.Encoding.Decoding
import ProofFrame.Encoding.Fingerprint
import ProofFrame.Encoding.Keys
import ProofFrame.Encoding.Schema
import ProofFrame.Encoding.ValueEncoder
import ProofFrame.Error
import ProofFrame.Evidence.Binding
import ProofFrame.Evidence.EvidenceV2
import ProofFrame.Evidence.FindingLimits
import ProofFrame.Evidence.PartitionEvidence
import ProofFrame.Evidence.PartitionManifest
import ProofFrame.Evidence.Report
import ProofFrame.Evidence.TaggedDigest
import ProofFrame.Execution.Accounts
import ProofFrame.Execution.Accumulators
import ProofFrame.Execution.Assertions
import ProofFrame.Execution.Balances
import ProofFrame.Execution.BatchIndependence
import ProofFrame.Execution.Bindings
import ProofFrame.Execution.Budgets
import ProofFrame.Execution.Cells
import ProofFrame.Execution.Clauses
import ProofFrame.Execution.ColumnClauses
import ProofFrame.Execution.ColumnRuns
import ProofFrame.Execution.ColumnScan
import ProofFrame.Execution.Columns
import ProofFrame.Execution.CompiledPlans
import ProofFrame.Execution.Counts
import ProofFrame.Execution.DatasetMeaning
import ProofFrame.Execution.DatasetState
import ProofFrame.Execution.DistinctRules
import ProofFrame.Execution.EmptyBatch
import ProofFrame.Execution.Engine
import ProofFrame.Execution.Exclusion
import ProofFrame.Execution.Exclusive
import ProofFrame.Execution.FloatSteps
import ProofFrame.Execution.Gaps
import ProofFrame.Execution.IntegerSteps
import ProofFrame.Execution.Integrity
import ProofFrame.Execution.Kernels
import ProofFrame.Execution.KeyInjectivity
import ProofFrame.Execution.KeyTuples
import ProofFrame.Execution.MapBudget
import ProofFrame.Execution.Reservations
import ProofFrame.Execution.Meaning
import ProofFrame.Execution.Monotone
import ProofFrame.Execution.NoSpill
import ProofFrame.Execution.Numbers
import ProofFrame.Execution.Ordering
import ProofFrame.Execution.Partition
import ProofFrame.Execution.PartitionAgreement
import ProofFrame.Execution.PartitionProgress
import ProofFrame.Execution.PartitionScan
import ProofFrame.Execution.Predicates
import ProofFrame.Execution.Preparation
import ProofFrame.Execution.Progress
import ProofFrame.Execution.Ratio
import ProofFrame.Execution.RatioLiterals
import ProofFrame.Execution.References
import ProofFrame.Execution.ReferencesMeaning
import ProofFrame.Execution.Resource
import ProofFrame.Execution.RowClauses
import ProofFrame.Execution.RowKernels
import ProofFrame.Execution.RowNumbers
import ProofFrame.Execution.RuleRuns
import ProofFrame.Execution.Scan
import ProofFrame.Execution.SplitRules
import ProofFrame.Execution.SplitScan
import ProofFrame.Execution.SplitStates
import ProofFrame.Execution.Splits
import ProofFrame.Execution.Total
import ProofFrame.Execution.TypeCheck
import ProofFrame.Execution.Undefined
import ProofFrame.Execution.WellTyped
import ProofFrame.Json
import ProofFrame.JsonReader
import ProofFrame.JsonText
import ProofFrame.Leakage
import ProofFrame.Lib.Adjacent
import ProofFrame.Lib.Ascii
import ProofFrame.Lib.Base64
import ProofFrame.Lib.Bytes
import ProofFrame.Lib.Calendar
import ProofFrame.Lib.Decoder
import ProofFrame.Lib.Digits
import ProofFrame.Lib.Ieee754.Arithmetic
import ProofFrame.Lib.Ieee754.Decimal
import ProofFrame.Lib.Ieee754.Double
import ProofFrame.Lib.Ieee754.Magnitude
import ProofFrame.Lib.Ieee754.Order
import ProofFrame.Lib.Ieee754.Parse
import ProofFrame.Lib.Ieee754.Special
import ProofFrame.Lib.Ieee754.Summation
import ProofFrame.Lib.Ieee754.Widening
import ProofFrame.Lib.PartialOrd
import ProofFrame.Lib.Parts
import ProofFrame.Lib.Refinement
import ProofFrame.Lib.Run
import ProofFrame.Lib.Sorted.Bounded
import ProofFrame.Lib.Sorted.Groups
import ProofFrame.Lib.Sorted.Merge
import ProofFrame.Lib.SortedMap
import ProofFrame.Lib.Steps
import ProofFrame.Lib.Trace
import ProofFrame.Lib.WorkQueue
import ProofFrame.Pii
import ProofFrame.Pii.Checksums
import ProofFrame.Pii.Classification
import ProofFrame.Pii.Detector
import ProofFrame.Pii.Report
import ProofFrame.Pii.Scan
import ProofFrame.Profile.Agreement
import ProofFrame.Profile.Budgets
import ProofFrame.Profile.Fingerprint
import ProofFrame.Profile.FullValidation
import ProofFrame.Profile.Inspection
import ProofFrame.Profile.Meaning
import ProofFrame.Profile.RuleMeaning
import ProofFrame.Profile.RuleReport
import ProofFrame.Profile.RuleVerdict
import ProofFrame.Profile.Suggestion
import ProofFrame.Profile.Uncounted
import ProofFrame.Python.Value
import ProofFrame.Receipt.Envelope
import ProofFrame.Receipt.Legacy
import ProofFrame.Receipt.Trust
import ProofFrame.Receipt.Verification
import ProofFrame.Review
import ProofFrame.Review.Escaping
import ProofFrame.Review.Page
import ProofFrame.Review.RoundTrip
import ProofFrame.Review.Skeleton
import ProofFrame.Serde
import ProofFrame.Serde.Grammar
import ProofFrame.Serde.Reader
import ProofFrame.Table
import ProofFrame.Validation
