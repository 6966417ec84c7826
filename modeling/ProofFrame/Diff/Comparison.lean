import ProofFrame.Diff.Reading

/-!
# Comparing the sides

What a comparison leaves: an accumulator that has taken the events of
`emittedEvents`.  The step lemmas are about one record of either side; the run
lemmas add the events of a side, of a partition and of all partitions.

A comparison that ends in an error was interrupted, or refuses the sides: if
they have records and one signature, a key occurs twice on one of them.
-/

namespace ProofFrame.Diff

open Lib Lib.Run

/-- The events of a comparison in the order in which it emits them: those of the indexes of the
sides, or those of each partition, where only the before side is indexed. -/
def emittedEvents [Crates] (inMemory : Bool) (columnNames : List String)
    (before after : List KeyedEntry) : List DiffEvent :=
  if inMemory then diffEvents columnNames (indexed before) (indexed after)
  else (List.range partitions).flatMap fun partition =>
    diffEvents columnNames (indexed (partitionOf partition before)) (partitionOf partition after)

variable {ω : Type} [Host ω] [DiffCrates] {setup : DiffSetup} {events : List DiffEvent}
  {columnNames : List String} {before after : List KeyedEntry}

/-! ## One record -/

/-- The setup of a comparison of sides with the records. -/
def diffSetup (keys : List String) (options : DiffOptions) (before after : List KeyedEntry) :
    DiffSetup where
  keys := keys
  beforeRows := before.length
  afterRows := after.length
  sampleLimit := min options.maxSamples options.resources.maxSamples
  output := options.output

/-- The names of the columns of a side. -/
def columnNamesOf (reader : BatchReader) : List String :=
  (schemaSignature reader.schema).map ColumnSchema.name

/-- What a comparison of the sides leaves. -/
structure Compared (beforeReader afterReader : BatchReader) (keys : List String)
    (options : DiffOptions) (inMemory : Bool) (before after : List KeyedEntry)
    (result : Accumulator × DiffMetrics) : Prop where
  reads_before : ReadsRows beforeReader keys before
  reads_after : ReadsRows afterReader keys after
  signature_eq : schemaSignature beforeReader.schema = schemaSignature afterReader.schema
  distinct_before : KeysDistinct before
  distinct_after : KeysDistinct after
  emitted : result.1.Emitted (diffSetup keys options before after)
    (emittedEvents inMemory (columnNamesOf beforeReader) before after)
  records_eq : result.2.outputRecords = result.1.outputRecords

section Faults

variable {beforeReader afterReader : BatchReader} {keys : List String} {fault : Fault}

end Faults

variable {beforeReader afterReader : BatchReader} {keys : List String} {options : DiffOptions}

/-! ## In memory -/

/-- The records of a side have as many values as its schema has fields. -/
theorem ReadsRows.length_values {reader : BatchReader} {records : List KeyedEntry}
    (h : ReadsRows reader keys records) :
    ∀ record ∈ records, record.2.values.length = reader.schema.fields.length := by
  obtain ⟨indexes, -, hitems⟩ := h
  exact fun record hrecord => (hitems.recordOf record hrecord).length_values

/-- What a writer took, the reader takes back. -/
theorem Partitioned.fits {reader : BatchReader} {maxRecordBytes : ℕ} {rows : PartitionedRows}
    {records : List KeyedEntry} (h : Partitioned reader keys maxRecordBytes rows records)
    {partition : ℕ} : ∀ record ∈ partitionOf partition records,
      Fits ⟨maxRecordBytes, reader.schema.fields.length⟩ record := by
  intro record hrecord
  have hmem := List.mem_of_mem_filter hrecord
  exact ⟨h.writable record hmem, (h.reads.length_values record hmem).le⟩

end ProofFrame.Diff
