import ProofFrame.Diff.Meaning
import ProofFrame.Execution.Preparation

/-!
# Reading the sides of a diff

`ReadsRows` says which records a side consists of.  Both paths read a side
record by record and differ in what they do with one, so there is one run lemma
for the reading, and one step lemma for each path.

A side that cannot be read has no records.  `Refuses` is what an error of the
reading says: where the side does have records, two of them have one key.
-/

namespace ProofFrame.Diff

open Lib Lib.Run

/-- The error names a key that occurs twice. -/
def IsDuplicate (fault : Fault) : Prop := ∃ key, fault = .error (.duplicateKey key)

variable {ω : Type} [Host ω] [DiffCrates]

/-- A record of a batch of the schema. -/
def RecordOf (schema : Schema) (indexes : List ℕ) (record : KeyedEntry) : Prop :=
  ∃ batch row, batch.schema = schema ∧ readRow indexes batch row = .ok record

/-- An item of a side is a batch of the schema with the records. -/
def ReadsItem (schema : Schema) (indexes : List ℕ) (item : Except String RecordBatch)
    (records : List KeyedEntry) : Prop :=
  ∃ batch, item = .ok batch ∧ batch.schema = schema ∧
    (List.range batch.rows).mapM (readRow indexes batch) = .ok records

/-- The items of a side have the records. -/
def ReadsItems (schema : Schema) (indexes : List ℕ) (items : List (Except String RecordBatch))
    (records : List KeyedEntry) : Prop :=
  ∃ parts, List.Forall₂ (ReadsItem schema indexes) items parts ∧ records = parts.flatten

/-- A side has the records. -/
def ReadsRows (reader : BatchReader) (keys : List String) (records : List KeyedEntry) : Prop :=
  ∃ indexes, keyIndexes keys reader.schema = .ok indexes ∧
    ReadsItems reader.schema indexes reader.items records

section Reads

variable {schema : Schema} {indexes : List ℕ} {item : Except String RecordBatch}
  {items : List (Except String RecordBatch)} {records records' : List KeyedEntry}

theorem ReadsItem.unique (h : ReadsItem schema indexes item records)
    (h' : ReadsItem schema indexes item records') : records = records' := by
  obtain ⟨batch, rfl, -, hread⟩ := h
  obtain ⟨batch', hbatch, -, hread'⟩ := h'
  cases hbatch
  exact Except.ok.inj (hread.symm.trans hread')

theorem ReadsItems.nil : ReadsItems schema indexes [] [] := ⟨[], .nil, rfl⟩

theorem readsItems_cons : ReadsItems schema indexes (item :: items) records ↔
    ∃ head tail, ReadsItem schema indexes item head ∧ ReadsItems schema indexes items tail ∧
      records = head ++ tail := by
  constructor
  · rintro ⟨parts, hparts, rfl⟩
    cases hparts with
    | cons hhead htail => exact ⟨_, _, hhead, ⟨_, htail, rfl⟩, List.flatten_cons⟩
  · rintro ⟨head, tail, hhead, ⟨parts, hparts, rfl⟩, rfl⟩
    exact ⟨head :: parts, .cons hhead hparts, List.flatten_cons.symm⟩

theorem ReadsItems.unique (h : ReadsItems schema indexes items records)
    (h' : ReadsItems schema indexes items records') : records = records' := by
  induction items generalizing records records' with
  | nil =>
      obtain ⟨_, hparts, rfl⟩ := h
      obtain ⟨_, hparts', rfl⟩ := h'
      cases hparts
      cases hparts'
      rfl
  | cons item items ih =>
      obtain ⟨head, tail, hhead, htail, rfl⟩ := readsItems_cons.mp h
      obtain ⟨head', tail', hhead', htail', rfl⟩ := readsItems_cons.mp h'
      rw [hhead.unique hhead', ih htail htail']

/-- Every record read is one of a batch of the schema. -/
theorem ReadsItems.recordOf (h : ReadsItems schema indexes items records) :
    ∀ record ∈ records, RecordOf schema indexes record := by
  induction items generalizing records with
  | nil =>
      obtain ⟨_, hparts, rfl⟩ := h
      cases hparts
      simp
  | cons item items ih =>
      obtain ⟨head, tail, ⟨batch, -, hschema, hread⟩, htail, rfl⟩ := readsItems_cons.mp h
      intro record hrecord
      rcases List.mem_append.mp hrecord with hrecord | hrecord
      · obtain ⟨row, -, hrow⟩ := exists_of_forall₂ (mapM_eq_ok.mp hread).flip hrecord
        exact ⟨batch, row, hschema, hrow⟩
      · exact ih htail record hrecord

/-- A record has as many values as the schema has fields. -/
theorem RecordOf.length_values {record : KeyedEntry} (h : RecordOf schema indexes record) :
    record.2.values.length = schema.fields.length := by
  obtain ⟨batch, row, rfl, hread⟩ := h
  obtain ⟨-, hvalues, -⟩ := readRow_eq_ok.mp hread
  rw [← batch.fields_eq, List.length_map]
  exact (mapM_eq_ok.mp hvalues).length_eq.symm

theorem ReadsRows.unique {reader : BatchReader} {keys : List String}
    (h : ReadsRows reader keys records) (h' : ReadsRows reader keys records') :
    records = records' := by
  obtain ⟨indexes, hindexes, hitems⟩ := h
  obtain ⟨indexes', hindexes', hitems'⟩ := h'
  obtain rfl := Except.ok.inj (hindexes.symm.trans hindexes')
  exact hitems.unique hitems'

end Reads

/-! ## The run lemma -/

section Run

variable {σ : Type} {schema : Schema} {indexes : List ℕ} (inv : List KeyedEntry → σ → Prop)
  {rowStep : RecordBatch → σ → ℕ → Run ω Fault σ} {step : σ → KeyedEntry → Run ω Fault σ}

/-- The records are refused because a key occurs twice. -/
def Refuses (records : List KeyedEntry) (fault : Fault) : Prop :=
  ¬KeysDistinct records ∧ IsDuplicate fault

end Run

/-! ## The two paths -/

variable {reader : BatchReader} {keys : List String} {account : ResourceAccount}

/-- The writers have taken the records, each those of its partition. -/
structure Distributed (schemaDigest : Digest) (maxRecordBytes : ℕ) (records : List KeyedEntry)
    (state : Partitioning) : Prop where
  length_eq : state.writers.length = partitions
  holds : ∀ (partition : ℕ) (writer : PartitionWriter), state.writers[partition]? = some writer →
    writer.Holds schemaDigest maxRecordBytes (partitionOf partition records)
  rows_eq : state.rows = records.length

/-- The files of the partitions. -/
def images (schemaDigest : Digest) (records : List KeyedEntry) : List (List UInt8) :=
  (List.range partitions).map fun partition => image schemaDigest (partitionOf partition records)

/-- What partitioning a side leaves. -/
structure Partitioned (reader : BatchReader) (keys : List String) (maxRecordBytes : ℕ)
    (rows : PartitionedRows) (records : List KeyedEntry) : Prop where
  reads : ReadsRows reader keys records
  digest_eq : rows.schemaDigest = signatureDigest (schemaSignature reader.schema)
  paths_eq : rows.paths = images (signatureDigest (schemaSignature reader.schema)) records
  small : ∀ path ∈ rows.paths, path.length < 2 ^ 64
  writable : ∀ record ∈ records, Writable maxRecordBytes record
  rows_eq : rows.rows = records.length
  signature_eq : rows.signature = schemaSignature reader.schema

omit [Host ω] in
theorem Distributed.start {schemaDigest : Digest} {maxRecordBytes : ℕ} {temp : Ledger}
    {writers : List PartitionWriter}
    (h : List.Forall₂ (fun _ writer => writer.Holds schemaDigest maxRecordBytes [])
      (List.range partitions) writers) :
    Distributed schemaDigest maxRecordBytes [] { writers, temp, rows := 0 } := by
  refine ⟨?_, fun partition writer hwriter => ?_, rfl⟩
  · rw [← h.length_eq, List.length_range]
  · have hmem := List.mem_of_getElem? hwriter
    obtain ⟨_, -, hholds⟩ := exists_of_forall₂ h.flip hmem
    exact hholds

/-- The finished files are the images of the partitions. -/
theorem Distributed.sat_finish {schemaDigest : Digest} {maxRecordBytes : ℕ}
    {records : List KeyedEntry} {state : Partitioning}
    (h : Distributed schemaDigest maxRecordBytes records state) :
    Sat (state.writers.mapM PartitionWriter.finish : Run ω Fault _)
      (fun paths => paths = images schemaDigest records ∧ ∀ path ∈ paths, path.length < 2 ^ 64)
      Environmental := by
  have hfinish : ∀ writer ∈ state.writers, Sat (writer.finish : Run ω Fault _)
      (fun path => (∀ partition, state.writers[partition]? = some writer →
        path = image schemaDigest (partitionOf partition records)) ∧ path.length < 2 ^ 64)
      Environmental := by
    intro writer hwriter
    obtain ⟨partition, hlt, hget⟩ := List.getElem_of_mem hwriter
    have hget := List.getElem?_eq_some_iff.mpr ⟨hlt, hget⟩
    have hholds := h.holds partition writer hget
    have hsmall := hholds.file_lt
    rw [hholds.file_eq, List.length_append, List.length_replicate] at hsmall
    apply hholds.sat_finish.post
    rintro path rfl
    refine ⟨fun other hother => ?_, ?_⟩
    · -- two positions of one writer hold the same records
      have hother := h.holds other writer hother
      rw [image, image, ← hholds.hashed_eq, ← hother.hashed_eq, ← hholds.records_eq,
        ← hother.records_eq]
    · rw [length_image]
      omega
  apply (sat_mapM hfinish).post
  intro paths hpaths
  constructor
  · apply List.ext_getElem?
    intro partition
    rw [images, List.getElem?_map]
    by_cases hlt : partition < partitions
    · have hwriter : partition < state.writers.length := by rw [h.length_eq]; exact hlt
      have hpath : partition < paths.length := by rw [← hpaths.length_eq]; exact hwriter
      have hrel := hpaths.get hwriter hpath
      rw [List.getElem?_eq_getElem hpath, List.getElem?_range hlt, Option.map_some]
      exact congrArg some (hrel.1 partition (List.getElem?_eq_getElem hwriter))
    · rw [List.getElem?_eq_none, List.getElem?_eq_none, Option.map_none]
      · rw [List.length_range]
        omega
      · rw [← hpaths.length_eq, h.length_eq]
        omega
  · intro path hpath
    obtain ⟨writer, -, -, hlt⟩ := exists_of_forall₂ hpaths.flip hpath
    exact hlt

end ProofFrame.Diff
