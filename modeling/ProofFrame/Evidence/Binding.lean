import Mathlib.Algebra.Order.BigOperators.Group.List
import Mathlib.Data.Set.Function
import ProofFrame.Evidence.PartitionManifest
import ProofFrame.Serde.Compact

/-!
# What a root digest binds

The root digest of a manifest is hashed from every part of it, so two manifests
with one root are equal as soon as canonical JSON and the hash keep the documents
in question apart.  That is a hypothesis about these documents (`KeepsApart`): no
hash keeps all documents apart.
-/

namespace ProofFrame

open Lib Lib.Run

/-! ## Documents that are kept apart -/

section KeepsApart

variable [Crates]

/-- Canonical JSON writes no two of the documents as the same bytes, and the hash gives no two of
them the same digest. -/
structure KeepsApart (documents : Set Json) : Prop where
  bytes : ∀ a ∈ documents, ∀ b ∈ documents, ∀ bytes,
    Crates.canonicalJson a = .ok bytes → Crates.canonicalJson b = .ok bytes → a = b
  hash : ∀ a ∈ documents, ∀ b ∈ documents, ∀ domain bytes bytes',
    Crates.canonicalJson a = .ok bytes → Crates.canonicalJson b = .ok bytes' →
    Crates.blake3 (domainSeparator domain ++ bytes) =
      Crates.blake3 (domainSeparator domain ++ bytes') → bytes = bytes'

theorem canonical_eq_ok {json : Json} {bytes : List UInt8} :
    canonical json = .ok bytes ↔ Crates.canonicalJson json = .ok bytes := by
  unfold canonical
  cases Crates.canonicalJson json <;> simp [Except.mapError]

theorem KeepsApart.eq_of_canonical {documents : Set Json} (h : KeepsApart documents) {a b : Json}
    (ha : a ∈ documents) (hb : b ∈ documents) {bytes : List UInt8}
    (hbytes : canonical a = .ok bytes) (hbytes' : canonical b = .ok bytes) : a = b :=
  h.bytes a ha b hb bytes (canonical_eq_ok.mp hbytes) (canonical_eq_ok.mp hbytes')

theorem KeepsApart.eq_of_digest {documents : Set Json} (h : KeepsApart documents) {a b : Json}
    (ha : a ∈ documents) (hb : b ∈ documents) {domain : String} {digest : Digest}
    (hdigest : canonicalDigest domain a = .ok digest)
    (hdigest' : canonicalDigest domain b = .ok digest) : a = b := by
  obtain ⟨bytes, hbytes, hhash⟩ := bind_eq_ok.mp hdigest
  obtain ⟨bytes', hbytes', hhash'⟩ := bind_eq_ok.mp hdigest'
  injection hhash with hhash
  injection hhash' with hhash'
  have heq := h.hash a ha b hb domain bytes bytes' (canonical_eq_ok.mp hbytes)
    (canonical_eq_ok.mp hbytes') (hhash.trans hhash'.symm)
  subst heq
  exact h.eq_of_canonical ha hb hbytes hbytes'

end KeepsApart

/-- Crates for runs on documents of different kinds: a digest tells the kind of the document. -/
@[reducible] def Crates.telling (kind : Json → UInt8) : Crates :=
  { Crates.zeroDigests with
    canonicalJson := fun json => .ok [kind json]
    blake3 := fun bytes => ⟨bytes.getLastD 0 :: List.replicate 31 0, by simp⟩ }

theorem Crates.telling_keepsApart {kind : Json → UInt8} {documents : Set Json}
    (h : Set.InjOn kind documents) : @KeepsApart (Crates.telling kind) documents := by
  refine @KeepsApart.mk (Crates.telling kind) _ ?_ ?_
  · intro json hjson other hother bytes hbytes hbytes'
    injection hbytes with hbytes
    injection hbytes' with hbytes'
    exact h hjson hother (List.singleton_inj.mp (hbytes.trans hbytes'.symm))
  · intro json hjson other hother domain bytes bytes' hbytes hbytes' hhash
    injection hbytes with hbytes
    injection hbytes' with hbytes'
    subst hbytes hbytes'
    have hlast := (List.cons.inj (congrArg Subtype.val hhash)).1
    simpa using hlast

/-! ## What an accepted manifest is -/

namespace PartitionManifestV1

/-- What the root digest is hashed from. -/
def body (manifest : PartitionManifestV1) : Json :=
  bodyJson manifest.schema manifest.partitions manifest.globalResultDigest manifest.resources

/-- The manifest has partitions, numbered in their order, and all of one schema, contract and
plan. -/
structure Consistent (manifest : PartitionManifestV1) : Prop where
  nonempty : manifest.partitions ≠ []
  indices : manifest.partitions.map (·.index) =
    (List.range manifest.partitions.length).map UInt64.ofNat
  identity : ∃ identity, ∀ partition ∈ manifest.partitions, partition.identity = identity

theorem validateAt_eq_ok {partition first : PartitionEvidenceV1} {position : ℕ}
    (h : partition.validateAt first position = .ok ()) :
    partition.index = UInt64.ofNat position ∧ partition.identity = first.identity := by
  obtain ⟨_, hindex, h⟩ := bind_eq_ok.mp h
  obtain ⟨-, -, h⟩ := bind_eq_ok.mp h
  obtain ⟨-, -, h⟩ := bind_eq_ok.mp h
  obtain ⟨-, -, h⟩ := bind_eq_ok.mp h
  obtain ⟨-, -, h⟩ := bind_eq_ok.mp h
  obtain ⟨-, -, h⟩ := bind_eq_ok.mp h
  exact ⟨not_not.mp (rejectIf_eq_ok.mp hindex), not_not.mp (rejectIf_eq_ok.mp h)⟩

theorem Consistent.of_validateBody {manifest : PartitionManifestV1}
    (h : manifest.validateBody = .ok ()) : manifest.Consistent := by
  obtain ⟨-, -, h⟩ := bind_eq_ok.mp h
  split at h
  · cases h
  · rename_i first rest hpartitions
    obtain ⟨-, -, h⟩ := bind_eq_ok.mp h
    have hat : ∀ position, ∀ hlt : position < manifest.partitions.length,
        manifest.partitions[position].validateAt first position = .ok () := by
      intro position hlt
      refine forM_eq_ok.mp h (manifest.partitions[position], position) ?_
      rw [List.mem_zipIdx_iff_getElem?]
      exact List.getElem?_eq_getElem hlt
    refine ⟨by simp [hpartitions], ?_, first.identity, fun partition hpartition => ?_⟩
    · refine List.ext_getElem (by simp) fun position hlt _ => ?_
      rw [List.length_map] at hlt
      simp only [List.getElem_map, List.getElem_range]
      exact (validateAt_eq_ok (hat position hlt)).1
    · obtain ⟨position, hlt, rfl⟩ := List.getElem_of_mem hpartition
      exact (validateAt_eq_ok (hat position hlt)).2

variable [Crates]

theorem validate_eq_ok {manifest : PartitionManifestV1} :
    manifest.validate = .ok () ↔ manifest.validateBody = .ok () ∧
      ∃ digest, canonicalDigest "proofframe:partition-manifest:v1" manifest.body = .ok digest ∧
        manifest.rootDigest = taggedDigest "pf-partition-root-v1:" digest := by
  constructor
  · intro h
    obtain ⟨⟨⟩, hbody, h⟩ := bind_eq_ok.mp h
    obtain ⟨-, -, h⟩ := bind_eq_ok.mp h
    obtain ⟨root, hroot, h⟩ := bind_eq_ok.mp h
    obtain ⟨digest, hdigest, hroot⟩ := bind_eq_ok.mp hroot
    injection hroot with hroot
    exact ⟨hbody, digest, hdigest, (not_not.mp (rejectIf_eq_ok.mp h)).trans hroot.symm⟩
  · rintro ⟨hbody, digest, hdigest, hroot⟩
    have hcompute : manifest.computeRootDigest = .ok manifest.rootDigest :=
      bind_eq_ok.mpr ⟨digest, hdigest, by rw [hroot]⟩
    refine bind_eq_ok.mpr ⟨(), hbody, bind_eq_ok.mpr ⟨(), ?_, bind_eq_ok.mpr ⟨_, hcompute, ?_⟩⟩⟩
    · rw [validateTaggedDigest_eq_ok, hroot]
      exact isTagged_taggedDigest _ digest
    · exact rejectIf_eq_ok.mpr (not_not.mpr rfl)

/-- `new` builds the manifests that `validate` accepts. -/
theorem new_eq_ok {partitions : List PartitionEvidenceV1} {globalResultDigest : String}
    {resources : HeldLimits} {manifest : PartitionManifestV1}
    (h : new partitions globalResultDigest resources = .ok manifest) :
    manifest.validate = .ok () ∧ manifest.partitions = partitions ∧
      manifest.globalResultDigest = globalResultDigest ∧ manifest.resources = resources := by
  obtain ⟨⟨⟩, hbody, h⟩ := bind_eq_ok.mp h
  obtain ⟨root, hroot, h⟩ := bind_eq_ok.mp h
  obtain ⟨digest, hdigest, hroot⟩ := bind_eq_ok.mp hroot
  injection h with h
  injection hroot with hroot
  subst h
  exact ⟨validate_eq_ok.mpr ⟨hbody, digest, hdigest, hroot.symm⟩, rfl, rfl, rfl⟩

/-- The digest of an accepted manifest is the one its root is the text of. -/
theorem digest_eq_ok {manifest : PartitionManifestV1} (h : manifest.validate = .ok ()) :
    ∃ digest, manifest.digest = .ok digest ∧
      manifest.rootDigest = taggedDigest "pf-partition-root-v1:" digest := by
  obtain ⟨-, digest, hdigest, hroot⟩ := validate_eq_ok.mp h
  have hcompute : manifest.computeRootDigest = .ok (taggedDigest "pf-partition-root-v1:" digest) :=
    bind_eq_ok.mpr ⟨digest, hdigest, rfl⟩
  refine ⟨digest, bind_eq_ok.mpr ⟨(), h, bind_eq_ok.mpr ⟨_, hcompute, ?_⟩⟩, hroot⟩
  rw [taggedDigest, stripPrefix_append]
  exact bind_eq_ok.mpr ⟨digest.val, decodeHexPairs_toHex digest, dif_pos digest.property⟩

/-! ## Equal roots -/

omit [Crates] in
theorem eq_of_body {manifest manifest' : PartitionManifestV1} (hbody : manifest.body = manifest'.body)
    (hroot : manifest.rootDigest = manifest'.rootDigest) : manifest = manifest' := by
  have hjson : manifest.toJson = manifest'.toJson := by
    simp only [body, bodyJson, Json.object.injEq, List.cons.injEq, Prod.mk.injEq, true_and,
      and_true] at hbody
    obtain ⟨hpartitions, hresult, hresources⟩ := hbody
    rw [toJson, toJson, hpartitions, hresult, hresources, hroot]
  have hread := ofJson_view Serde.view_id manifest
  rw [hjson, ofJson_view Serde.view_id manifest'] at hread
  exact (Option.some.inj hread).symm

theorem eq_of_root {documents : Set Json} (hdocuments : KeepsApart documents)
    {manifest manifest' : PartitionManifestV1} (hmem : manifest.body ∈ documents)
    (hmem' : manifest'.body ∈ documents) (h : manifest.validate = .ok ())
    (h' : manifest'.validate = .ok ()) (hroot : manifest'.rootDigest = manifest.rootDigest) :
    manifest' = manifest := by
  obtain ⟨-, digest, hdigest, hdigestRoot⟩ := validate_eq_ok.mp h
  obtain ⟨-, digest', hdigest', hdigestRoot'⟩ := validate_eq_ok.mp h'
  have hsame : digest' = digest :=
    taggedDigest_injective (hdigestRoot'.symm.trans (hroot.trans hdigestRoot))
  subst hsame
  exact eq_of_body (hdocuments.eq_of_digest hmem' hmem hdigest' hdigest) hroot

/-! ## Round trips -/

/-- What the parser makes of the text of an accepted manifest: the manifest, unless the text is
longer than it reads. -/
theorem fromJson_compact [SerdeJson] {manifest : PartitionManifestV1}
    (h : manifest.validate = .ok ()) (hparse : ReadsBack manifest.toJson) :
    fromJson manifest.toJson.compact =
      if (utf8Bytes manifest.toJson.compact).length ≤ maxManifestJsonBytes then .ok manifest
      else .error (.error (.resourceLimit "partition manifest JSON"
        (utf8Bytes manifest.toJson.compact).length 0 maxManifestJsonBytes)) := by
  unfold fromJson
  split
  · rename_i hle
    have hread : fromStr "PartitionManifestV1" ofJson manifest.toJson.compact = .ok manifest :=
      fromStr_compact hparse (ofJson_view Serde.view_id manifest)
    rw [show rejectIf (maxManifestJsonBytes < (utf8Bytes manifest.toJson.compact).length) _ =
      .ok () from rejectIf_eq_ok.mpr (not_lt.mpr hle), hread]
    exact bind_eq_ok.mpr ⟨(), rfl, bind_eq_ok.mpr ⟨manifest, rfl, bind_eq_ok.mpr ⟨(), h, rfl⟩⟩⟩
  · rename_i hle
    exact bind_eq_error.mpr (.inl (rejectIf_eq_error.mpr ⟨not_le.mp hle, rfl⟩))

end PartitionManifestV1

/-! ## Manifests of partitions without rows -/

def zeroDigest : Digest := ⟨List.replicate 32 0, length_zeroBytes⟩

/-- The evidence of a partition without rows, where every digest is zero. -/
def blankPartition (index : ℕ) : PartitionEvidenceV1 where
  index := UInt64.ofNat index
  schemaDigest := taggedDigest "pf-schema-v1:" zeroDigest
  contractSourceDigest := taggedDigest "pf-contract-v2:" zeroDigest
  compiledPlanDigest := taggedDigest "pf-plan-v2:" zeroDigest
  rows := 0
  fingerprintVersion := .v2
  fingerprintDigest := ⟨List.replicate 32 255, rfl⟩
  resultDigest := taggedDigest "pf-partition-result-v1:" zeroDigest

/-- Limits that retain at most one sample. -/
def blankLimits (sample : Bool) : HeldLimits :=
  ⟨{ maxMemoryBytes := 0, maxTempBytes := 0, maxOutputRecords := 0, maxSamples := sample.toNat }, by
    cases sample <;> decide⟩

theorem validateAt_blankPartition (position : ℕ) :
    (blankPartition position).validateAt (blankPartition 0) position = .ok () := by
  refine bind_eq_ok.mpr ⟨(), rejectIf_eq_ok.mpr (not_not.mpr rfl), ?_⟩
  refine bind_eq_ok.mpr ⟨(), rejectIf_eq_ok.mpr (not_not.mpr rfl), ?_⟩
  refine bind_eq_ok.mpr ⟨(), validateTaggedDigest_eq_ok.mpr (isTagged_taggedDigest ..), ?_⟩
  refine bind_eq_ok.mpr ⟨(), validateTaggedDigestAny_eq_ok.mpr
    ⟨"pf-contract-v2:", by simp, isTagged_taggedDigest ..⟩, ?_⟩
  refine bind_eq_ok.mpr ⟨(), validateTaggedDigestAny_eq_ok.mpr
    ⟨"pf-plan-v2:", by simp, isTagged_taggedDigest ..⟩, ?_⟩
  refine bind_eq_ok.mpr ⟨(), validateTaggedDigest_eq_ok.mpr (isTagged_taggedDigest ..), ?_⟩
  exact rejectIf_eq_ok.mpr (not_not.mpr rfl)

/-- A manifest of such partitions, as many as there are. -/
def newBlank [Crates] (count : ℕ) (sample : Bool) : Except Fault PartitionManifestV1 :=
  PartitionManifestV1.new ((List.range count).map blankPartition) (taggedDigest "pf-result-v1:" zeroDigest)
    (blankLimits sample)

theorem exists_newBlank [Crates] (hcanonical : ∀ json, ∃ bytes, Crates.canonicalJson json = .ok bytes)
    (count : ℕ) (sample : Bool) : ∃ manifest, newBlank (count + 1) sample = .ok manifest := by
  obtain ⟨bytes, hbytes⟩ := hcanonical (PartitionManifestV1.bodyJson .v1
    ((List.range (count + 1)).map blankPartition) (taggedDigest "pf-result-v1:" zeroDigest)
    (blankLimits sample))
  have hbody : PartitionManifestV1.validateBodyParts .v1
      ((List.range (count + 1)).map blankPartition) (taggedDigest "pf-result-v1:" zeroDigest) =
      .ok () := by
    refine bind_eq_ok.mpr ⟨(), rejectIf_eq_ok.mpr (not_not.mpr rfl), ?_⟩
    have hfirst : (List.range (count + 1)).map blankPartition =
        blankPartition 0 :: ((List.range count).map Nat.succ).map blankPartition := by
      rw [List.range_succ_eq_map, List.map_cons]
    rw [hfirst]
    refine bind_eq_ok.mpr ⟨(), validateTaggedDigest_eq_ok.mpr (isTagged_taggedDigest ..), ?_⟩
    rw [← hfirst, forM_eq_ok]
    rintro ⟨partition, position⟩ hmem
    rw [List.mem_zipIdx_iff_getElem?, List.getElem?_map, Option.map_eq_some_iff] at hmem
    obtain ⟨index, hindex, hpartition⟩ := hmem
    obtain ⟨_, hposition⟩ := List.getElem?_eq_some_iff.mp hindex
    rw [List.getElem_range] at hposition
    subst hposition
    rw [← show blankPartition position = partition from hpartition]
    exact validateAt_blankPartition position
  obtain ⟨root, hroot⟩ : ∃ root, PartitionManifestV1.computeRootDigestParts .v1
      ((List.range (count + 1)).map blankPartition) (taggedDigest "pf-result-v1:" zeroDigest)
      (blankLimits sample) = .ok root :=
    ⟨_, bind_eq_ok.mpr ⟨_, bind_eq_ok.mpr ⟨bytes, canonical_eq_ok.mpr hbytes, rfl⟩, rfl⟩⟩
  exact ⟨_, bind_eq_ok.mpr ⟨(), hbody, bind_eq_ok.mpr ⟨root, hroot, rfl⟩⟩⟩

/-! ## Round trips of texts -/

/-- The text of a manifest is read back as the manifest, up to the longest text the parser takes;
beyond it the parser refuses the text. -/
theorem manifestJson_roundTrip [Crates] [SerdeJson] {kept : String → Bool}
    (hparser : SerdeJson.Reads kept) {partitions : List PartitionEvidenceV1}
    {globalResultDigest : String} {resources : HeldLimits} {manifest : PartitionManifestV1}
    (h : PartitionManifestV1.new partitions globalResultDigest resources = .ok manifest) :
    PartitionManifestV1.fromJson manifest.toJson.compact =
      if (utf8Bytes manifest.toJson.compact).length ≤ PartitionManifestV1.maxManifestJsonBytes then
        .ok manifest
      else .error (.error (.resourceLimit "partition manifest JSON"
        (utf8Bytes manifest.toJson.compact).length 0
        PartitionManifestV1.maxManifestJsonBytes)) :=
  PartitionManifestV1.fromJson_compact (PartitionManifestV1.new_eq_ok h).1
    (hparser.written _ ((manifest.readable hparser.unsigned).mono (by decide)))

/-- The text of a manifest of one partition. -/
theorem manifestJson_roundTrip_one :
    ∃ manifest, @newBlank Crates.zeroDigests 1 false = .ok manifest ∧
      @PartitionManifestV1.fromJson Crates.zeroDigests SerdeJson.reader manifest.toJson.compact =
        if (utf8Bytes manifest.toJson.compact).length ≤
            PartitionManifestV1.maxManifestJsonBytes then .ok manifest
        else .error (.error (.resourceLimit "partition manifest JSON"
          (utf8Bytes manifest.toJson.compact).length 0
          PartitionManifestV1.maxManifestJsonBytes)) := by
  obtain ⟨manifest, h⟩ := @exists_newBlank Crates.zeroDigests (fun _ => ⟨[], rfl⟩) 0 false
  exact ⟨manifest, h,
    @manifestJson_roundTrip Crates.zeroDigests SerdeJson.reader _ SerdeJson.reads_reader _ _ _ _ h⟩

/-! ## Texts the parser refuses -/

theorem length_le_quoted (text : String) : text.toList.length ≤ (quoted text).length := by
  have hchar : ∀ c, 1 ≤ (escapeChar c).length := by
    intro c
    unfold escapeChar
    split_ifs <;> simp
  have hchars : ∀ chars : List Char, chars.length ≤ (chars.flatMap escapeChar).length := by
    intro chars
    induction chars with
    | nil => exact le_rfl
    | cons c chars ih =>
        have := hchar c
        rw [List.flatMap_cons, List.length_append, List.length_cons]
        omega
  have := hchars text.toList
  simp only [quoted, List.length_append, List.length_cons]
  omega

theorem length_toHex (digest : Digest) : digest.toHex.toList.length = 64 := by
  rw [Digest.toHex, String.toList_ofList, List.length_flatMap]
  simp [hexByte, digest.property]

theorem length_le_taggedDigest (tag : String) (digest : Digest) :
    64 ≤ (Json.string (taggedDigest tag digest)).compactChars.length := by
  rw [Json.compactChars]
  refine le_trans ?_ (length_le_quoted _)
  rw [taggedDigest, String.toList_append, List.length_append, length_toHex]
  omega

/-- What the evidence of a partition takes at least: the digits of its digests. -/
theorem length_le_blankPartition (index : ℕ) :
    352 ≤ (blankPartition index).toJson.compactChars.length := by
  have hfingerprint : 96 ≤ (blankPartition index).fingerprintDigest.toJson.compactChars.length := by
    rw [Digest.toJson]
    refine le_trans ?_ (sum_length_le_array _)
    have hbytes : (blankPartition index).fingerprintDigest.val = List.replicate 32 255 := rfl
    have hnumber : (Json.unsigned (255 : UInt8).toNat).compactChars.length = 3 := by
      rw [Json.unsigned, Json.compactChars, Nat.toList_repr]
      decide
    rw [hbytes, List.map_replicate, List.map_replicate, List.sum_replicate, hnumber]
    decide
  have hschema := length_le_taggedDigest "pf-schema-v1:" zeroDigest
  have hcontract := length_le_taggedDigest "pf-contract-v2:" zeroDigest
  have hplan := length_le_taggedDigest "pf-plan-v2:" zeroDigest
  have hresult := length_le_taggedDigest "pf-partition-result-v1:" zeroDigest
  rw [PartitionEvidenceV1.toJson]
  refine le_trans ?_ (sum_length_le_object _)
  simp only [List.map_cons, List.map_nil, List.sum_cons, List.sum_nil]
  change _ ≤ _ + (_ + (Json.string (taggedDigest "pf-schema-v1:" zeroDigest)).compactChars.length +
    (_ + (Json.string (taggedDigest "pf-contract-v2:" zeroDigest)).compactChars.length +
    (_ + (Json.string (taggedDigest "pf-plan-v2:" zeroDigest)).compactChars.length +
    (_ + (_ + (_ +
    (_ + (Json.string (taggedDigest "pf-partition-result-v1:" zeroDigest)).compactChars.length +
      0)))))))
  omega

/-- A run over three thousand partitions gives a manifest that is accepted, and whose text is not. -/
theorem manifestJson_oversized : ∃ manifest,
    @newBlank Crates.zeroDigests 3000 false = .ok manifest ∧
    @PartitionManifestV1.validate Crates.zeroDigests manifest = .ok () ∧
    @PartitionManifestV1.fromJson Crates.zeroDigests SerdeJson.reader manifest.toJson.compact =
      .error (.error (.resourceLimit "partition manifest JSON"
        (utf8Bytes manifest.toJson.compact).length 0
        PartitionManifestV1.maxManifestJsonBytes)) := by
  let _ : Crates := Crates.zeroDigests
  obtain ⟨manifest, h⟩ := exists_newBlank (fun _ => ⟨[], rfl⟩) 2999 false
  obtain ⟨hvalid, hpartitions, -⟩ := PartitionManifestV1.new_eq_ok h
  refine ⟨manifest, h, hvalid, ?_⟩
  have hlong : PartitionManifestV1.maxManifestJsonBytes <
      (utf8Bytes manifest.toJson.compact).length := by
    have hitems : 3000 * 352 ≤
        (Json.array (manifest.partitions.map PartitionEvidenceV1.toJson)).compactChars.length := by
      refine le_trans ?_ (sum_length_le_array _)
      have hsum := List.card_nsmul_le_sum ((List.range 3000).map
        fun index => (blankPartition index).toJson.compactChars.length) 352
        (by simpa using fun index _ => length_le_blankPartition index)
      rw [List.length_map, List.length_range, nsmul_eq_mul, Nat.cast_id] at hsum
      rw [hpartitions, List.map_map, List.map_map]
      exact hsum
    have hchars :
        (Json.array (manifest.partitions.map PartitionEvidenceV1.toJson)).compactChars.length ≤
        manifest.toJson.compact.toList.length := by
      rw [Json.compact, String.toList_ofList, PartitionManifestV1.toJson]
      refine le_trans ?_ (sum_length_le_object _)
      simp only [List.map_cons, List.sum_cons]
      omega
    have hbytes := length_le_utf8Bytes manifest.toJson.compact
    have hmax : PartitionManifestV1.maxManifestJsonBytes = 1048576 := rfl
    omega
  exact bind_eq_error.mpr (.inl (rejectIf_eq_error.mpr ⟨hlong, rfl⟩))

end ProofFrame
