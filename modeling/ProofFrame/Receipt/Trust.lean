import Mathlib.Data.Finset.Basic
import ProofFrame.Crates
import ProofFrame.Lib.Steps

/-!
# Keys and trust

The signature scheme and the policies about who may have signed a receipt.  A
key is trusted exactly if the policy names it.
-/

namespace ProofFrame

open Lib

abbrev KeyBytes : Type := { bytes : List UInt8 // bytes.length = 32 }

/-- The bytes of a signature. -/
abbrev Signature : Type := { bytes : List UInt8 // bytes.length = 64 }

/-- `ed25519_dalek`. -/
class Ed25519 where
  /-- `VerifyingKey::from_bytes`: why the bytes are not a key, if they are not. -/
  keyError : KeyBytes → Option String
  /-- The key that verifies what a private key signs. -/
  verifyingKey : KeyBytes → { key : KeyBytes // keyError key = none }
  sign : KeyBytes → List UInt8 → Signature
  verifyStrict : { key : KeyBytes // keyError key = none } → List UInt8 → Signature → Bool

/-- `base64::URL_SAFE_NO_PAD`. -/
class Base64 where
  encode : List UInt8 → String
  decode : String → Except String (List UInt8)

/-- Bytes that are a key.  Keys are compared by their bytes. -/
abbrev VerifyingKey [Ed25519] : Type := { key : KeyBytes // Ed25519.keyError key = none }

/-- A scheme for messages that end differently: a signature repeats the last byte. -/
@[reducible] def Ed25519.lastByte : Ed25519 where
  keyError _ := none
  verifyingKey signing := ⟨signing, rfl⟩
  sign _ message := ⟨List.replicate 64 (message.getLastD 0), List.length_replicate⟩
  verifyStrict _ message signature := signature.val = List.replicate 64 (message.getLastD 0)

/-- One character for each byte. -/
@[reducible] def Base64.plain : Base64 where
  encode bytes := String.ofList (bytes.map fun byte => Char.ofNat byte.toNat)
  decode text := .ok (text.toList.map fun c => UInt8.ofNat c.toNat)

theorem Base64.plain_decode_encode (bytes : List UInt8) :
    Base64.plain.decode (Base64.plain.encode bytes) = .ok bytes := by
  have hbyte : ∀ byte : UInt8, UInt8.ofNat (Char.ofNat byte.toNat).toNat = byte := by
    intro byte
    have hvalid : byte.toNat.isValidChar := .inl (by have := byte.toNat_lt; omega)
    rw [Char.ofNat, dif_pos hvalid]
    exact UInt8.ofNat_toNat
  change Except.ok ((String.ofList (bytes.map fun byte => Char.ofNat byte.toNat)).toList.map
    fun c => UInt8.ofNat c.toNat) = .ok bytes
  rw [String.toList_ofList, List.map_map]
  exact congrArg Except.ok (List.map_id'' hbyte bytes)

structure TrustStore where
  keys : Finset KeyBytes

variable [Ed25519]

namespace TrustStore

def new : TrustStore := ⟨∅⟩

/-- The store with the key, and whether the key is new. -/
def insert (store : TrustStore) (key : VerifyingKey) : Bool × TrustStore :=
  (key.val ∉ store.keys, ⟨Insert.insert key.val store.keys⟩)

def contains (store : TrustStore) (key : VerifyingKey) : Bool := key.val ∈ store.keys

end TrustStore

/-- Who is allowed to have signed a receipt. -/
inductive TrustPolicy where
  | signatureOnly
  | expectedKey (expected : VerifyingKey)
  | trustStore (store : TrustStore)

namespace TrustPolicy

def accepts : TrustPolicy → VerifyingKey → Bool
  | .signatureOnly, _ => false
  | .expectedKey expected, key => expected = key
  | .trustStore store, key => store.contains key

/-- The keys a policy names. -/
def trusted : TrustPolicy → Set VerifyingKey
  | .signatureOnly => ∅
  | .expectedKey expected => {expected}
  | .trustStore store => { key | key.val ∈ store.keys }

theorem accepts_iff (trust : TrustPolicy) (key : VerifyingKey) :
    trust.accepts key = true ↔ key ∈ trust.trusted := by
  cases trust with
  | signatureOnly => simp [accepts, trusted]
  | expectedKey expected => simp [accepts, trusted, eq_comm]
  | trustStore store => simp [accepts, trusted, TrustStore.contains]

end TrustPolicy

/-- Inserting a key makes it trusted, and no other. -/
theorem TrustStore.contains_insert (store : TrustStore) (key other : VerifyingKey) :
    (store.insert key).2.contains other = true ↔ other = key ∨ store.contains other = true := by
  simp [contains, TrustStore.insert, Subtype.ext_iff]

/-! ## What is assumed of signatures -/

/-- What the private key signs as a message verifies with its public key. -/
def SignatureHolds {ε : Type} (signing : KeyBytes) (message : Except ε (List UInt8)) : Prop :=
  ∀ bytes, message = .ok bytes →
    Ed25519.verifyStrict (Ed25519.verifyingKey signing) bytes (Ed25519.sign signing bytes) = true

/-- Nobody but the holder of the key produces signatures that verify: of the `messages`, those that
do are the ones that were `signed`, each for one message. -/
structure Unforgeable (key : VerifyingKey) (messages : Set (List UInt8))
    (signed : Set (List UInt8 × Signature)) : Prop where
  genuine : ∀ message ∈ messages, ∀ signature, Ed25519.verifyStrict key message signature = true →
    (message, signature) ∈ signed
  single : ∀ message message' signature, (message, signature) ∈ signed →
    (message', signature) ∈ signed → message = message'

omit [Ed25519] in
/-- Of messages that differ in their last byte only, the scheme signs each differently. -/
theorem Ed25519.lastByte_unforgeable (key : @VerifyingKey Ed25519.lastByte) (start : List UInt8) :
    @Unforgeable Ed25519.lastByte key { message | ∃ last, message = start ++ [last] }
      { signed | ∃ last, signed = (start ++ [last], ⟨List.replicate 64 last, by simp⟩) } := by
  let _ : Ed25519 := Ed25519.lastByte
  refine ⟨?_, ?_⟩
  · rintro _ ⟨last, rfl⟩ signature hverify
    refine ⟨last, congrArg _ (Subtype.ext ?_)⟩
    simpa using of_decide_eq_true hverify
  · rintro message message' signature ⟨last, hsigned⟩ ⟨last', hsigned'⟩
    obtain ⟨rfl, rfl⟩ := Prod.mk.inj hsigned
    obtain ⟨rfl, hlast⟩ := Prod.mk.inj hsigned'
    have hsame : List.replicate 64 last = List.replicate 64 last' := congrArg Subtype.val hlast
    rw [List.replicate_right_inj (by decide)] at hsame
    rw [hsame]

omit [Ed25519] in
theorem Ed25519.lastByte_signed (signing : KeyBytes) (start : List UInt8) (last : UInt8) :
    (start ++ [last], Ed25519.lastByte.sign signing (start ++ [last])) ∈
      { signed : List UInt8 × Signature |
        ∃ last, signed = (start ++ [last], ⟨List.replicate 64 last, by simp⟩) } := by
  refine ⟨last, congrArg _ (Subtype.ext ?_)⟩
  change List.replicate 64 ((start ++ [last]).getLastD 0) = List.replicate 64 last
  rw [List.getLastD_concat]

end ProofFrame
