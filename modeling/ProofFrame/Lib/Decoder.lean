import Mathlib.Control.Basic
import Mathlib.Data.List.Forall2
import ProofFrame.Lib.Bytes

/-!
# Decoders of byte formats

A decoder takes a value off the front of a byte sequence.  `Decodes decoder bytes
a` says that the bytes stand for `a` wherever they occur: whatever follows them,
the decoder returns `a` and leaves what follows.  Two values whose bytes one
decoder reads in this sense are told apart by their bytes, also at the front of
longer sequences (`Decodes.unique`), so to show that a format is injective it is
enough to write a decoder and to follow the encoder once.
-/

namespace ProofFrame.Lib

/-- Take an `α` off the front of a byte sequence. -/
abbrev Decoder (α : Type) : Type := StateT (List UInt8) Option α

variable {α β : Type}

/-- Wherever the bytes stand, the decoder takes exactly them and returns `a`. -/
def Decodes (decoder : Decoder α) (bytes : List UInt8) (a : α) : Prop :=
  ∀ rest, decoder (bytes ++ rest) = some (a, rest)

theorem Decodes.unique {decoder : Decoder α} {bytes bytes' rest rest' : List UInt8} {a a' : α}
    (h : Decodes decoder bytes a) (h' : Decodes decoder bytes' a')
    (heq : bytes ++ rest = bytes' ++ rest') : a = a' ∧ rest = rest' := by
  have hsome : some (a, rest) = some (a', rest') := by rw [← h rest, ← h' rest', heq]
  exact Prod.mk.inj (Option.some.inj hsome)

theorem Decodes.injective {decoder : Decoder α} {bytes : List UInt8} {a a' : α}
    (h : Decodes decoder bytes a) (h' : Decodes decoder bytes a') : a = a' :=
  (h.unique h' (rfl : bytes ++ [] = bytes ++ [])).1

/-! ## Sequencing -/

theorem decodes_pure (a : α) : Decodes (pure a) [] a := fun _ => rfl

theorem Decodes.bind {decoder : Decoder α} {next : α → Decoder β} {bytes bytes' : List UInt8}
    {a : α} {b : β} (h : Decodes decoder bytes a) (h' : Decodes (next a) bytes' b) :
    Decodes (decoder >>= next) (bytes ++ bytes') b := by
  intro rest
  show (decoder (bytes ++ bytes' ++ rest)).bind _ = _
  rw [List.append_assoc, h (bytes' ++ rest)]
  exact h' rest

theorem Decodes.map {decoder : Decoder α} {bytes : List UInt8} {a : α} (f : α → β)
    (h : Decodes decoder bytes a) : Decodes (f <$> decoder) bytes (f a) := by
  intro rest
  show (decoder (bytes ++ rest)).bind _ = _
  rw [h rest]
  rfl

/-- A last step that takes no bytes. -/
theorem Decodes.bind_pure {decoder : Decoder α} {bytes : List UInt8} {a : α} {f : α → β}
    (h : Decodes decoder bytes a) : Decodes (decoder >>= fun a => pure (f a)) bytes (f a) := by
  have hbind : Decodes (decoder >>= fun a => pure (f a)) (bytes ++ []) (f a) :=
    h.bind (decodes_pure (f a))
  rwa [List.append_nil] at hbind

namespace Decoder

/-! ## Fields -/

/-- One byte. -/
def byte : Decoder UInt8 := fun
  | [] => none
  | byte :: rest => some (byte, rest)

/-- Exactly `count` bytes. -/
def take (count : ℕ) : Decoder (List UInt8) := fun bytes => Bytes.split count bytes

/-- An unsigned number of `width` bytes. -/
def number (width : ℕ) : Decoder ℕ := Bytes.ofLe <$> take width

/-- Bytes behind their number. -/
def sized : Decoder (List UInt8) := do
  let length ← number 8
  take length

/-- One byte for a truth value. -/
def boolean : Decoder Bool := (fun byte => byte = 1) <$> byte

/-- A byte that tells whether there is a value, and the value. -/
def option (decoder : Decoder α) : Decoder (Option α) := do
  if ← boolean then some <$> decoder else pure none

/-- The next `count` values. -/
def times (decoder : Decoder α) : ℕ → Decoder (List α)
  | 0 => pure []
  | count + 1 => do
      let head ← decoder
      let tail ← times decoder count
      pure (head :: tail)

/-- Values behind their number. -/
def counted (decoder : Decoder α) : Decoder (List α) := do
  let count ← number 8
  times decoder count

end Decoder

open Decoder

theorem decodes_byte (b : UInt8) : Decodes byte [b] b := fun _ => rfl

/-- The first byte decides how the rest is read. -/
theorem Decodes.cons {next : UInt8 → Decoder β} {tag : UInt8} {bytes : List UInt8} {b : β}
    (h : Decodes (next tag) bytes b) : Decodes (byte >>= next) (tag :: bytes) b :=
  (decodes_byte tag).bind h

theorem decodes_take {bytes : List UInt8} {count : ℕ} (h : bytes.length = count) :
    Decodes (take count) bytes bytes :=
  fun rest => Bytes.split_append h rest

theorem decodes_number {width value : ℕ} (h : value < 256 ^ width) :
    Decodes (number width) (Bytes.toLe width value) value := by
  have hdecodes := (decodes_take (Bytes.length_toLe width value)).map Bytes.ofLe
  rwa [Bytes.ofLe_toLe, Nat.mod_eq_of_lt h] at hdecodes

theorem decodes_sized {bytes : List UInt8} (h : bytes.length < 256 ^ 8) :
    Decodes sized (Bytes.toLe 8 bytes.length ++ bytes) bytes :=
  (decodes_number h).bind (decodes_take rfl)

theorem decodes_boolean (value : Bool) : Decodes boolean [if value then 1 else 0] value := by
  have h := (decodes_byte (if value then 1 else 0)).map (fun byte : UInt8 => decide (byte = 1))
  have hvalue : decide ((if value then 1 else 0 : UInt8) = 1) = value := by cases value <;> rfl
  rwa [hvalue] at h

theorem decodes_option_none (decoder : Decoder α) : Decodes (option decoder) [0] none :=
  (decodes_boolean false).bind (decodes_pure none)

theorem decodes_option_some {decoder : Decoder α} {bytes : List UInt8} {a : α}
    (h : Decodes decoder bytes a) : Decodes (option decoder) (1 :: bytes) (some a) :=
  (decodes_boolean true).bind (h.map some)

theorem decodes_times {decoder : Decoder α} {encode : β → List UInt8} {f : β → α} {items : List β}
    (h : ∀ item ∈ items, Decodes decoder (encode item) (f item)) :
    Decodes (times decoder items.length) (items.flatMap encode) (items.map f) := by
  induction items with
  | nil => exact decodes_pure []
  | cons item items ih =>
      refine (h item (List.mem_cons_self ..)).bind ?_
      exact (ih fun other hother => h other (List.mem_cons_of_mem _ hother)).bind_pure

theorem decodes_counted {decoder : Decoder α} {encode : β → List UInt8} {f : β → α}
    {items : List β} (hlength : items.length < 256 ^ 8)
    (h : ∀ item ∈ items, Decodes decoder (encode item) (f item)) :
    Decodes (counted decoder) (Bytes.toLe 8 items.length ++ items.flatMap encode) (items.map f) :=
  (decodes_number hlength).bind (decodes_times h)

/-! ## Lengths of sequences -/

theorem length_le_flatMap (encode : β → List UInt8) {items : List β} {item : β}
    (h : item ∈ items) : (encode item).length ≤ (items.flatMap encode).length := by
  obtain ⟨before, after, rfl⟩ := List.append_of_mem h
  simp only [List.flatMap_append, List.flatMap_cons, List.length_append]
  omega

/-- Where no item is encoded by nothing, the items are at most as many as the bytes. -/
theorem length_le_length_flatMap (encode : β → List UInt8)
    (hpos : ∀ item, 0 < (encode item).length) (items : List β) :
    items.length ≤ (items.flatMap encode).length := by
  induction items with
  | nil => exact Nat.zero_le _
  | cons item items ih =>
      have := hpos item
      rw [List.flatMap_cons, List.length_append, List.length_cons]
      omega

end ProofFrame.Lib
