import ProofFrame.Arrow
import ProofFrame.Json

/-!
# The crates the program links against

Functions of third-party crates that the engine calls and whose results it only
passes on or compares.  They are parameters of the development; a law of one of
them is a hypothesis of the theorems that need it, never part of the class.
-/

namespace ProofFrame

/-- A 32-byte digest. -/
abbrev Digest : Type := { bytes : List UInt8 // bytes.length = 32 }

class Crates where
  /-- `blake3::hash` of a byte sequence. -/
  blake3 : List UInt8 → Digest
  /-- `Display` of an Arrow data type. -/
  displayType : DataType → String
  /-- `size_of::<RunCursor>()`. -/
  sizeOfRunCursor : ℕ
  /-- `size_of::<Reverse<MergeEntry>>()`. -/
  sizeOfMergeEntry : ℕ
  /-- `Regex::new`: why the pattern is rejected, if it is. -/
  regexError : String → Option String
  /-- `Regex::is_match` of the pattern on a text. -/
  regexMatch : String → String → Bool
  /-- `DateTime::parse_from_rfc3339`: the seconds since the epoch and the nanoseconds past them. -/
  parseRfc3339 : String → Option (ℤ × ℕ)
  /-- `NaiveDate::parse_from_str` with `%Y-%m-%d`: the days since the epoch. -/
  parseDate : String → Option ℤ
  /-- `serde_json_canonicalizer::to_vec`. -/
  canonicalJson : Json → Except String (List UInt8)

theorem length_zeroBytes : (List.replicate 32 (0 : UInt8)).length = 32 := rfl

/-- Crates for runs on inputs that do not look at their answers: every digest is zero. -/
@[reducible] def Crates.zeroDigests : Crates where
  blake3 _ := ⟨List.replicate 32 0, length_zeroBytes⟩
  displayType _ := ""
  sizeOfRunCursor := 0
  sizeOfMergeEntry := 0
  regexError _ := none
  regexMatch _ _ := true
  parseRfc3339 _ := none
  parseDate _ := none
  canonicalJson _ := .ok []

theorem length_lastBytes (input : List UInt8) :
    ((input.reverse ++ List.replicate 32 0).take 32).length = 32 := by
  rw [List.length_take, List.length_append, List.length_replicate]
  omega

/-- Crates for runs on small inputs: a digest is the last bytes of its input. -/
@[reducible] def Crates.lastBytes : Crates :=
  { Crates.zeroDigests with
    blake3 := fun input => ⟨(input.reverse ++ List.replicate 32 0).take 32, length_lastBytes input⟩ }

end ProofFrame
