import ProofFrame.Error
import ProofFrame.Execution.Cells
import ProofFrame.Serde

/-!
# Documents as texts

The compact text `serde_json` writes for a document, and what it reads a text as.
The parser is a parameter with one law (`SerdeJson.Reads`): it reads back what was
written, as long as the document nests no deeper than it follows and no object of it
looks like a number.
-/

namespace ProofFrame

open Lib

/-! ## Writing -/

/-- A character of a string, escaped where it has to be. -/
def escapeChar (c : Char) : List Char :=
  if c = '"' then ['\\', '"']
  else if c = '\\' then ['\\', '\\']
  else if c.toNat = 8 then ['\\', 'b']
  else if c.toNat = 9 then ['\\', 't']
  else if c.toNat = 10 then ['\\', 'n']
  else if c.toNat = 12 then ['\\', 'f']
  else if c.toNat = 13 then ['\\', 'r']
  else if c.toNat < 32 then
    ['\\', 'u', '0', '0', Nat.digitChar (c.toNat / 16), Nat.digitChar (c.toNat % 16)]
  else [c]

def quoted (text : String) : List Char := '"' :: text.toList.flatMap escapeChar ++ ['"']

mutual

def Json.compactChars : Json → List Char
  | .null => ['n', 'u', 'l', 'l']
  | .bool true => ['t', 'r', 'u', 'e']
  | .bool false => ['f', 'a', 'l', 's', 'e']
  | .number text => text.toList
  | .string value => quoted value
  | .array items => '[' :: Json.compactItems items ++ [']']
  | .object members => '\x7b' :: Json.compactMembers members ++ ['\x7d']

def Json.compactItems : List Json → List Char
  | [] => []
  | [item] => item.compactChars
  | item :: items => item.compactChars ++ ',' :: Json.compactItems items

def Json.compactMembers : List (String × Json) → List Char
  | [] => []
  | [(name, value)] => quoted name ++ ':' :: value.compactChars
  | (name, value) :: members =>
      quoted name ++ ':' :: value.compactChars ++ ',' :: Json.compactMembers members

end

/-- `serde_json::to_string` of a document. -/
def Json.compact (json : Json) : String := String.ofList json.compactChars

/-! ## What is read back -/

mutual

/-- How many arrays and objects stand in each other. -/
def Json.nesting : Json → ℕ
  | .array items => Json.itemsNesting items + 1
  | .object members => Json.membersNesting members + 1
  | .null | .bool _ | .number _ | .string _ => 0

def Json.itemsNesting : List Json → ℕ
  | [] => 0
  | item :: items => max item.nesting (Json.itemsNesting items)

def Json.membersNesting : List (String × Json) → ℕ
  | [] => 0
  | (_, value) :: members => max value.nesting (Json.membersNesting members)

end

mutual

/-- The document and all the documents in it satisfy `p`. -/
def Json.all (p : Json → Bool) : Json → Bool
  | .array items => p (.array items) && Json.allItems p items
  | .object members => p (.object members) && Json.allMembers p members
  | .null => p .null
  | .bool value => p (.bool value)
  | .number text => p (.number text)
  | .string value => p (.string value)

def Json.allItems (p : Json → Bool) : List Json → Bool
  | [] => true
  | item :: items => item.all p && Json.allItems p items

def Json.allMembers (p : Json → Bool) : List (String × Json) → Bool
  | [] => true
  | (_, value) :: members => value.all p && Json.allMembers p members

end

/-- `Deserializer` counts down from 128 and stops at zero. -/
def maxNesting : ℕ := 127

/-- The key under which a number is passed on, with the feature `arbitrary_precision`. -/
def numberKey : String := "$serde_json::private::Number"

def Json.hasNumber (kept : String → Bool) : Json → Bool
  | .number text => kept text
  | _ => true

/-- Not an object that is taken for a number, because its first key is that of numbers. -/
def Json.isPlain : Json → Bool
  | .object ((name, _) :: _) => name != numberKey
  | _ => true

/-- Not an object that is taken for a number and goes on. -/
def Json.isUncrowded : Json → Bool
  | .object ((name, _) :: _ :: _) => name != numberKey
  | _ => true

/-- A document the parser can follow, where it keeps the texts of the numbers `kept`. -/
structure Json.Readable (kept : String → Bool) (depth : ℕ) (json : Json) : Prop where
  numbers : json.all (Json.hasNumber kept) = true
  plain : json.all Json.isPlain = true
  nesting : json.nesting ≤ depth

namespace Json

/-- Induction on a document, by what is in it. -/
@[elab_as_elim]
theorem documents {P : Json → Prop} (null : P .null) (bool : ∀ value, P (.bool value))
    (number : ∀ text, P (.number text)) (string : ∀ value, P (.string value))
    (array : ∀ items : List Json, (∀ item ∈ items, P item) → P (.array items))
    (object : ∀ members : List (String × Json), (∀ member ∈ members, P member.2) →
      P (.object members)) (json : Json) : P json := by
  refine @Json.rec P (fun items => ∀ item ∈ items, P item)
    (fun members => ∀ member ∈ members, P member.2) (fun member => P member.2) null bool number
    string array object (by simp) ?_ (by simp) ?_ (fun _ _ h => h) json
  · intro item items hitem hitems
    exact List.forall_mem_cons.mpr ⟨hitem, hitems⟩
  · intro member members hmember hmembers
    exact List.forall_mem_cons.mpr ⟨hmember, hmembers⟩

variable {kept : String → Bool} {depth : ℕ}

theorem allItems_iff {p : Json → Bool} {items : List Json} :
    allItems p items = true ↔ ∀ item ∈ items, item.all p = true := by
  induction items with
  | nil => simp [allItems]
  | cons item items ih => simp [allItems, ih]

theorem allMembers_iff {p : Json → Bool} {members : List (String × Json)} :
    allMembers p members = true ↔ ∀ member ∈ members, member.2.all p = true := by
  induction members with
  | nil => simp [allMembers]
  | cons member members ih => simp [allMembers, ih]

theorem itemsNesting_le_iff {items : List Json} :
    itemsNesting items ≤ depth ↔ ∀ item ∈ items, item.nesting ≤ depth := by
  induction items with
  | nil => simp [itemsNesting]
  | cons item items ih => simp [itemsNesting, ih]

theorem membersNesting_le_iff {members : List (String × Json)} :
    membersNesting members ≤ depth ↔ ∀ member ∈ members, member.2.nesting ≤ depth := by
  induction members with
  | nil => simp [membersNesting]
  | cons member members ih => simp [membersNesting, ih]

namespace Readable

theorem mono {deeper : ℕ} (hle : depth ≤ deeper) {json : Json} (h : json.Readable kept depth) :
    json.Readable kept deeper :=
  ⟨h.numbers, h.plain, h.nesting.trans hle⟩

theorem null : Json.null.Readable kept depth := ⟨rfl, rfl, Nat.zero_le _⟩

theorem bool (value : Bool) : (Json.bool value).Readable kept depth := ⟨rfl, rfl, Nat.zero_le _⟩

theorem string (value : String) : (Json.string value).Readable kept depth :=
  ⟨rfl, rfl, Nat.zero_le _⟩

theorem number {text : String} (h : kept text = true) : (Json.number text).Readable kept depth :=
  ⟨h, rfl, Nat.zero_le _⟩

theorem unsigned (hkept : ∀ value : ℕ, kept value.repr = true) (value : ℕ) :
    (Json.unsigned value).Readable kept depth :=
  number (hkept value)

theorem array {items : List Json} (h : ∀ item ∈ items, item.Readable kept depth) :
    (Json.array items).Readable kept (depth + 1) where
  numbers := allItems_iff.mpr fun item hitem => (h item hitem).numbers
  plain := allItems_iff.mpr fun item hitem => (h item hitem).plain
  nesting := Nat.succ_le_succ (itemsNesting_le_iff.mpr fun item hitem => (h item hitem).nesting)

theorem object {members : List (String × Json)}
    (hplain : Json.isPlain (.object members) = true)
    (h : ∀ member ∈ members, member.2.Readable kept depth) :
    (Json.object members).Readable kept (depth + 1) where
  numbers := allMembers_iff.mpr fun member hmember => (h member hmember).numbers
  plain := by
    rw [Json.all, hplain, Bool.true_and]
    exact allMembers_iff.mpr fun member hmember => (h member hmember).plain
  nesting :=
    Nat.succ_le_succ (membersNesting_le_iff.mpr fun member hmember => (h member hmember).nesting)

end Readable

end Json

/-! ## Reading -/

/-- `serde_json` and the messages of the deserialisers. -/
class SerdeJson where
  /-- The document of a text, with its members as they are written.  What is passed on as a number
  is a number. -/
  parse : String → Except String Json
  /-- Why a text is not of the type, where its document is not. -/
  textError : (target source : String) → String
  /-- Why a value is not of the type. -/
  valueError : (target : String) → Json → String

variable [SerdeJson] {α : Type}

/-- `serde_json::from_str` of a type with the deserialiser `decode`. -/
def fromStr (target : String) (decode : Json → Option α) (source : String) : Except Fault α :=
  match SerdeJson.parse source with
  | .error message => .error (.error (.json message))
  | .ok json => match decode json with
    | some value => .ok value
    | none => .error (.error (.json (SerdeJson.textError target source)))

/-- `serde_json::from_value`. -/
def fromValue (target : String) (decode : Json → Option α) (json : Json) : Except Fault α :=
  match decode json with
  | some value => .ok value
  | none => .error (.error (.json (SerdeJson.valueError target json)))

/-- The parser reads the document that was written. -/
def ReadsBack (json : Json) : Prop := SerdeJson.parse json.compact = .ok json

/-- What the parser makes of texts.  Of the numbers it keeps the texts of those that are `kept`, and
it reads no others. -/
structure SerdeJson.Reads (kept : String → Bool) : Prop where
  unsigned : ∀ value : ℕ, kept value.repr = true
  written : ∀ json : Json, json.Readable kept maxNesting → ReadsBack json
  parsed : ∀ text json, SerdeJson.parse text = .ok json → json.Readable kept maxNesting
  refused : ∀ json : Json, json.all (Json.hasNumber kept) = true →
    maxNesting < json.nesting ∨ json.all Json.isUncrowded = false →
    ∃ message, SerdeJson.parse json.compact = .error message

theorem fromStr_eq_ok {target source : String} {decode : Json → Option α} {value : α} :
    fromStr target decode source = .ok value ↔
      ∃ json, SerdeJson.parse source = .ok json ∧ decode json = some value := by
  unfold fromStr
  cases SerdeJson.parse source with
  | error message => simp
  | ok json => cases hdecode : decode json <;> simp [hdecode]

theorem fromValue_eq_ok {target : String} {decode : Json → Option α} {json : Json} {value : α} :
    fromValue target decode json = .ok value ↔ decode json = some value := by
  unfold fromValue
  cases decode json <;> simp

theorem fromStr_compact {target : String} {decode : Json → Option α} {json : Json} {value : α}
    (hparse : ReadsBack json) (hdecode : decode json = some value) :
    fromStr target decode json.compact = .ok value :=
  fromStr_eq_ok.mpr ⟨json, hparse, hdecode⟩

/-! ## Values of what was read -/

section Values

omit [SerdeJson]

variable {kept : String → Bool}

theorem numbers_toValue (json : Json) (h : json.all (Json.hasNumber kept) = true) :
    json.toValue.all (Json.hasNumber kept) = true := by
  induction json using Json.documents with
  | null | bool | number | string => simpa only [Json.toValue] using h
  | array items ih =>
      rw [Json.toValue, Serde.toValues_eq_map]
      refine Json.allItems_iff.mpr (List.forall_mem_map.mpr fun item hitem => ?_)
      exact ih item hitem (Json.allItems_iff.mp h item hitem)
  | object members ih =>
      rw [Json.toValue]
      exact Json.allMembers_iff.mpr (Serde.values_toMap
        (P := fun value => value.all (Json.hasNumber kept) = true)
        (fun member hmember => ih member hmember (Json.allMembers_iff.mp h member hmember))
        (by simp))

/-- The keys of a value are in another order.  An object that is taken for a number then has a
member that was before its first. -/
theorem plain_toValue (json : Json) (h : json.all Json.isPlain = true)
    (hvalue : json.toValue.all Json.isUncrowded = true) :
    json.toValue.all Json.isPlain = true := by
  induction json using Json.documents with
  | null | bool | number | string => simp only [Json.toValue]; rfl
  | array items ih =>
      rw [Json.toValue, Serde.toValues_eq_map] at hvalue ⊢
      refine Json.allItems_iff.mpr (List.forall_mem_map.mpr fun item hitem => ?_)
      exact ih item hitem (Json.allItems_iff.mp h item hitem)
        (Json.allItems_iff.mp hvalue _ (List.mem_map_of_mem hitem))
  | object members ih =>
      rw [Json.toValue] at hvalue ⊢
      rw [Json.all, Bool.and_eq_true] at h hvalue ⊢
      have hkeys : ∀ name, name ∈ SortedMap.keys (Json.toMap members []) ↔
          name ∈ SortedMap.keys members := fun name => by
          simpa [SortedMap.keys] using @Serde.keys_toMap members [] name
      refine ⟨?_, ?_⟩
      · generalize Json.toMap members [] = map at hkeys hvalue
        rcases map with _ | ⟨⟨name, value⟩, _ | ⟨other, rest⟩⟩
        · rfl
        · -- the only key is that of every member
          cases members with
          | nil => exact absurd ((hkeys name).mp (List.mem_cons_self ..)) List.not_mem_nil
          | cons first members =>
              have hname : first.1 = name := by
                simpa [SortedMap.keys] using (hkeys first.1).mpr (List.mem_cons_self ..)
              rw [← hname]
              exact h.1
        · exact hvalue.1
      · have hmap := @Serde.values_toMap
          (fun value => value.all Json.isUncrowded = true → value.all Json.isPlain = true) members []
          (fun member hmember => ih member hmember (Json.allMembers_iff.mp h.2 member hmember))
          (by simp)
        exact Json.allMembers_iff.mpr fun member hmember =>
          hmap member hmember (Json.allMembers_iff.mp hvalue.2 member hmember)

end Values

/-! ## How long a text is -/

omit [SerdeJson]

theorem length_le_utf8Bytes (text : String) : text.toList.length ≤ (utf8Bytes text).length := by
  rw [utf8Bytes]
  induction text.toList with
  | nil => exact le_rfl
  | cons c chars ih =>
      have hchar : 1 ≤ (String.utf8EncodeChar c).length := by
        rw [String.length_utf8EncodeChar]
        exact c.utf8Size_pos
      rw [List.flatMap_cons, List.length_append, List.length_cons]
      omega

theorem sum_length_le_compactItems (items : List Json) :
    (items.map fun item => item.compactChars.length).sum ≤ (Json.compactItems items).length := by
  induction items with
  | nil => exact le_rfl
  | cons item items ih =>
      cases items with
      | nil => simp [Json.compactItems]
      | cons next items =>
          rw [Json.compactItems, List.map_cons, List.sum_cons, List.length_append, List.length_cons]
          · omega
          · simp

theorem sum_length_le_compactMembers (members : List (String × Json)) :
    (members.map fun member => (quoted member.1).length + member.2.compactChars.length).sum ≤
      (Json.compactMembers members).length := by
  induction members with
  | nil => exact le_rfl
  | cons member members ih =>
      obtain ⟨name, value⟩ := member
      cases members with
      | nil => simp [Json.compactMembers]
      | cons next members =>
          rw [Json.compactMembers, List.map_cons, List.sum_cons]
          · simp only [List.length_append, List.length_cons]
            omega
          · simp

/-- An array is at least as long as its items together. -/
theorem sum_length_le_array (items : List Json) :
    (items.map fun item => item.compactChars.length).sum ≤
      (Json.array items).compactChars.length := by
  have h := sum_length_le_compactItems items
  simp only [Json.compactChars, List.length_append, List.length_cons]
  omega

/-- An object is at least as long as its names and values together. -/
theorem sum_length_le_object (members : List (String × Json)) :
    (members.map fun member => (quoted member.1).length + member.2.compactChars.length).sum ≤
      (Json.object members).compactChars.length := by
  have h := sum_length_le_compactMembers members
  simp only [Json.compactChars, List.length_append, List.length_cons]
  omega

end ProofFrame
