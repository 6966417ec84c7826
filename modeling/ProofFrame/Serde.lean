import Mathlib.Data.List.Nodup
import Mathlib.Data.String.Basic
import Mathlib.Tactic.Tauto
import ProofFrame.Json
import ProofFrame.Lib.SortedMap

/-!
# Reading documents

What `serde_json` and the deserialisers derived with `serde` do with a parsed
document.  A derived deserialiser takes the members of an object, in any order,
or the items of an array in the order of its fields.

A document reaches a deserialiser either as it is written or as a `Value`, which
has dropped repeated members and sorted the others.  What a program has written
itself reads the same in both views (`Serde.View`).
-/

namespace ProofFrame

open Lib

mutual

/-- `Value`: of the members with one key the last one stays, and the others are in key order. -/
def Json.toValue : Json → Json
  | .null => .null
  | .bool value => .bool value
  | .number text => .number text
  | .string value => .string value
  | .array items => .array (Json.toValues items)
  | .object members => .object (Json.toMap members [])

def Json.toValues : List Json → List Json
  | [] => []
  | item :: items => item.toValue :: Json.toValues items

def Json.toMap : List (String × Json) → List (String × Json) → List (String × Json)
  | [], map => map
  | (key, value) :: members, map =>
      Json.toMap members (SortedMap.insert key value.toValue map)

end

/-- A number as `serde_json` writes it. -/
def Json.unsigned (value : ℕ) : Json := .number value.repr

/-- `Value::get` of a field name. -/
def Json.get (name : String) : Json → Option Json
  | .object members => SortedMap.find name members
  | _ => none

/-- `Value::as_str`. -/
def Json.asStr : Json → Option String
  | .string value => some value
  | _ => none

namespace Serde

/-! ## Fields -/

/-- What the visitor of a struct has for a field: `missing` from the members of an object, `cut`
at the end of an array. -/
inductive Slot where
  | value (json : Json)
  | missing
  | cut

abbrev Fields : Type := String → Slot

def Slot.ofMember : Option Json → Slot
  | some json => .value json
  | none => .missing

@[simp] theorem Slot.ofMember_some (json : Json) : ofMember (some json) = .value json := rfl

@[simp] theorem Slot.ofMember_none : ofMember none = .missing := rfl

/-- The visitor of a struct with the fields `names`.  A field may occur only once; other members
are errors under `deny_unknown_fields` and skipped otherwise. -/
def fields (strict : Bool) (names : List String) : Json → Option Fields
  | .object members =>
      if (∀ name ∈ names, members.countP (·.1 = name) ≤ 1) ∧
          (strict → ∀ member ∈ members, member.1 ∈ names) then
        some fun name => .ofMember (SortedMap.find name members)
      else none
  | .array items =>
      if items.length ≤ names.length then
        some fun name => match items[names.idxOf name]? with
          | some json => .value json
          | none => .cut
      else none
  | _ => none

/-- The visitor of a struct with flattened fields, which takes objects only. -/
def flattenedFields (names : List String) : Json → Option Fields
  | .object members => fields false names (.object members)
  | _ => none

section Read

variable {α : Type}

def required (read : Json → Option α) : Slot → Option α
  | .value json => read json
  | .missing | .cut => none

/-- A field of type `Option`. -/
def optional (read : Json → Option α) : Slot → Option (Option α)
  | .value .null => some none
  | .value json => (read json).map some
  | .missing => some none
  | .cut => none

/-- A field with `#[serde(default)]`. -/
def defaulted (read : Json → Option α) (default : α) : Slot → Option α
  | .value json => read json
  | .missing | .cut => some default

@[simp] theorem required_value (read : Json → Option α) (json : Json) :
    required read (.value json) = read json := rfl

theorem required_eq_some {read : Json → Option α} {slot : Slot} {value : α} :
    required read slot = some value ↔ ∃ json, slot = .value json ∧ read json = some value := by
  cases slot <;> simp [required]

/-! ## Values -/

def string : Json → Option String
  | .string value => some value
  | _ => none

theorem string_eq_some {json : Json} {value : String} :
    string json = some value ↔ json = .string value := by
  cases json <;> simp [string]

def bool : Json → Option Bool
  | .bool value => some value
  | _ => none

def list (read : Json → Option α) : Json → Option (List α)
  | .array items => items.mapM read
  | _ => none

/-- `str::parse` of an unsigned number, before its range is checked. -/
def parseUnsigned (text : String) : Option ℕ :=
  if text.toList ≠ [] ∧ text.toList.all Char.isDigit then
    some (Nat.ofDigitChars 10 text.toList 0)
  else none

def unsigned (bound : ℕ) : Json → Option ℕ
  | .number text => (parseUnsigned text).filter (· < bound)
  | _ => none

/-- `str::parse` of an `i64`. -/
def parseI64 (text : String) : Option ℤ :=
  match text.toList with
  | '-' :: digits =>
      ((parseUnsigned (String.ofList digits)).filter (· ≤ 2 ^ 63)).map fun value => -(value : ℤ)
  | _ => ((parseUnsigned text).filter (· < 2 ^ 63)).map Int.ofNat

/-- A `u64`, and a `usize`. -/
def u64 (json : Json) : Option UInt64 := (unsigned (2 ^ 64) json).map UInt64.ofNat

def u8 (json : Json) : Option UInt8 := (unsigned (2 ^ 8) json).map UInt8.ofNat

/-- An enumeration of plain names: the name, or an object that maps the name to `null`. -/
def variant (named : String → Option α) : Json → Option α
  | .string name => named name
  | .object [(name, .null)] => named name
  | _ => none

end Read

/-! ## Both views of a document -/

/-- A view in which the deserialisers see a document. -/
structure View (view : Json → Json) : Prop where
  bool : ∀ value, view (.bool value) = .bool value
  number : ∀ text, view (.number text) = .number text
  string : ∀ value, view (.string value) = .string value
  array : ∀ items, view (.array items) = .array (items.map view)
  fields : ∀ strict names members, (members.map Prod.fst).Nodup →
    (∀ name ∈ members.map Prod.fst, name ∈ names) →
    fields strict names (view (.object members)) =
      some fun name => .ofMember ((SortedMap.find name members).map view)
  get : ∀ name members, (members.map Prod.fst).Nodup →
    (view (.object members)).get name = (SortedMap.find name members).map view
  object : ∀ members, ∃ entries, view (.object members) = .object entries

theorem countP_key_le_one {members : List (String × Json)} (h : (members.map Prod.fst).Nodup)
    (name : String) : members.countP (·.1 = name) ≤ 1 := by
  have hcount := List.nodup_iff_count_le_one.mp h name
  rw [List.count_eq_countP, List.countP_map] at hcount
  refine (List.countP_congr fun member _ => ?_).trans_le hcount
  simp

theorem fields_object {strict : Bool} {names : List String} {members : List (String × Json)}
    (hnodup : (members.map Prod.fst).Nodup)
    (hnames : ∀ name ∈ members.map Prod.fst, name ∈ names) :
    fields strict names (.object members) =
      some fun name => .ofMember (SortedMap.find name members) := by
  rw [fields, if_pos]
  refine ⟨fun name _ => countP_key_le_one hnodup name, fun _ member hmember => ?_⟩
  exact hnames _ (List.mem_map_of_mem hmember)

theorem view_id : View id where
  bool _ := rfl
  number _ := rfl
  string _ := rfl
  array items := by rw [List.map_id]; rfl
  fields strict names members hnodup hnames := by
    simp only [Option.map_id]
    exact fields_object hnodup hnames
  get name members _ := by rw [Option.map_id]; rfl
  object members := ⟨members, rfl⟩

theorem toValues_eq_map (items : List Json) : Json.toValues items = items.map Json.toValue := by
  induction items with
  | nil => rfl
  | cons item items ih => rw [Json.toValues, ih, List.map_cons]

theorem keys_toMap {members map : List (String × Json)} {name : String} :
    name ∈ SortedMap.keys (Json.toMap members map) ↔
      name ∈ SortedMap.keys members ∨ name ∈ SortedMap.keys map := by
  induction members generalizing map with
  | nil => simp [Json.toMap, SortedMap.keys]
  | cons member members ih =>
      obtain ⟨key, value⟩ := member
      rw [Json.toMap, ih, SortedMap.mem_keys_insert]
      simp only [SortedMap.keys, List.map_cons, List.mem_cons]
      tauto

theorem ascending_toMap {members map : List (String × Json)} (h : SortedMap.Ascending map) :
    SortedMap.Ascending (Json.toMap members map) := by
  induction members generalizing map with
  | nil => exact h
  | cons member members ih => exact ih h.insert

/-- The last member with a key is the one that stays; where there is one it is the only one. -/
theorem find_toMap {members map : List (String × Json)} {name : String}
    (h : members.countP (·.1 = name) ≤ 1) :
    SortedMap.find name (Json.toMap members map) =
      ((SortedMap.find name members).map Json.toValue).or (SortedMap.find name map) := by
  induction members generalizing map with
  | nil => rfl
  | cons member members ih =>
      obtain ⟨key, value⟩ := member
      rw [List.countP_cons] at h
      rw [Json.toMap, ih (by omega), SortedMap.find_cons]
      by_cases heq : key = name
      · subst heq
        simp only [decide_true, if_true] at h
        have hzero : members.countP (·.1 = key) = 0 := by omega
        have hnone : SortedMap.find key members = none := by
          rw [SortedMap.find, Option.map_eq_none_iff, List.find?_eq_none]
          exact List.countP_eq_zero.mp hzero
        rw [hnone, if_pos rfl, SortedMap.find_insert_self]
        rfl
      · rw [if_neg heq, SortedMap.find_insert_of_ne fun h => heq h.symm]

/-! ## Values read as themselves -/

/-- A map of values that is in key order is built again from its members. -/
theorem toMap_eq_append {members map : List (String × Json)}
    (hascending : SortedMap.Ascending (map ++ members))
    (hfixed : ∀ member ∈ members, member.2.toValue = member.2) :
    Json.toMap members map = map ++ members := by
  induction members generalizing map with
  | nil => exact (List.append_nil map).symm
  | cons member members ih =>
      obtain ⟨key, value⟩ := member
      have hlt : ∀ other ∈ SortedMap.keys map, other < key := by
        unfold SortedMap.Ascending SortedMap.keys at hascending
        rw [List.map_append, List.pairwise_append] at hascending
        exact fun other hother => hascending.2.2 other hother key (List.mem_cons_self ..)
      have hvalue : value.toValue = value := hfixed (key, value) (List.mem_cons_self ..)
      rw [Json.toMap, hvalue, SortedMap.insert_of_forall_lt hlt, ih, List.append_assoc]
      · rfl
      · rwa [List.append_assoc]
      · exact fun other hother => hfixed other (List.mem_cons_of_mem _ hother)

/-- What holds of the values of the members holds of the values in the map. -/
theorem values_toMap {P : Json → Prop} {members map : List (String × Json)}
    (hmembers : ∀ member ∈ members, P member.2.toValue) (hmap : ∀ member ∈ map, P member.2) :
    ∀ member ∈ Json.toMap members map, P member.2 := by
  induction members generalizing map with
  | nil => exact hmap
  | cons member members ih =>
      obtain ⟨key, value⟩ := member
      refine ih (fun other hother => hmembers other (List.mem_cons_of_mem _ hother)) ?_
      intro other hother
      rcases SortedMap.eq_or_mem_of_mem_insert hother with rfl | hmem
      · exact hmembers (key, value) (List.mem_cons_self ..)
      · exact hmap other hmem

mutual

theorem toValue_toValue : ∀ json : Json, json.toValue.toValue = json.toValue
  | .null | .bool _ | .number _ | .string _ => by simp only [Json.toValue]
  | .array items => by rw [Json.toValue, Json.toValue, toValues_toValues items]
  | .object members => by
      have hfixed : ∀ member ∈ Json.toMap members [], member.2.toValue = member.2 :=
        values_toMap (P := fun value => value.toValue = value) (members_toValue members) (by simp)
      have hascending : SortedMap.Ascending (Json.toMap members []) := ascending_toMap .nil
      rw [Json.toValue, Json.toValue, toMap_eq_append hascending hfixed, List.nil_append]

theorem toValues_toValues : ∀ items, Json.toValues (Json.toValues items) = Json.toValues items
  | [] => rfl
  | item :: items => by
      rw [Json.toValues, Json.toValues, toValue_toValue item, toValues_toValues items]

theorem members_toValue : ∀ members : List (String × Json), ∀ member ∈ members,
    member.2.toValue.toValue = member.2.toValue
  | [], _, h => absurd h List.not_mem_nil
  | (_, value) :: members, member, h => by
      rcases List.mem_cons.mp h with rfl | hmem
      · exact toValue_toValue value
      · exact members_toValue members member hmem

end

theorem view_toValue : View Json.toValue where
  bool _ := rfl
  number _ := rfl
  string _ := rfl
  array items := by rw [Json.toValue, toValues_eq_map]
  fields strict names members hnodup hnames := by
    rw [Json.toValue, fields_object (ascending_toMap .nil).nodup]
    · simp only [find_toMap (countP_key_le_one hnodup _), SortedMap.find_nil, Option.or_none]
    · intro name hname
      exact hnames name ((keys_toMap.mp hname).resolve_right (by simp [SortedMap.keys]))
  get name members hnodup := by
    rw [Json.toValue, Json.get, find_toMap (countP_key_le_one hnodup name), SortedMap.find_nil,
      Option.or_none]
  object members := ⟨_, rfl⟩

/-! ## What is written reads back -/

theorem parseUnsigned_repr (value : ℕ) : parseUnsigned value.repr = some value := by
  have hdigits : (value.repr.toList.all Char.isDigit) = true := by
    rw [Nat.toList_repr, List.all_eq_true]
    exact fun c hc => Nat.isDigit_of_mem_toDigits (by decide) (by decide) hc
  have hne : value.repr.toList ≠ [] := by
    rw [Nat.toList_repr]
    exact Nat.toDigits_ne_nil
  rw [parseUnsigned, if_pos ⟨hne, hdigits⟩, Nat.toList_repr, Nat.ofDigitChars_ten_toDigits]

namespace View

variable {view : Json → Json} (hview : View view) {α : Type}

include hview

/-- A struct that was written with the members `members`. -/
theorem fields_members {strict : Bool} {names : List String} {members : List (String × Json)}
    (hnames : members.map Prod.fst = names) (hnodup : names.Nodup) :
    Serde.fields strict names (view (.object members)) =
      some fun name => .ofMember ((SortedMap.find name members).map view) :=
  hview.fields strict names members (hnames ▸ hnodup) fun _ hname => hnames ▸ hname

theorem string_text (value : String) : Serde.string (view (.string value)) = some value := by
  rw [hview.string]
  rfl

theorem bool_value (value : Bool) : Serde.bool (view (.bool value)) = some value := by
  rw [hview.bool]
  rfl

theorem unsigned_value {value bound : ℕ} (h : value < bound) :
    Serde.unsigned bound (view (.unsigned value)) = some value := by
  rw [Json.unsigned, hview.number, Serde.unsigned, parseUnsigned_repr, Option.filter_some,
    decide_eq_true h]
  rfl

theorem u64_value (value : UInt64) : Serde.u64 (view (.unsigned value.toNat)) = some value := by
  rw [Serde.u64, hview.unsigned_value value.toNat_lt, Option.map_some, UInt64.ofNat_toNat]

theorem u8_value (value : UInt8) : Serde.u8 (view (.unsigned value.toNat)) = some value := by
  rw [Serde.u8, hview.unsigned_value value.toNat_lt, Option.map_some, UInt8.ofNat_toNat]

theorem variant_name (named : String → Option α) (name : String) :
    Serde.variant named (view (.string name)) = named name := by
  rw [hview.string]
  rfl

theorem list_map {read : Json → Option α} {write : α → Json} {values : List α}
    (h : ∀ value ∈ values, read (view (write value)) = some value) :
    Serde.list read (view (.array (values.map write))) = some values := by
  rw [hview.array, Serde.list, List.map_map]
  induction values with
  | nil => rfl
  | cons value values ih =>
      rw [List.map_cons, List.mapM_cons, Function.comp_apply, h value (List.mem_cons_self ..),
        ih fun other hother => h other (List.mem_cons_of_mem _ hother)]
      rfl

end View

end Serde

end ProofFrame
