import ProofFrame.Encoding.Fingerprint
import ProofFrame.Lib.Base64
import ProofFrame.Lib.Ieee754.Decimal
import ProofFrame.Lib.SortedMap
import ProofFrame.Lib.Steps
import ProofFrame.Serde
import Mathlib.Data.List.Sort

/-!
# Values of the Python layer

The values documents have in Python, what subscripting and comparing them does,
the canonical text `json.dumps` writes for them, and the functions of the standard
library and of `cryptography` the acceptance bundles rest on.
-/

namespace ProofFrame

open Lib Lib.Ieee754 Lib.Run

/-- A value of `json`.  A dict lists its items in the order they were inserted. -/
inductive PyValue where
  | none
  | bool (value : Bool)
  | int (value : ℤ)
  | float (value : F64)
  | str (value : String)
  | list (items : List PyValue)
  | dict (items : List (String × PyValue))

/-- Exceptions, as far as the program tells them apart. -/
inductive PyError where
  /-- `ContractError`. -/
  | contract
  /-- An `OSError`, an `ArrowException` or any other `ProofFrameError`, with its class name. -/
  | operational (name : String)
  | key
  | index
  | value
  | type
  | attribute
  deriving DecidableEq

namespace PyError

/-- `except (KeyError, ValueError, TypeError)`. -/
def isMalformed : PyError → Bool
  | .key | .value | .type => true
  | _ => false

end PyError

namespace PyValue

/-! ## Types and subscripts -/

/-- The types `isinstance` is asked about. -/
inductive Kind where
  | bool
  | int
  | str
  | list
  | dict
  deriving DecidableEq

/-- `isinstance`.  A `bool` is an `int`. -/
def isInstance : PyValue → Kind → Bool
  | .bool _, .bool | .bool _, .int | .int _, .int => true
  | .str _, .str | .list _, .list | .dict _, .dict => true
  | _, _ => false

def isNone : PyValue → Bool
  | .none => true
  | _ => false

/-- `value == text`. -/
def equals : PyValue → String → Bool
  | .str value, text => value = text
  | _, _ => false

/-- `value[key]` with a string for the key. -/
def getItem (value : PyValue) (key : String) : Except PyError PyValue :=
  match value with
  | .dict items => required (SortedMap.find key items) .key
  | _ => .error .type

/-- `set(value) == names`. -/
def hasKeys (items : List (String × PyValue)) (names : List String) : Bool :=
  names.all (· ∈ SortedMap.keys items) && (SortedMap.keys items).all (· ∈ names)

/-- `items[key] = value`: the item keeps its place if there is one. -/
def setItem {α : Type} (key : String) (value : α) : List (String × α) → List (String × α)
  | [] => [(key, value)]
  | item :: items =>
      if item.1 = key then (key, value) :: items else item :: setItem key value items

/-- `items.update(changes)`. -/
def update (items changes : List (String × PyValue)) : List (String × PyValue) :=
  changes.foldl (fun items change => setItem change.1 change.2 items) items

/-- `items.setdefault(key, value)`. -/
def setDefault (key : String) (value : PyValue) (items : List (String × PyValue)) :
    List (String × PyValue) :=
  match SortedMap.find key items with
  | some _ => items
  | .none => items ++ [(key, value)]

theorem find_setItem {α : Type} {key name : String} {value : α} {items : List (String × α)} :
    SortedMap.find name (setItem key value items) =
      if key = name then some value else SortedMap.find name items := by
  induction items with
  | nil => rw [setItem, SortedMap.find_cons]
  | cons item items ih =>
      obtain ⟨other, _⟩ := item
      rw [setItem]
      by_cases heq : other = key
      · subst heq
        rw [if_pos rfl, SortedMap.find_cons, SortedMap.find_cons]
        split <;> rfl
      · rw [if_neg heq, SortedMap.find_cons, ih, SortedMap.find_cons]
        by_cases hname : other = name
        · rw [if_pos hname, if_pos hname, if_neg fun hkey => heq (hname.trans hkey.symm)]
        · rw [if_neg hname, if_neg hname]

@[simp] theorem getItem_dict (items : List (String × PyValue)) (key : String) :
    (PyValue.dict items).getItem key = required (SortedMap.find key items) .key := rfl

/-! ## `json.dumps` and `json.loads` -/

/-- `\uXXXX`. -/
def unicodeEscape (unit : ℕ) : List Char :=
  ['\\', 'u', Nat.digitChar (unit / 4096 % 16), Nat.digitChar (unit / 256 % 16),
    Nat.digitChar (unit / 16 % 16), Nat.digitChar (unit % 16)]

/-- A character with `ensure_ascii`; past the basic plane it is a pair of surrogates. -/
def escapeAscii (c : Char) : List Char :=
  let code := c.toNat
  if c = '"' then ['\\', '"']
  else if c = '\\' then ['\\', '\\']
  else if code = 8 then ['\\', 'b']
  else if code = 9 then ['\\', 't']
  else if code = 10 then ['\\', 'n']
  else if code = 12 then ['\\', 'f']
  else if code = 13 then ['\\', 'r']
  else if 32 ≤ code ∧ code ≤ 126 then [c]
  else if code < 0x10000 then unicodeEscape code
  else unicodeEscape (0xD800 + (code - 0x10000) / 0x400) ++
    unicodeEscape (0xDC00 + (code - 0x10000) % 0x400)

def quotedText (text : String) : List Char := '"' :: text.toList.flatMap escapeAscii ++ ['"']

/-- The digits of a float behind its sign, with the exponent where `repr` writes one. -/
def floatDigits (coefficient : ℕ) (exponent : ℤ) : String :=
  let digits := toString coefficient
  let point : ℤ := digits.length + exponent
  if -4 < point ∧ point ≤ 16 then
    let plain := Ieee.plainDecimal coefficient exponent
    if plain.toList.contains '.' then plain else plain ++ ".0"
  else
    let fraction := digits.toList.drop 1
    let mantissa := digits.toList.take 1 ++ if fraction.isEmpty then [] else '.' :: fraction
    let scale := toString (point - 1).natAbs
    String.ofList mantissa ++ (if point - 1 < 0 then "e-" else "e+") ++
      (if scale.length < 2 then "0" else "") ++ scale

/-- `float.__repr__` of a finite float. -/
def floatRepr (x : F64) : String :=
  let sign := if x.negative then "-" else ""
  if x.magnitude = (0 : ℕ) then sign ++ "0.0"
  else
    let decimal := Ieee.shortest .even x.magnitude |x.toRat|
    sign ++ floatDigits decimal.1 decimal.2

/-- The items by ascending key. -/
def sortKeys {α : Type} (items : List (String × α)) : List (String × α) :=
  items.insertionSort fun left right => left.1 ≤ right.1

/-- The parts with commas between them. -/
def joined : List (List Char) → List Char
  | [] => []
  | [part] => part
  | part :: parts => part ++ ',' :: joined parts

mutual

/-- The text with `sort_keys` and compact separators. -/
def text : PyValue → List Char
  | .none => ['n', 'u', 'l', 'l']
  | .bool true => ['t', 'r', 'u', 'e']
  | .bool false => ['f', 'a', 'l', 's', 'e']
  | .int value => (toString value).toList
  | .float value => (floatRepr value).toList
  | .str value => quotedText value
  | .list items => '[' :: joined (itemTexts items) ++ [']']
  | .dict items => '\x7b' :: joined ((sortKeys (memberTexts items)).map fun member =>
      quotedText member.1 ++ ':' :: member.2) ++ ['\x7d']

def itemTexts : List PyValue → List (List Char)
  | [] => []
  | item :: items => text item :: itemTexts items

def memberTexts : List (String × PyValue) → List (String × List Char)
  | [] => []
  | (name, value) :: items => (name, text value) :: memberTexts items

end

mutual

/-- Whether `allow_nan=False` lets the value pass. -/
def isFinite : PyValue → Bool
  | .float value => !value.isNaN && !value.isInfinite
  | .list items => areFinite items
  | .dict items => membersFinite items
  | _ => true

def areFinite : List PyValue → Bool
  | [] => true
  | item :: items => isFinite item && areFinite items

def membersFinite : List (String × PyValue) → Bool
  | [] => true
  | (_, value) :: items => isFinite value && membersFinite items

end

mutual

/-- The value with the items of every dict by ascending key. -/
def sorted : PyValue → PyValue
  | .list items => .list (sortedItems items)
  | .dict items => .dict (sortKeys (sortedMembers items))
  | value => value

def sortedItems : List PyValue → List PyValue
  | [] => []
  | item :: items => sorted item :: sortedItems items

def sortedMembers : List (String × PyValue) → List (String × PyValue)
  | [] => []
  | (name, value) :: items => (name, sorted value) :: sortedMembers items

end

/-- `_canonical`.  The text is ASCII. -/
def canonical (value : PyValue) : Except PyError (List UInt8) := do
  rejectIf (value.isFinite = false) .value
  .ok (value.text.map fun c => UInt8.ofNat c.toNat)

/-- `json.loads(_canonical(value))`: reading a canonical text gives its value back, with the items
of each dict in the order of the text. -/
def reloaded (value : PyValue) : Except PyError PyValue := do
  rejectIf (value.isFinite = false) .value
  .ok value.sorted

end PyValue

/-! ## Libraries -/

/-- The functions the Python layer calls and whose results it only compares or passes on. -/
class PyLibraries where
  /-- `hashlib.sha256`. -/
  sha256 : List UInt8 → Digest
  /-- `as_f64` of a number of the native engine. -/
  asF64 : String → Option F64
  /-- Whether `base64.b64decode` with `validate` lets padding follow a complete last group: it does
  since Python 3.11. -/
  extraPadding : Bool
  /-- `csv.ConvertOptions().null_values`. -/
  nullValues : List String
  /-- Why the options of the CSV reader cannot be built from the settings, if they cannot. -/
  csvOptionsError : PyValue → Option PyError
  /-- `Ed25519PublicKey.from_public_bytes` of 32 bytes. -/
  acceptsKey : List UInt8 → Bool
  /-- `Ed25519PrivateKey.public_key`. -/
  publicKey : List UInt8 → List UInt8
  sign : (secret message : List UInt8) → List UInt8
  /-- Whether `Ed25519PublicKey.verify` raises nothing. -/
  verify : (key signature message : List UInt8) → Bool

/-- Libraries for runs that look at no digest and at no number: every signature is the same. -/
@[reducible] def PyLibraries.blank : PyLibraries where
  sha256 _ := ⟨List.replicate 32 0, List.length_replicate⟩
  asF64 _ := none
  extraPadding := true
  nullValues := []
  csvOptionsError _ := none
  acceptsKey key := key.length = 32
  publicKey secret := secret
  sign _ _ := List.replicate 64 0
  verify _ value _ := value = List.replicate 64 0

section Libraries

variable [PyLibraries]

namespace PyValue

/-! ## Texts of bytes -/

/-- `_encode`. -/
def encode (bytes : List UInt8) : String :=
  String.ofList ((Base64.digits bytes).map Base64.digitChar)

/-- Whether padding may end a text of this data. -/
def paddingFits (data padding : List Char) : Bool :=
  padding.all (· = '=') && (padding.length ≤ 2 ||
    PyLibraries.extraPadding && !data.isEmpty && data.length % 4 = 0)

/-- `_decode` of a string. -/
def decodeText (text : String) : Except PyError (List UInt8) :=
  let padded := text.toList ++ List.replicate ((4 - text.toList.length % 4) % 4) '='
  let data := padded.takeWhile (· ≠ '=')
  let padding := padded.dropWhile (· ≠ '=')
  if paddingFits data padding then
    required ((data.mapM Base64.charDigit).bind Base64.bytes) .value
  else .error .value

/-- `_decode`. -/
def decode : PyValue → Except PyError (List UInt8)
  | .str text => decodeText text
  | _ => .error .type

theorem decodeText_encode (bytes : List UInt8) : decodeText (encode bytes) = .ok bytes := by
  have hlt := @Base64.lt_of_mem_digits bytes
  have hlength := Base64.length_digits bytes
  set chars := (Base64.digits bytes).map Base64.digitChar with hchars
  have hcount : chars.length = (Base64.digits bytes).length := List.length_map _
  have hdata : ∀ c ∈ chars, (decide (c ≠ '=')) = true := by
    intro c hc
    obtain ⟨digit, hdigit, rfl⟩ := List.mem_map.mp hc
    exact decide_eq_true (Base64.charDigit_digitChar (hlt digit hdigit)).2
  rw [encode, ← hchars, decodeText, String.toList_ofList]
  set missing := (4 - chars.length % 4) % 4
  have hmissing : missing ≤ 2 := by omega
  have htake : (chars ++ List.replicate missing '=').takeWhile (fun c => decide (c ≠ '=')) =
      chars := by
    rw [List.takeWhile_append_of_pos hdata]
    cases missing <;> simp [List.replicate_succ]
  have hdrop : (chars ++ List.replicate missing '=').dropWhile (fun c => decide (c ≠ '=')) =
      List.replicate missing '=' := by
    rw [List.dropWhile_append_of_pos hdata]
    cases missing <;> simp [List.replicate_succ]
  have hfits : paddingFits chars (List.replicate missing '=') = true := by
    rw [paddingFits, List.length_replicate, decide_eq_true hmissing]
    simp
  rw [htake, hdrop, if_pos hfits, hchars, Base64.mapM_charDigit hlt]
  simp only [Option.bind_some, Base64.bytes_digits]
  rfl

theorem failsWith_decodeText (text : String) : FailsWith (· = PyError.value) (decodeText text) := by
  unfold decodeText
  dsimp only
  split
  · exact failsWith_required rfl
  · exact failsWith_error rfl

end PyValue

/-- `_digest`. -/
def PyValue.digest (value : PyValue) : Except PyError String := do
  let bytes ← value.canonical
  .ok (String.ofList ((PyLibraries.sha256 bytes).val.flatMap hexByte))

mutual

/-- `value_to_python`. -/
def valueToPython : Json → Except PyError PyValue
  | .null => .ok .none
  | .bool value => .ok (.bool value)
  | .number text =>
      match Serde.parseI64 text, Serde.unsigned (2 ^ 64) (.number text) with
      | some value, _ => .ok (.int value)
      | none, some value => .ok (.int value)
      | none, none => (required (PyLibraries.asF64 text) .contract).map .float
  | .string value => .ok (.str value)
  | .array items => (itemsToPython items).map .list
  | .object members => (membersToPython members).map .dict

def itemsToPython : List Json → Except PyError (List PyValue)
  | [] => .ok []
  | item :: items => do
      let item ← valueToPython item
      let items ← itemsToPython items
      .ok (item :: items)

/-- The keys of a native map are distinct, so each item is a new one. -/
def membersToPython : List (String × Json) → Except PyError (List (String × PyValue))
  | [] => .ok []
  | (name, value) :: members => do
      let value ← valueToPython value
      let members ← membersToPython members
      .ok ((name, value) :: members)

end

/-! ## What native values become -/

theorem valueToPython_unsigned {value : ℕ} (h : value < 2 ^ 64) :
    valueToPython (.unsigned value) = .ok (.int value) := by
  have hunsigned : Serde.unsigned (2 ^ 64) (.number value.repr) = some value := by
    rw [Serde.unsigned, Serde.parseUnsigned_repr, Option.filter_some, decide_eq_true h]
    rfl
  have hsigned : ∀ signed, Serde.parseI64 value.repr = some signed → signed = value := by
    intro signed hsigned
    unfold Serde.parseI64 at hsigned
    split at hsigned
    · rename_i digits heq
      have hdigit : ('-' : Char).isDigit = true := by
        apply Nat.isDigit_of_mem_toDigits (b := 10) (n := value) (by decide) (by decide)
        rw [← Nat.toList_repr, heq]
        exact List.mem_cons_self ..
      exact absurd hdigit (by decide)
    · rw [Serde.parseUnsigned_repr, Option.filter_some] at hsigned
      split at hsigned
      · exact (Option.some.inj hsigned).symm
      · cases hsigned
  rw [Json.unsigned, valueToPython, hunsigned]
  cases hparsed : Serde.parseI64 value.repr with
  | none => rfl
  | some signed =>
      rw [hsigned signed hparsed]

theorem itemsToPython_unsigned {values : List ℕ} (h : ∀ value ∈ values, value < 2 ^ 64) :
    itemsToPython (values.map .unsigned) = .ok (values.map fun value : ℕ => .int value) := by
  induction values with
  | nil => rfl
  | cons value values ih =>
      rw [List.map_cons, itemsToPython, valueToPython_unsigned (h value (List.mem_cons_self ..)),
        ih fun other hother => h other (List.mem_cons_of_mem _ hother)]
      rfl

/-- The items of a dict are what the members became. -/
theorem related_membersToPython {members : List (String × Json)} {items : List (String × PyValue)}
    (h : membersToPython members = .ok items) :
    SortedMap.Related (fun json value => valueToPython json = .ok value) members items := by
  induction members generalizing items with
  | nil =>
      rw [membersToPython] at h
      cases h
      exact .nil
  | cons member members ih =>
      obtain ⟨name, json⟩ := member
      rw [membersToPython] at h
      obtain ⟨value, hvalue, h⟩ := bind_eq_ok.mp h
      obtain ⟨rest, hrest, h⟩ := bind_eq_ok.mp h
      cases h
      exact .cons ⟨rfl, hvalue⟩ (ih hrest)

/-- A member of a native map that is an object as it was written. -/
theorem find_valueToPython {members : List (String × Json)} {value : PyValue}
    (hnodup : (members.map Prod.fst).Nodup)
    (h : valueToPython (Json.object members).toValue = .ok value) :
    ∃ items, value = .dict items ∧ ∀ name json, SortedMap.find name members = some json →
      ∃ found, SortedMap.find name items = some found ∧ valueToPython json.toValue = .ok found := by
  rw [Json.toValue, valueToPython] at h
  cases hitems : membersToPython (Json.toMap members []) with
  | error e => rw [hitems] at h; cases h
  | ok items =>
      rw [hitems] at h
      cases h
      refine ⟨items, rfl, fun name json hfind => ?_⟩
      have hrelated := (related_membersToPython hitems).find name
      rw [Serde.find_toMap (Serde.countP_key_le_one hnodup name), hfind, SortedMap.find_nil,
        Option.or_none, Option.map_some] at hrelated
      obtain ⟨found, hfound⟩ : ∃ found, SortedMap.find name items = some found := by
        generalize SortedMap.find name items = other at hrelated
        cases hrelated with
        | some _ => exact ⟨_, rfl⟩
      rw [hfound] at hrelated
      cases hrelated with
      | some hvalue => exact ⟨found, hfound, hvalue⟩

end Libraries

end ProofFrame
