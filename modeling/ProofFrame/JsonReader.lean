import ProofFrame.Json
import ProofFrame.Lib.Digits

/-!
# Reading JSON

The grammar of JSON as a reader of characters.  A string is read escape by escape,
where a pair of surrogates is one character and half of one is an error; a number
keeps its text; the members of an object keep their order.
-/

namespace ProofFrame

open Lib

namespace JsonReader

/-! ## Strings -/

def hexValue (c : Char) : Option ℕ :=
  if '0' ≤ c ∧ c ≤ '9' then some (c.toNat - 48)
  else if 'a' ≤ c ∧ c ≤ 'f' then some (c.toNat - 87)
  else if 'A' ≤ c ∧ c ≤ 'F' then some (c.toNat - 55)
  else none

/-- Four hexadecimal digits. -/
def readUnit : List Char → Option (ℕ × List Char)
  | a :: b :: c :: d :: rest => do
      let a ← hexValue a
      let b ← hexValue b
      let c ← hexValue c
      let d ← hexValue d
      some (a * 4096 + b * 256 + c * 16 + d, rest)
  | _ => none

/-- The second half of a pair of surrogates. -/
def readLowSurrogate (high : ℕ) : List Char → Option (Char × List Char)
  | '\\' :: 'u' :: rest => do
      let (low, rest) ← readUnit rest
      if 0xDC00 ≤ low ∧ low < 0xE000 then
        some (Char.ofNat (0x10000 + (high - 0xD800) * 0x400 + (low - 0xDC00)), rest)
      else none
  | _ => none

/-- What stands behind a backslash. -/
def readEscape : List Char → Option (Char × List Char)
  | '"' :: rest => some ('"', rest)
  | '\\' :: rest => some ('\\', rest)
  | '/' :: rest => some ('/', rest)
  | 'b' :: rest => some (Char.ofNat 8, rest)
  | 'f' :: rest => some (Char.ofNat 12, rest)
  | 'n' :: rest => some (Char.ofNat 10, rest)
  | 'r' :: rest => some (Char.ofNat 13, rest)
  | 't' :: rest => some (Char.ofNat 9, rest)
  | 'u' :: rest => do
      let (unit, rest) ← readUnit rest
      if unit < 0xD800 ∨ 0xE000 ≤ unit then some (Char.ofNat unit, rest)
      else if unit < 0xDC00 then readLowSurrogate unit rest
      else none
  | _ => none

/-- A character of a string, or `none` at its closing quote. -/
def readCharacter : List Char → Option (Option Char × List Char)
  | [] => none
  | c :: rest =>
      if c = '"' then some (none, rest)
      else if c = '\\' then (readEscape rest).map fun (c, rest) => (some c, rest)
      else if c.toNat < 32 then none
      else some (some c, rest)

/-- The characters up to the closing quote. -/
def readString : ℕ → List Char → Option (List Char × List Char)
  | 0, _ => none
  | fuel + 1, chars =>
      match readCharacter chars with
      | none => none
      | some (none, rest) => some ([], rest)
      | some (some c, rest) => (readString fuel rest).map fun (chars, rest) => (c :: chars, rest)

theorem hexValue_digitChar : ∀ digit < 16, hexValue (Nat.digitChar digit) = some digit := by
  decide

theorem readCharacter_escape {rest : List Char} :
    readCharacter ('\\' :: rest) = (readEscape rest).map fun (c, rest) => (some c, rest) := by
  simp [readCharacter]

/-- A text between quotes, each character written by `escape`. -/
def quotedWith (escape : Char → List Char) (text : String) : List Char :=
  '"' :: (text.toList.flatMap escape ++ ['"'])

/-- A character is read back from what is written for it. -/
def ReadsBackFrom (escape : Char → List Char) : Prop :=
  ∀ c rest, readCharacter (escape c ++ rest) = some (some c, rest)

namespace ReadsBackFrom

variable {escape : Char → List Char} (h : ReadsBackFrom escape)

include h

theorem length_le_flatMap (chars : List Char) : chars.length ≤ (chars.flatMap escape).length := by
  induction chars with
  | nil => simp
  | cons c chars ih =>
      have hpos : 0 < (escape c).length := by
        rw [List.length_pos_iff]
        intro hnil
        have hread := h c []
        rw [hnil] at hread
        cases hread
      rw [List.flatMap_cons, List.length_append, List.length_cons]
      omega

theorem readString_flatMap {chars rest : List Char} {fuel : ℕ} (hfuel : chars.length < fuel) :
    readString fuel (chars.flatMap escape ++ '"' :: rest) = some (chars, rest) := by
  induction chars generalizing fuel with
  | nil =>
      obtain ⟨fuel, rfl⟩ := Nat.exists_eq_add_of_lt hfuel
      simp [readString, readCharacter]
  | cons c chars ih =>
      cases fuel with
      | zero => simp at hfuel
      | succ fuel =>
          have hrest : readString fuel (chars.flatMap escape ++ '"' :: rest) =
              some (chars, rest) := ih (by simpa using hfuel)
          rw [List.flatMap_cons, List.append_assoc, readString, h]
          simp only [hrest, Option.map_some]

/-- A string is read back, with what follows its closing quote left over. -/
theorem readString_quotedWith (text : String) {rest : List Char} :
    readString (((quotedWith escape text).tail ++ rest).length + 1)
      ((quotedWith escape text).tail ++ rest) = some (text.toList, rest) := by
  have hbody : (quotedWith escape text).tail ++ rest =
      text.toList.flatMap escape ++ '"' :: rest := by simp [quotedWith]
  have hlength := h.length_le_flatMap text.toList
  rw [hbody]
  apply h.readString_flatMap
  rw [List.length_append]
  omega

end ReadsBackFrom

/-! ## Numbers -/

def isNumberCharacter (c : Char) : Bool := c.isDigit || ['-', '+', '.', 'e', 'E'].contains c

def isExponent : List Char → Bool
  | [] => true
  | c :: rest => (c = 'e' || c = 'E') &&
      match rest with
      | '+' :: digits | '-' :: digits => !digits.isEmpty && digits.all Char.isDigit
      | digits => !digits.isEmpty && digits.all Char.isDigit

def isFraction : List Char → Bool
  | '.' :: rest => !(rest.takeWhile Char.isDigit).isEmpty && isExponent (rest.dropWhile Char.isDigit)
  | rest => isExponent rest

/-- No zero leads further digits. -/
def isMagnitude (chars : List Char) : Bool :=
  let whole := chars.takeWhile Char.isDigit
  !whole.isEmpty && (whole == ['0'] || whole.head? != some '0') &&
    isFraction (chars.dropWhile Char.isDigit)

/-- `'-'? whole ('.' digit+)? ([eE] [+-]? digit+)?` -/
def isNumber (chars : List Char) : Bool :=
  chars.all isNumberCharacter && match chars with
    | '-' :: rest => isMagnitude rest
    | chars => isMagnitude chars

def readNumber (chars : List Char) : Option (Json × List Char) :=
  let number := chars.takeWhile isNumberCharacter
  if isNumber number then
    some (.number (String.ofList number), chars.dropWhile isNumberCharacter)
  else none

section Numbers

variable {chars rest : List Char}

/-- What follows does not go on with a number. -/
def Ends (rest : List Char) : Prop := ∀ c ∈ rest.head?, isNumberCharacter c = false

theorem ends_nil : Ends [] := by simp [Ends]

theorem ends_cons {c : Char} (h : isNumberCharacter c = false) : Ends (c :: rest) := by
  simpa [Ends] using h

theorem takeWhile_of_ends (h : Ends rest) : rest.takeWhile isNumberCharacter = [] := by
  cases rest with
  | nil => rfl
  | cons c rest => simp [h c rfl]

theorem all_of_isNumber (h : isNumber chars = true) : chars.all isNumberCharacter = true := by
  unfold isNumber at h
  exact (Bool.and_eq_true _ _ ▸ h).1

theorem readNumber_append {text : String} (h : isNumber text.toList = true) (hrest : Ends rest) :
    readNumber (text.toList ++ rest) = some (.number text, rest) := by
  have hall := List.all_eq_true.mp (all_of_isNumber h)
  have htake : (text.toList ++ rest).takeWhile isNumberCharacter = text.toList := by
    rw [List.takeWhile_append_of_pos hall, takeWhile_of_ends hrest, List.append_nil]
  have hdrop : (text.toList ++ rest).dropWhile isNumberCharacter = rest := by
    have happend := List.takeWhile_append_dropWhile (p := isNumberCharacter)
      (l := text.toList ++ rest)
    rw [htake] at happend
    exact List.append_cancel_left happend
  simp only [readNumber, htake, hdrop]
  rw [if_pos h, String.ofList_toList]

theorem head_of_isMagnitude (h : isMagnitude chars = true) :
    ∃ c tail, chars = c :: tail ∧ c.isDigit = true := by
  cases chars with
  | nil => simp [isMagnitude] at h
  | cons c tail =>
      refine ⟨c, tail, rfl, ?_⟩
      by_contra hc
      rw [isMagnitude, List.takeWhile_cons_of_neg hc] at h
      simp at h

/-- A number begins with a digit or with a sign. -/
theorem head_of_isNumber (h : isNumber chars = true) :
    ∃ c tail, chars = c :: tail ∧ (c.isDigit = true ∨ c = '-') := by
  unfold isNumber at h
  have hsigned := (Bool.and_eq_true _ _ ▸ h).2
  split at hsigned
  · exact ⟨_, _, rfl, Or.inr rfl⟩
  · obtain ⟨c, tail, heq, hdigit⟩ := head_of_isMagnitude hsigned
    exact ⟨c, tail, heq, Or.inl hdigit⟩

end Numbers

/-! ## Values -/

def isSpace (c : Char) : Bool := [' ', '\n', '\r', '\t'].contains c

theorem isSpace_of_isDigit {c : Char} (h : c.isDigit = true) : isSpace c = false := by
  rw [← Bool.not_eq_true]
  intro hspace
  simp only [isSpace, List.contains_eq_mem, decide_eq_true_eq, List.mem_cons] at hspace
  rcases hspace with rfl | rfl | rfl | rfl | hnone
  all_goals first | cases h | cases hnone

def skip (chars : List Char) : List Char := chars.dropWhile isSpace

theorem skip_cons {c : Char} {chars : List Char} (h : isSpace c = false) :
    skip (c :: chars) = c :: chars := by
  simp [skip, h]

/-- The rest of a literal name. -/
def readLiteral (json : Json) (name chars : List Char) : Option (Json × List Char) :=
  if name.isPrefixOf chars then some (json, chars.drop name.length) else none

mutual

def readValue : ℕ → List Char → Option (Json × List Char)
  | 0, _ => none
  | fuel + 1, chars =>
      match skip chars with
      | [] => none
      | c :: rest =>
          if c = 'n' then readLiteral .null ['u', 'l', 'l'] rest
          else if c = 't' then readLiteral (.bool true) ['r', 'u', 'e'] rest
          else if c = 'f' then readLiteral (.bool false) ['a', 'l', 's', 'e'] rest
          else if c = '"' then
            (readString (rest.length + 1) rest).map fun (chars, rest) =>
              (.string (String.ofList chars), rest)
          else if c = '[' then
            if (skip rest).head? = some ']' then some (.array [], (skip rest).tail)
            else (readItems fuel rest).map fun (items, rest) => (.array items, rest)
          else if c = '\x7b' then
            if (skip rest).head? = some '\x7d' then some (.object [], (skip rest).tail)
            else (readMembers fuel rest).map fun (members, rest) => (.object members, rest)
          else readNumber (c :: rest)

/-- The items of an array that has some. -/
def readItems : ℕ → List Char → Option (List Json × List Char)
  | 0, _ => none
  | fuel + 1, chars => do
      let (item, rest) ← readValue fuel chars
      match skip rest with
      | ',' :: rest => (readItems fuel rest).map fun (items, rest) => (item :: items, rest)
      | ']' :: rest => some ([item], rest)
      | _ => none

/-- The members of an object that has some. -/
def readMembers : ℕ → List Char → Option (List (String × Json) × List Char)
  | 0, _ => none
  | fuel + 1, chars =>
      match skip chars with
      | '"' :: rest => do
          let (name, rest) ← readString (rest.length + 1) rest
          match skip rest with
          | ':' :: rest => do
              let (value, rest) ← readValue fuel rest
              let member := (String.ofList name, value)
              match skip rest with
              | ',' :: rest =>
                  (readMembers fuel rest).map fun (members, rest) => (member :: members, rest)
              | '\x7d' :: rest => some ([member], rest)
              | _ => none
          | _ => none
      | _ => none

end

/-- The value of a text, if the text is JSON. -/
def read (chars : List Char) : Option Json :=
  match readValue (chars.length + 1) chars with
  | some (json, rest) => if skip rest = [] then some json else none
  | none => none

/-! ## Values by their first character -/

section Values

variable {chars rest : List Char} {fuel : ℕ}

theorem readValue_number {text : String} (h : isNumber text.toList = true) (hrest : Ends rest) :
    readValue (fuel + 1) (text.toList ++ rest) = some (.number text, rest) := by
  obtain ⟨c, tail, heq, hc⟩ := head_of_isNumber h
  have hread := readNumber_append h hrest
  rw [heq, List.cons_append] at hread ⊢
  -- a digit or a sign is neither a blank nor the first character of another kind of value
  have hother : isSpace c = false ∧ c ≠ 'n' ∧ c ≠ 't' ∧ c ≠ 'f' ∧ c ≠ '"' ∧ c ≠ '[' ∧
      c ≠ '\x7b' := by
    rcases hc with hdigit | rfl
    · refine ⟨isSpace_of_isDigit hdigit, ?_, ?_, ?_, ?_, ?_, ?_⟩
      all_goals rintro rfl; cases hdigit
    · decide
  obtain ⟨hspace, hn, ht, hf, hquote, hbracket, hbrace⟩ := hother
  rw [readValue, skip_cons hspace]
  simp only [hn, ht, hf, hquote, hbracket, hbrace, if_false, hread]

theorem readValue_array {items : List Json} (hopen : (skip chars).head? ≠ some ']')
    (h : readItems fuel chars = some (items, rest)) :
    readValue (fuel + 1) ('[' :: chars) = some (.array items, rest) := by
  rw [readValue, skip_cons (by decide)]
  simp only [hopen, h, if_false, Option.map_some]
  rfl

theorem readValue_object {members : List (String × Json)}
    (hopen : (skip chars).head? ≠ some '\x7d') (h : readMembers fuel chars = some (members, rest)) :
    readValue (fuel + 1) ('\x7b' :: chars) = some (.object members, rest) := by
  rw [readValue, skip_cons (by decide)]
  simp only [hopen, h, if_false, Option.map_some]
  rfl

theorem readItems_last {item : Json} {tail : List Char}
    (h : readValue fuel chars = some (item, tail)) (htail : skip tail = ']' :: rest) :
    readItems (fuel + 1) chars = some ([item], rest) := by
  simp [readItems, h, htail]

theorem readItems_cons {item : Json} {items : List Json} {tail next : List Char}
    (h : readValue fuel chars = some (item, ',' :: next))
    (hnext : readItems fuel next = some (items, tail)) :
    readItems (fuel + 1) chars = some (item :: items, tail) := by
  simp [readItems, h, skip_cons (c := ',') (by decide), hnext]

section Strings

variable {escape : Char → List Char} (hescape : ReadsBackFrom escape)

include hescape

theorem readValue_string (value : String) :
    readValue (fuel + 1) (quotedWith escape value ++ rest) = some (.string value, rest) := by
  have hread : readString (((quotedWith escape value).tail ++ rest).length + 1)
      ((quotedWith escape value).tail ++ rest) = some (value.toList, rest) :=
    hescape.readString_quotedWith value
  change readValue (fuel + 1) ('"' :: ((quotedWith escape value).tail ++ rest)) = _
  rw [readValue, skip_cons (by decide)]
  simp only [hread, Option.map_some, String.ofList_toList]
  rfl

theorem readMembers_last {name : String} {value : Json} {body tail : List Char}
    (hname : skip chars = quotedWith escape name ++ ':' :: body)
    (h : readValue fuel body = some (value, tail)) (htail : skip tail = '\x7d' :: rest) :
    readMembers (fuel + 1) chars = some ([(name, value)], rest) := by
  have hread := @ReadsBackFrom.readString_quotedWith _ hescape name (':' :: body)
  have hquote : skip chars = '"' :: ((quotedWith escape name).tail ++ ':' :: body) := hname
  have hcolon : skip (':' :: body) = ':' :: body := skip_cons (by decide)
  rw [readMembers, hquote]
  simp only [hread, hcolon, h, htail, Option.bind_eq_bind, Option.bind_some, String.ofList_toList]

theorem readMembers_cons {name : String} {value : Json} {members : List (String × Json)}
    {body tail next : List Char} (hname : skip chars = quotedWith escape name ++ ':' :: body)
    (h : readValue fuel body = some (value, ',' :: next))
    (hnext : readMembers fuel next = some (members, tail)) :
    readMembers (fuel + 1) chars = some ((name, value) :: members, tail) := by
  have hread := @ReadsBackFrom.readString_quotedWith _ hescape name (':' :: body)
  have hquote : skip chars = '"' :: ((quotedWith escape name).tail ++ ':' :: body) := hname
  have hcolon : skip (':' :: body) = ':' :: body := skip_cons (by decide)
  have hcomma : skip (',' :: next) = ',' :: next := skip_cons (by decide)
  rw [readMembers, hquote]
  simp only [hread, hcolon, h, hcomma, hnext, Option.bind_eq_bind, Option.bind_some,
    Option.map_some, String.ofList_toList]

end Strings

end Values

end JsonReader

end ProofFrame
