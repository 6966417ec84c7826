import ProofFrame.JsonReader
import ProofFrame.Review

/-!
# Reading the writer back

A reader of JSON inverts the writer of the review, whatever the nesting and whatever
the characters.

## Strategy

The reader is followed along the text.  A character is read back from its escape,
so a string is read back by induction on its characters.  A value is read back by
induction on it, with whatever follows left over.  Only a number needs something of what
follows, namely that it does not go on with the number, and the writer puts a comma, a line
break or nothing there.  The fuel is the length of the text.
-/

namespace ProofFrame

open Lib JsonReader

namespace Review

/-! ## Values -/

mutual

/-- The text of every number is a number of JSON, as it is in every `serde_json::Number`. -/
def HasNumbers : Json → Prop
  | .number text => isNumber text.toList = true
  | .array items => ItemsHaveNumbers items
  | .object members => MembersHaveNumbers members
  | .null | .bool _ | .string _ => True

def ItemsHaveNumbers : List Json → Prop
  | [] => True
  | item :: items => HasNumbers item ∧ ItemsHaveNumbers items

def MembersHaveNumbers : List (String × Json) → Prop
  | [] => True
  | (_, value) :: members => HasNumbers value ∧ MembersHaveNumbers members

end

/-- `serde_json::Value`. -/
abbrev Value := {json : Json // HasNumbers json}

/-! ## Characters -/

section Characters

variable {c : Char} {unit : ℕ} {rest : List Char}

theorem readUnit_unicodeEscape (h : unit < 0x10000) :
    readUnit ((unicodeEscape unit).tail.tail ++ rest) = some (unit, rest) := by
  have h₁ := hexValue_digitChar (unit / 4096 % 16) (by omega)
  have h₂ := hexValue_digitChar (unit / 256 % 16) (by omega)
  have h₃ := hexValue_digitChar (unit / 16 % 16) (by omega)
  have h₄ := hexValue_digitChar (unit % 16) (by omega)
  have hunit : unit / 4096 % 16 * 4096 + unit / 256 % 16 * 256 + unit / 16 % 16 * 16 + unit % 16 =
      unit := by omega
  simp [unicodeEscape, readUnit, h₁, h₂, h₃, h₄, hunit]

/-- A character is never half of a pair of surrogates. -/
theorem toNat_not_surrogate (c : Char) :
    c.toNat < 0xD800 ∨ 0xE000 ≤ c.toNat ∧ c.toNat < 0x110000 := by
  rcases c.valid with h | ⟨hlower, hupper⟩
  · exact Or.inl h
  · exact Or.inr ⟨hlower, hupper⟩

/-- A character of the basic plane is one escape. -/
theorem readCharacter_unit (h : c.toNat < 0x10000) :
    readCharacter (unicodeEscape c.toNat ++ rest) = some (some c, rest) := by
  have hunit : readUnit ((unicodeEscape c.toNat).tail.tail ++ rest) = some (c.toNat, rest) :=
    readUnit_unicodeEscape h
  have hscalar : c.toNat < 0xD800 ∨ 0xE000 ≤ c.toNat := by
    rcases toNat_not_surrogate c with hlow | ⟨hhigh, -⟩
    · exact Or.inl hlow
    · exact Or.inr hhigh
  change readCharacter ('\\' :: 'u' :: ((unicodeEscape c.toNat).tail.tail ++ rest)) = _
  rw [readCharacter_escape]
  simp only [readEscape, hunit, Option.bind_eq_bind, Option.bind_some]
  rw [if_pos hscalar, Char.ofNat_toNat, Option.map_some]

theorem readLowSurrogate_unicodeEscape {high low : ℕ} (hlow : 0xDC00 ≤ low) (hlow' : low < 0xE000) :
    readLowSurrogate high (unicodeEscape low ++ rest) =
      some (Char.ofNat (0x10000 + (high - 0xD800) * 0x400 + (low - 0xDC00)), rest) := by
  have hunit : readUnit ((unicodeEscape low).tail.tail ++ rest) = some (low, rest) :=
    readUnit_unicodeEscape (by omega)
  change readLowSurrogate high ('\\' :: 'u' :: ((unicodeEscape low).tail.tail ++ rest)) = _
  simp only [readLowSurrogate, hunit, Option.bind_eq_bind, Option.bind_some]
  rw [if_pos ⟨hlow, hlow'⟩]

theorem readCharacter_surrogates {high low : ℕ} (hhigh : 0xD800 ≤ high) (hhigh' : high < 0xDC00)
    (hlow : 0xDC00 ≤ low) (hlow' : low < 0xE000) :
    readCharacter (unicodeEscape high ++ (unicodeEscape low ++ rest)) =
      some (some (Char.ofNat (0x10000 + (high - 0xD800) * 0x400 + (low - 0xDC00))), rest) := by
  have hunit : readUnit ((unicodeEscape high).tail.tail ++ (unicodeEscape low ++ rest)) =
      some (high, unicodeEscape low ++ rest) := readUnit_unicodeEscape (by omega)
  change readCharacter
    ('\\' :: 'u' :: ((unicodeEscape high).tail.tail ++ (unicodeEscape low ++ rest))) = _
  rw [readCharacter_escape]
  simp only [readEscape, hunit, Option.bind_eq_bind, Option.bind_some]
  rw [if_neg (by omega), if_pos hhigh', readLowSurrogate_unicodeEscape hlow hlow', Option.map_some]

/-- A character beyond the basic plane is a pair of escapes. -/
theorem readCharacter_pair (h : 0x10000 ≤ c.toNat) :
    readCharacter ((encodeUtf16 c).flatMap unicodeEscape ++ rest) = some (some c, rest) := by
  have hbound := toNat_not_surrogate c
  generalize hoffset : c.toNat - 0x10000 = offset
  have hunits : (encodeUtf16 c).flatMap unicodeEscape =
      unicodeEscape (0xD800 + offset / 0x400) ++ unicodeEscape (0xDC00 + offset % 0x400) := by
    rw [encodeUtf16, if_neg (by omega), hoffset, List.flatMap_cons, List.flatMap_cons,
      List.flatMap_nil, List.append_nil]
  have hpair : 0x10000 + (0xD800 + offset / 0x400 - 0xD800) * 0x400 +
      (0xDC00 + offset % 0x400 - 0xDC00) = c.toNat := by omega
  rw [hunits, List.append_assoc, readCharacter_surrogates (by omega) (by omega) (by omega)
    (by omega), hpair, Char.ofNat_toNat]

theorem readsBackFrom_pythonCharacter : ReadsBackFrom pythonCharacter := by
  intro c rest
  unfold pythonCharacter
  split_ifs with hquote hslash hnewline hreturn htab hbackspace hfeed hcontrol hascii
  · subst hquote
    rfl
  · subst hslash
    rfl
  · subst hnewline
    rfl
  · subst hreturn
    rfl
  · subst htab
    rfl
  · have hc : c = Char.ofNat 8 := by rw [← hbackspace, Char.ofNat_toNat]
    rw [hc]
    rfl
  · have hc : c = Char.ofNat 12 := by rw [← hfeed, Char.ofNat_toNat]
    rw [hc]
    rfl
  · exact readCharacter_unit (by omega)
  · simp [readCharacter, hquote, hslash, hcontrol]
  · rcases Nat.lt_or_ge c.toNat 0x10000 with hbasic | hastral
    · have hunits : (encodeUtf16 c).flatMap unicodeEscape = unicodeEscape c.toNat := by
        simp [encodeUtf16, hbasic]
      rw [hunits]
      exact readCharacter_unit hbasic
    · exact readCharacter_pair hastral

end Characters

/-! ## Blanks -/

section Blanks

variable {chars other rest : List Char} {fuel : ℕ}

@[simp] theorem skip_pad (level : ℕ) : skip (pad level ++ chars) = skip chars := by
  induction level with
  | zero => rfl
  | succ level ih =>
      have hpad : pad (level + 1) ++ chars = ' ' :: ' ' :: (pad level ++ chars) := rfl
      rw [hpad, ← ih]
      rfl

theorem length_pad (level : ℕ) : (pad level).length = 2 * level := by
  induction level with
  | zero => rfl
  | succ level ih =>
      have hpad : (pad (level + 1)).length = (pad level).length + 1 + 1 := rfl
      omega

@[simp] theorem skip_newline : skip ('\n' :: chars) = skip chars := rfl

@[simp] theorem skip_space : skip (' ' :: chars) = skip chars := rfl

/-- Blanks before a value do not matter. -/
theorem readValue_congr (h : skip chars = skip other) :
    readValue fuel chars = readValue fuel other := by
  cases fuel with
  | zero => rfl
  | succ fuel => rw [readValue, readValue, h]

theorem readItems_congr (h : skip chars = skip other) :
    readItems fuel chars = readItems fuel other := by
  cases fuel with
  | zero => rfl
  | succ fuel => rw [readItems, readItems, readValue_congr h]

theorem readMembers_congr (h : skip chars = skip other) :
    readMembers fuel chars = readMembers fuel other := by
  cases fuel with
  | zero => rfl
  | succ fuel => rw [readMembers, readMembers, h]

end Blanks

/-! ## The text of a value -/

section Text

variable {rest : List Char} {fuel : ℕ}

/-- No value begins with a blank or closes an array. -/
theorem pythonJson_head {value : Json} (h : HasNumbers value) (depth : ℕ) :
    ∃ c tail, pythonJson depth value = c :: tail ∧ isSpace c = false ∧ c ≠ ']' := by
  cases value with
  | null => exact ⟨_, _, rfl, by decide, by decide⟩
  | bool value => cases value <;> exact ⟨_, _, rfl, by decide, by decide⟩
  | number text =>
      obtain ⟨c, tail, heq, hc⟩ := head_of_isNumber h
      refine ⟨c, tail, by simpa [pythonJson] using heq, ?_, ?_⟩
      · rcases hc with hdigit | rfl
        · exact isSpace_of_isDigit hdigit
        · decide
      · rintro rfl
        rcases hc with hdigit | hsign
        · cases hdigit
        · cases hsign
  | string value => exact ⟨'"', _, rfl, by decide, by decide⟩
  | array items => cases items <;> exact ⟨'[', _, by simp [pythonJson]; rfl, by decide, by decide⟩
  | object members =>
      cases members <;> exact ⟨'\x7b', _, by simp [pythonJson]; rfl, by decide, by decide⟩

/-! Blanks aside, the items begin with the first of them and the members with a quote. -/

theorem skip_pythonItems {item : Json} {items : List Json} (h : HasNumbers item) (depth : ℕ) :
    ∃ c tail, skip (pythonItems depth (item :: items) ++ rest) = c :: tail ∧ c ≠ ']' := by
  obtain ⟨c, tail, hitem, hspace, hopen⟩ := pythonJson_head h (depth + 1)
  cases items with
  | nil =>
      refine ⟨c, tail ++ rest, ?_, hopen⟩
      rw [pythonItems, List.append_assoc, skip_pad, hitem]
      exact skip_cons hspace
  | cons next items =>
      refine ⟨c, tail ++ (',' :: '\n' :: (pythonItems depth (next :: items) ++ rest)), ?_, hopen⟩
      simp [pythonItems, List.append_assoc, hitem, skip_cons hspace]

theorem skip_pythonString (name : String) :
    skip (pythonString name ++ rest) = pythonString name ++ rest :=
  skip_cons (by decide)

theorem skip_pythonMembers {name : String} {value : Json} {members : List (String × Json)}
    (depth : ℕ) :
    ∃ tail, skip (pythonMembers depth ((name, value) :: members) ++ rest) = '"' :: tail := by
  cases members with
  | nil => exact ⟨_, by simp [pythonMembers, skip_pythonString]; rfl⟩
  | cons next members => exact ⟨_, by simp [pythonMembers, skip_pythonString]; rfl⟩

/-- The line that closes an array or an object. -/
def closing (depth : ℕ) (bracket : Char) (rest : List Char) : List Char :=
  '\n' :: (pad depth ++ bracket :: rest)

theorem ends_closing (depth : ℕ) (bracket : Char) : Ends (closing depth bracket rest) :=
  ends_cons (by decide)

theorem skip_closing {bracket : Char} (h : isSpace bracket = false) (depth : ℕ) :
    skip (closing depth bracket rest) = bracket :: rest := by
  rw [closing, skip_newline, skip_pad, skip_cons h]

theorem readValue_items {item : Json} {items : List Json} {depth : ℕ} (h : HasNumbers item)
    (hitems : readItems fuel (pythonItems depth (item :: items) ++ closing depth ']' rest) =
      some (item :: items, rest)) :
    readValue (fuel + 1) (pythonJson depth (.array (item :: items)) ++ rest) =
      some (.array (item :: items), rest) := by
  have htext : pythonJson depth (.array (item :: items)) ++ rest =
      '[' :: '\n' :: (pythonItems depth (item :: items) ++ closing depth ']' rest) := by
    simp [pythonJson, closing]
  rw [htext]
  apply readValue_array
  · obtain ⟨c, tail, hskip, hopen⟩ := skip_pythonItems h depth
    rw [skip_newline, hskip]
    simpa using hopen
  · rw [readItems_congr skip_newline]
    exact hitems

theorem readValue_members {member : String × Json} {members : List (String × Json)} {depth : ℕ}
    (hmembers : readMembers fuel (pythonMembers depth (member :: members) ++
      closing depth '\x7d' rest) = some (member :: members, rest)) :
    readValue (fuel + 1) (pythonJson depth (.object (member :: members)) ++ rest) =
      some (.object (member :: members), rest) := by
  have htext : pythonJson depth (.object (member :: members)) ++ rest =
      '\x7b' :: '\n' :: (pythonMembers depth (member :: members) ++ closing depth '\x7d' rest) := by
    simp [pythonJson, closing]
  rw [htext]
  apply readValue_object
  · obtain ⟨tail, hskip⟩ := skip_pythonMembers depth
    rw [skip_newline, hskip]
    simp
  · rw [readMembers_congr skip_newline]
    exact hmembers

theorem readItems_one {item : Json} {depth : ℕ}
    (h : readValue fuel (pythonJson (depth + 1) item ++ closing depth ']' rest) =
      some (item, closing depth ']' rest)) :
    readItems (fuel + 1) (pythonItems depth [item] ++ closing depth ']' rest) =
      some ([item], rest) := by
  rw [pythonItems, List.append_assoc, readItems_congr (skip_pad _)]
  exact readItems_last h (skip_closing (by decide) depth)

theorem readItems_more {item next : Json} {items : List Json} {depth : ℕ}
    (h : ∀ rest, Ends rest →
      readValue fuel (pythonJson (depth + 1) item ++ rest) = some (item, rest))
    (hitems : readItems fuel (pythonItems depth (next :: items) ++ closing depth ']' rest) =
      some (next :: items, rest)) :
    readItems (fuel + 1) (pythonItems depth (item :: next :: items) ++ closing depth ']' rest) =
      some (item :: next :: items, rest) := by
  have htext : pythonItems depth (item :: next :: items) ++ closing depth ']' rest =
      pad (depth + 1) ++ (pythonJson (depth + 1) item ++ ',' :: '\n' ::
        (pythonItems depth (next :: items) ++ closing depth ']' rest)) := by
    simp [pythonItems]
  rw [htext, readItems_congr (skip_pad _)]
  refine readItems_cons (h _ (ends_cons (by decide))) ?_
  rw [readItems_congr skip_newline]
  exact hitems

theorem readMembers_one {name : String} {value : Json} {depth : ℕ}
    (h : readValue fuel (pythonJson (depth + 1) value ++ closing depth '\x7d' rest) =
      some (value, closing depth '\x7d' rest)) :
    readMembers (fuel + 1) (pythonMembers depth [(name, value)] ++ closing depth '\x7d' rest) =
      some ([(name, value)], rest) := by
  have hname : skip (pythonMembers depth [(name, value)] ++ closing depth '\x7d' rest) =
      pythonString name ++ ':' :: ' ' ::
        (pythonJson (depth + 1) value ++ closing depth '\x7d' rest) := by
    simp [pythonMembers, skip_pythonString]
  exact readMembers_last readsBackFrom_pythonCharacter hname ((readValue_congr skip_space).trans h)
    (skip_closing (by decide) depth)

theorem readMembers_more {name : String} {value : Json} {next : String × Json}
    {members : List (String × Json)} {depth : ℕ}
    (h : ∀ rest, Ends rest →
      readValue fuel (pythonJson (depth + 1) value ++ rest) = some (value, rest))
    (hmembers : readMembers fuel (pythonMembers depth (next :: members) ++
      closing depth '\x7d' rest) = some (next :: members, rest)) :
    readMembers (fuel + 1) (pythonMembers depth ((name, value) :: next :: members) ++
      closing depth '\x7d' rest) = some ((name, value) :: next :: members, rest) := by
  have hname : skip (pythonMembers depth ((name, value) :: next :: members) ++
      closing depth '\x7d' rest) = pythonString name ++ ':' :: ' ' ::
        (pythonJson (depth + 1) value ++ ',' :: '\n' ::
          (pythonMembers depth (next :: members) ++ closing depth '\x7d' rest)) := by
    simp [pythonMembers, skip_pythonString]
  refine readMembers_cons readsBackFrom_pythonCharacter hname
    ((readValue_congr skip_space).trans (h _ (ends_cons (by decide)))) ?_
  rw [readMembers_congr skip_newline]
  exact hmembers

mutual

/-- The reader inverts the writer, with what follows left over. -/
theorem readValue_pythonJson : ∀ (value : Json) (depth fuel : ℕ) (rest : List Char),
    HasNumbers value → Ends rest → (pythonJson depth value).length < fuel →
    readValue fuel (pythonJson depth value ++ rest) = some (value, rest)
  | _, _, 0, _, _, _, hfuel => absurd hfuel (Nat.not_lt_zero _)
  | .null, _, _ + 1, _, _, _, _ => by
      simp [pythonJson, readValue, skip_cons (c := 'n') (by decide), readLiteral]
  | .bool true, _, _ + 1, _, _, _, _ => by
      simp [pythonJson, readValue, skip_cons (c := 't') (by decide), readLiteral]
  | .bool false, _, _ + 1, _, _, _, _ => by
      simp [pythonJson, readValue, skip_cons (c := 'f') (by decide), readLiteral]
  | .number text, _, _ + 1, _, h, hrest, _ => by
      rw [pythonJson]
      exact readValue_number h hrest
  | .string value, _, _ + 1, _, _, _, _ => by
      rw [pythonJson]
      exact readValue_string readsBackFrom_pythonCharacter value
  | .array [], _, _ + 1, _, _, _, _ => by
      rw [pythonJson, List.cons_append, readValue, skip_cons (by decide)]
      simp [skip_cons (c := ']') (by decide)]
  | .object [], _, _ + 1, _, _, _, _ => by
      rw [pythonJson, List.cons_append, readValue, skip_cons (by decide)]
      simp [skip_cons (c := '\x7d') (by decide)]
  | .array (item :: items), depth, fuel + 1, rest, h, _, hfuel => by
      apply readValue_items h.1
      apply readItems_pythonItems item items depth fuel rest h
      simp only [pythonJson, List.length_append, List.length_cons] at hfuel
      omega
  | .object ((name, value) :: members), depth, fuel + 1, rest, h, _, hfuel => by
      apply readValue_members
      apply readMembers_pythonMembers name value members depth fuel rest h
      simp only [pythonJson, List.length_append, List.length_cons] at hfuel
      omega
termination_by value => sizeOf value

theorem readItems_pythonItems : ∀ (item : Json) (items : List Json) (depth fuel : ℕ)
    (rest : List Char), ItemsHaveNumbers (item :: items) →
    (pythonItems depth (item :: items)).length < fuel →
    readItems fuel (pythonItems depth (item :: items) ++ closing depth ']' rest) =
      some (item :: items, rest)
  | _, _, _, 0, _, _, hfuel => absurd hfuel (Nat.not_lt_zero _)
  | item, [], depth, fuel + 1, rest, h, hfuel => by
      apply readItems_one
      apply readValue_pythonJson item (depth + 1) fuel _ h.1 (ends_closing depth ']')
      simp only [pythonItems, List.length_append, length_pad] at hfuel
      omega
  | item, next :: items, depth, fuel + 1, rest, h, hfuel => by
      simp only [pythonItems, List.length_append, length_pad] at hfuel
      apply readItems_more
      · intro rest hrest
        exact readValue_pythonJson item (depth + 1) fuel rest h.1 hrest (by omega)
      · exact readItems_pythonItems next items depth fuel rest h.2 (by omega)
termination_by item items => sizeOf item + sizeOf items

theorem readMembers_pythonMembers : ∀ (name : String) (value : Json)
    (members : List (String × Json)) (depth fuel : ℕ) (rest : List Char),
    MembersHaveNumbers ((name, value) :: members) →
    (pythonMembers depth ((name, value) :: members)).length < fuel →
    readMembers fuel
      (pythonMembers depth ((name, value) :: members) ++ closing depth '\x7d' rest) =
        some ((name, value) :: members, rest)
  | _, _, _, _, 0, _, _, hfuel => absurd hfuel (Nat.not_lt_zero _)
  | name, value, [], depth, fuel + 1, rest, h, hfuel => by
      apply readMembers_one
      apply readValue_pythonJson value (depth + 1) fuel _ h.1 (ends_closing depth '\x7d')
      simp only [pythonMembers, List.length_append, length_pad] at hfuel
      omega
  | name, value, (next, item) :: members, depth, fuel + 1, rest, h, hfuel => by
      simp only [pythonMembers, List.length_append, length_pad] at hfuel
      apply readMembers_more
      · intro rest hrest
        exact readValue_pythonJson value (depth + 1) fuel rest h.1 hrest (by omega)
      · exact readMembers_pythonMembers next item members depth fuel rest h.2 (by omega)
termination_by _ value members => sizeOf value + sizeOf members

end

end Text

/-! ## The characters of the text -/

section Ascii

theorem isAscii_unicodeEscape (unit : ℕ) : IsAscii (unicodeEscape unit) := by
  have hdigit : ∀ digit < 16, (Nat.digitChar digit).toNat < 128 := by decide
  simp only [unicodeEscape, isAscii_cons, isAscii_nil, and_true]
  refine ⟨by decide, by decide, ?_, ?_, ?_, ?_⟩
  all_goals exact hdigit _ (Nat.mod_lt _ (by omega))

theorem isAscii_pythonCharacter (c : Char) : IsAscii (pythonCharacter c) := by
  unfold pythonCharacter
  split_ifs with hquote hslash hnewline hreturn htab hbackspace hfeed hcontrol hascii
  all_goals try simp only [isAscii_cons, isAscii_nil, and_true]
  all_goals try decide
  · exact isAscii_unicodeEscape _
  · omega
  · exact isAscii_flatMap fun unit _ => isAscii_unicodeEscape unit

theorem isAscii_pythonString (value : String) : IsAscii (pythonString value) := by
  simp only [pythonString, isAscii_cons, isAscii_append, isAscii_nil, and_true]
  exact ⟨by decide, isAscii_flatMap fun c _ => isAscii_pythonCharacter c, by decide⟩

theorem isAscii_pad (level : ℕ) : IsAscii (pad level) := by
  induction level with
  | zero => simp [pad]
  | succ level ih =>
      have hpad : pad (level + 1) = ' ' :: ' ' :: pad level := rfl
      simp [hpad, ih]

theorem isAscii_of_isNumber {chars : List Char} (h : isNumber chars = true) : IsAscii chars := by
  intro c hc
  have hchar := List.all_eq_true.mp (all_of_isNumber h) c hc
  rw [isNumberCharacter, Bool.or_eq_true] at hchar
  rcases hchar with hdigit | hsign
  · have hrange := isDigit_iff.mp hdigit
    omega
  · simp only [List.contains_eq_mem, decide_eq_true_eq, List.mem_cons] at hsign
    rcases hsign with rfl | rfl | rfl | rfl | rfl | hnone
    all_goals first | decide | cases hnone

mutual

theorem isAscii_pythonJson : ∀ (value : Json) (depth : ℕ), HasNumbers value →
    IsAscii (pythonJson depth value)
  | .null, _, _ => by simp [pythonJson]
  | .bool true, _, _ => by simp [pythonJson]
  | .bool false, _, _ => by simp [pythonJson]
  | .number text, _, h => by
      rw [pythonJson]
      exact isAscii_of_isNumber h
  | .string value, _, _ => by
      rw [pythonJson]
      exact isAscii_pythonString value
  | .array [], _, _ => by simp [pythonJson]
  | .object [], _, _ => by simp [pythonJson]
  | .array (item :: items), depth, h => by
      have hitems := isAscii_pythonItems (item :: items) depth h
      simp [pythonJson, hitems, isAscii_pad]
  | .object (member :: members), depth, h => by
      have hmembers := isAscii_pythonMembers (member :: members) depth h
      simp [pythonJson, hmembers, isAscii_pad]
termination_by value => sizeOf value

theorem isAscii_pythonItems : ∀ (items : List Json) (depth : ℕ), ItemsHaveNumbers items →
    IsAscii (pythonItems depth items)
  | [], _, _ => by simp [pythonItems]
  | [item], depth, h => by
      have hitem := isAscii_pythonJson item (depth + 1) h.1
      simp [pythonItems, hitem, isAscii_pad]
  | item :: next :: items, depth, h => by
      have hitem := isAscii_pythonJson item (depth + 1) h.1
      have hitems := isAscii_pythonItems (next :: items) depth h.2
      simp [pythonItems, hitem, hitems, isAscii_pad]
termination_by items => sizeOf items

theorem isAscii_pythonMembers : ∀ (members : List (String × Json)) (depth : ℕ),
    MembersHaveNumbers members → IsAscii (pythonMembers depth members)
  | [], _, _ => by simp [pythonMembers]
  | [(name, value)], depth, h => by
      have hvalue := isAscii_pythonJson value (depth + 1) h.1
      simp [pythonMembers, hvalue, isAscii_pythonString, isAscii_pad]
  | (name, value) :: next :: members, depth, h => by
      have hvalue := isAscii_pythonJson value (depth + 1) h.1
      have hmembers := isAscii_pythonMembers (next :: members) depth h.2
      simp [pythonMembers, hvalue, hmembers, isAscii_pythonString, isAscii_pad]
termination_by members => sizeOf members

end

end Ascii

/-! ## The whole text -/

theorem read_pythonJson (value : Value) (depth : ℕ) :
    JsonReader.read (pythonJson depth value.1) = some value.1 := by
  have hread := readValue_pythonJson value.1 depth _ [] value.2 ends_nil
    (Nat.lt_succ_self (pythonJson depth value.1).length)
  rw [List.append_nil] at hread
  rw [JsonReader.read, hread]
  rfl

/-- Texts tell values apart, even across levels. -/
theorem pythonJson_inj {value other : Value} {depth deeper : ℕ}
    (h : pythonJson depth value.1 = pythonJson deeper other.1) : value = other := by
  have hvalue := read_pythonJson value depth
  rw [h, read_pythonJson other deeper, Option.some_inj] at hvalue
  exact Subtype.ext hvalue.symm

/-- The writer writes ASCII, JSON reads it back, and no two values share a text. -/
theorem pythonJson_roundTrips (value : Value) (depth : ℕ) :
    IsAscii (pythonJson depth value.1) ∧
      JsonReader.read (pythonJson depth value.1) = some value.1 ∧
      ∀ other : Value, other ≠ value → pythonJson depth other.1 ≠ pythonJson depth value.1 :=
  ⟨isAscii_pythonJson value.1 depth value.2, read_pythonJson value depth,
    fun _ hother htext => hother (pythonJson_inj htext)⟩

end Review

end ProofFrame
