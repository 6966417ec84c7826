import Mathlib.Data.List.TakeWhile
import ProofFrame.JsonReader
import ProofFrame.JsonText

/-!
# Reading compact text

The reader of JSON inverts the compact writer, so that with the limits of the parser
it is one the law of parsers holds for.
-/

namespace ProofFrame

open Lib JsonReader

/-! ## Characters -/

theorem readCharacter_control {c : Char} (h : c.toNat < 32) {rest : List Char} :
    readCharacter ('\\' :: 'u' :: '0' :: '0' :: Nat.digitChar (c.toNat / 16) ::
      Nat.digitChar (c.toNat % 16) :: rest) = some (some c, rest) := by
  have hhigh := hexValue_digitChar (c.toNat / 16) (by omega)
  have hlow := hexValue_digitChar (c.toNat % 16) (by omega)
  have hzero : hexValue '0' = some 0 := rfl
  have hcode : 0 * 4096 + 0 * 256 + c.toNat / 16 * 16 + c.toNat % 16 = c.toNat := by omega
  rw [readCharacter_escape]
  simp only [readEscape, readUnit, hzero, hhigh, hlow, Option.bind_eq_bind, Option.bind_some, hcode]
  rw [if_pos (by omega), Char.ofNat_toNat, Option.map_some]

theorem readsBackFrom_escapeChar : ReadsBackFrom escapeChar := by
  intro c rest
  unfold escapeChar
  split_ifs with hquote hslash hbackspace htab hnewline hfeed hreturn hlow
  · subst hquote
    rfl
  · subst hslash
    rfl
  · rw [← Char.ofNat_toNat c, hbackspace]
    rfl
  · rw [← Char.ofNat_toNat c, htab]
    rfl
  · rw [← Char.ofNat_toNat c, hnewline]
    rfl
  · rw [← Char.ofNat_toNat c, hfeed]
    rfl
  · rw [← Char.ofNat_toNat c, hreturn]
    rfl
  · exact readCharacter_control hlow
  · simp [readCharacter, hquote, hslash, hlow]

/-! ## Texts -/

/-- A number as JSON has it. -/
def isNumberText (text : String) : Bool := isNumber text.toList

/-- The document stands where a text goes on with it. -/
def ReadsFrom (json : Json) : Prop :=
  ∀ (fuel : ℕ) (rest : List Char), Ends rest → json.compactChars.length < fuel →
    readValue fuel (json.compactChars ++ rest) = some (json, rest)

/-- No text begins with a blank or closes an array. -/
theorem head_compactChars {json : Json} (h : json.all (Json.hasNumber isNumberText) = true) :
    ∃ c tail, json.compactChars = c :: tail ∧ isSpace c = false ∧ c ≠ ']' := by
  cases json with
  | null => exact ⟨_, _, rfl, by decide, by decide⟩
  | bool value => cases value <;> exact ⟨_, _, rfl, by decide, by decide⟩
  | number text =>
      obtain ⟨c, tail, heq, hc⟩ := head_of_isNumber h
      refine ⟨c, tail, heq, ?_, ?_⟩
      · rcases hc with hdigit | rfl
        · exact isSpace_of_isDigit hdigit
        · decide
      · rintro rfl
        rcases hc with hdigit | hsign
        · cases hdigit
        · cases hsign
  | string value => exact ⟨'"', _, rfl, by decide, by decide⟩
  | array items => exact ⟨'[', _, rfl, by decide, by decide⟩
  | object members => exact ⟨'\x7b', _, rfl, by decide, by decide⟩

theorem readItems_compact {item : Json} {items : List Json}
    (h : ∀ other ∈ item :: items, ReadsFrom other) {fuel : ℕ} {rest : List Char}
    (hfuel : (Json.compactItems (item :: items)).length + 1 < fuel) :
    readItems fuel (Json.compactItems (item :: items) ++ ']' :: rest) =
      some (item :: items, rest) := by
  induction items generalizing item fuel with
  | nil =>
      obtain ⟨fuel, rfl⟩ := Nat.exists_eq_add_one.mpr (Nat.zero_lt_of_lt hfuel)
      have hclosed : skip (']' :: rest) = ']' :: rest := skip_cons (by decide)
      exact readItems_last (h item (List.mem_cons_self ..) fuel _ (ends_cons (by decide))
        (Nat.lt_of_succ_lt_succ hfuel)) hclosed
  | cons next items ih =>
      obtain ⟨fuel, rfl⟩ := Nat.exists_eq_add_one.mpr (Nat.zero_lt_of_lt hfuel)
      simp only [Json.compactItems, List.length_append, List.length_cons] at hfuel
      rw [Json.compactItems, List.append_assoc, List.cons_append]
      · refine readItems_cons (h item (List.mem_cons_self ..) fuel _ (ends_cons (by decide)) ?_)
          (ih (fun other hother => h other (List.mem_cons_of_mem _ hother)) ?_)
        · omega
        · omega
      · simp

theorem readMembers_compact {name : String} {value : Json} {members : List (String × Json)}
    (h : ∀ member ∈ (name, value) :: members, ReadsFrom member.2) {fuel : ℕ} {rest : List Char}
    (hfuel : (Json.compactMembers ((name, value) :: members)).length + 1 < fuel) :
    readMembers fuel (Json.compactMembers ((name, value) :: members) ++ '\x7d' :: rest) =
      some ((name, value) :: members, rest) := by
  have hquote : ∀ (name : String) (rest : List Char), skip (quoted name ++ rest) = quoted name ++ rest :=
    fun _ _ => skip_cons (by decide)
  induction members generalizing name value fuel with
  | nil =>
      obtain ⟨fuel, rfl⟩ := Nat.exists_eq_add_one.mpr (Nat.zero_lt_of_lt hfuel)
      have hclosed : skip ('\x7d' :: rest) = '\x7d' :: rest := skip_cons (by decide)
      simp only [Json.compactMembers, List.length_append, List.length_cons] at hfuel
      rw [Json.compactMembers, List.append_assoc, List.cons_append]
      refine readMembers_last readsBackFrom_escapeChar (hquote name _)
        (h _ (List.mem_cons_self ..) fuel _ (ends_cons (by decide)) ?_) hclosed
      change value.compactChars.length < fuel
      omega
  | cons next members ih =>
      obtain ⟨fuel, rfl⟩ := Nat.exists_eq_add_one.mpr (Nat.zero_lt_of_lt hfuel)
      simp only [Json.compactMembers, List.length_append, List.length_cons] at hfuel
      rw [Json.compactMembers, List.append_assoc, List.append_assoc, List.cons_append]
      · refine readMembers_cons readsBackFrom_escapeChar (hquote name _)
          (h _ (List.mem_cons_self ..) fuel _ (ends_cons (by decide)) ?_)
          (ih (fun other hother => h other (List.mem_cons_of_mem _ hother)) ?_)
        · change value.compactChars.length < fuel
          omega
        · change (Json.compactMembers (next :: members)).length + 1 < fuel
          omega
      · simp

/-- What was written is read back, with what follows left over. -/
theorem readValue_compact (json : Json) (h : json.all (Json.hasNumber isNumberText) = true) :
    ReadsFrom json := by
  induction json using Json.documents with
  | null =>
      intro fuel rest hrest hfuel
      obtain ⟨fuel, rfl⟩ := Nat.exists_eq_add_one.mpr (Nat.zero_lt_of_lt hfuel)
      rfl
  | bool value =>
      intro fuel rest hrest hfuel
      obtain ⟨fuel, rfl⟩ := Nat.exists_eq_add_one.mpr (Nat.zero_lt_of_lt hfuel)
      cases value <;> rfl
  | number text =>
      intro fuel rest hrest hfuel
      obtain ⟨fuel, rfl⟩ := Nat.exists_eq_add_one.mpr (Nat.zero_lt_of_lt hfuel)
      exact readValue_number h hrest
  | string value =>
      intro fuel rest hrest hfuel
      obtain ⟨fuel, rfl⟩ := Nat.exists_eq_add_one.mpr (Nat.zero_lt_of_lt hfuel)
      exact readValue_string readsBackFrom_escapeChar value
  | array items ih =>
      intro fuel rest hrest hfuel
      obtain ⟨fuel, rfl⟩ := Nat.exists_eq_add_one.mpr (Nat.zero_lt_of_lt hfuel)
      cases items with
      | nil => rfl
      | cons item items =>
          -- an item does not begin like the closing bracket
          have hitems := Json.allItems_iff.mp h
          obtain ⟨c, tail, hhead, hspace, hopen⟩ := head_compactChars (hitems item (by simp))
          simp only [Json.compactChars, List.length_append, List.length_cons, List.length_nil] at hfuel
          rw [Json.compactChars, List.cons_append, List.cons_append, List.append_assoc]
          refine readValue_array ?_ (readItems_compact
            (fun other hother => ih other hother (hitems other hother)) (by omega))
          obtain ⟨tail', hitems⟩ : ∃ tail', Json.compactItems (item :: items) = c :: tail' := by
            cases items <;> simp [Json.compactItems, hhead]
          rw [hitems, List.cons_append, skip_cons hspace]
          simpa using hopen
  | object members ih =>
      intro fuel rest hrest hfuel
      obtain ⟨fuel, rfl⟩ := Nat.exists_eq_add_one.mpr (Nat.zero_lt_of_lt hfuel)
      cases members with
      | nil => rfl
      | cons member members =>
          obtain ⟨name, value⟩ := member
          have hmembers := Json.allMembers_iff.mp h
          simp only [Json.compactChars, List.length_append, List.length_cons, List.length_nil] at hfuel
          rw [Json.compactChars, List.cons_append, List.cons_append, List.append_assoc]
          refine readValue_object ?_ (readMembers_compact
            (fun other hother => ih other hother (hmembers other hother)) (by omega))
          obtain ⟨tail, hquoted⟩ :
              ∃ tail, Json.compactMembers ((name, value) :: members) = '"' :: tail := by
            cases members <;> simp [Json.compactMembers, quoted]
          rw [hquoted, List.cons_append, skip_cons (by decide)]
          simp

theorem read_compact {json : Json} (h : json.all (Json.hasNumber isNumberText) = true) :
    JsonReader.read json.compact.toList = some json := by
  have hread := readValue_compact json h _ [] ends_nil (Nat.lt_succ_self json.compactChars.length)
  rw [List.append_nil] at hread
  rw [Json.compact, String.toList_ofList, JsonReader.read, hread]
  rfl

/-! ## A parser -/

/-- A parser that reads JSON, with the limits of `serde_json`, for runs on given texts. -/
@[reducible] def SerdeJson.reader : SerdeJson where
  parse text := match JsonReader.read text.toList with
    | some json =>
        if json.all (Json.hasNumber isNumberText) && json.all Json.isPlain &&
            json.nesting ≤ maxNesting then .ok json
        else .error "recursion limit exceeded"
    | none => .error "expected value"
  textError target _ := s!"invalid type, expected {target}"
  valueError target _ := s!"invalid type, expected {target}"

theorem isUncrowded_of_isPlain (json : Json) (h : json.isPlain = true) : json.isUncrowded = true := by
  match json with
  | .object ((name, _) :: _ :: _) => exact h
  | .object [_] | .object [] => rfl
  | .null | .bool _ | .number _ | .string _ | .array _ => rfl

theorem all_uncrowded (json : Json) (h : json.all Json.isPlain = true) :
    json.all Json.isUncrowded = true := by
  induction json using Json.documents with
  | null | bool | number | string => rfl
  | array items ih =>
      exact Json.allItems_iff.mpr fun item hitem => ih item hitem (Json.allItems_iff.mp h item hitem)
  | object members ih =>
      rw [Json.all, Bool.and_eq_true] at h ⊢
      exact ⟨isUncrowded_of_isPlain _ h.1, Json.allMembers_iff.mpr fun member hmember =>
        ih member hmember (Json.allMembers_iff.mp h.2 member hmember)⟩

/-- No zero leads the digits of a positive number. -/
theorem head_toDigits {n : ℕ} (h : 0 < n) : (Nat.toDigits 10 n).head? ≠ some '0' := by
  induction n using Nat.strong_induction_on with
  | h n ih =>
      rcases Nat.lt_or_ge n 10 with hlt | hge
      · have hdigit : ∀ n < 10, 0 < n → Nat.digitChar n ≠ '0' := by decide
        rw [Nat.toDigits_of_lt_base hlt]
        simpa using hdigit n hlt h
      · rw [Nat.toDigits_of_base_le (by decide) hge, List.head?_append_of_ne_nil _ Nat.toDigits_ne_nil]
        exact ih (n / 10) (by omega) (by omega)

theorem isNumberText_repr (value : ℕ) : isNumberText value.repr = true := by
  have hdigits : ∀ c ∈ Nat.toDigits 10 value, c.isDigit = true :=
    fun c hc => Nat.isDigit_of_mem_toDigits (by decide) (by decide) hc
  have htake : (Nat.toDigits 10 value).takeWhile Char.isDigit = Nat.toDigits 10 value :=
    List.takeWhile_eq_self_iff.mpr hdigits
  have hdrop : (Nat.toDigits 10 value).dropWhile Char.isDigit = [] :=
    List.dropWhile_eq_nil_iff.mpr hdigits
  have hleading : Nat.toDigits 10 value = ['0'] ∨ (Nat.toDigits 10 value).head? ≠ some '0' := by
    rcases Nat.eq_zero_or_pos value with rfl | hpos
    · exact .inl rfl
    · exact .inr (head_toDigits hpos)
  have hmagnitude : isMagnitude (Nat.toDigits 10 value) = true := by
    have hne : (Nat.toDigits 10 value).isEmpty = false := by
      simp
    simp only [isMagnitude, htake, hdrop, hne]
    simp [isFraction, isExponent, hleading]
  have hall : (Nat.toDigits 10 value).all isNumberCharacter = true := by
    refine List.all_eq_true.mpr fun c hc => ?_
    rw [isNumberCharacter, hdigits c hc, Bool.true_or]
  rw [isNumberText, isNumber, Nat.toList_repr, hall, Bool.true_and]
  · exact hmagnitude
  · intro rest heq
    have hsign := hdigits '-' (by rw [← Nat.toList_repr, heq]; exact List.mem_cons_self ..)
    cases hsign

theorem SerdeJson.reads_reader : @SerdeJson.Reads SerdeJson.reader isNumberText := by
  let _ : SerdeJson := SerdeJson.reader
  refine ⟨isNumberText_repr, ?_, ?_, ?_⟩
  · intro json h
    have hlimits : (json.all (Json.hasNumber isNumberText) && json.all Json.isPlain &&
        decide (json.nesting ≤ maxNesting)) = true := by
      rw [h.numbers, h.plain, decide_eq_true h.nesting]
      rfl
    change (match JsonReader.read json.compact.toList with | some json => _ | none => _) = _
    rw [read_compact h.numbers]
    exact if_pos hlimits
  · intro text json h
    change (match JsonReader.read text.toList with | some json => _ | none => _) = _ at h
    split at h
    · split at h
      · rename_i hlimits
        injection h with h
        subst h
        simp only [Bool.and_eq_true, decide_eq_true_eq] at hlimits
        exact ⟨hlimits.1.1, hlimits.1.2, hlimits.2⟩
      · cases h
    · cases h
  · intro json hnumbers hlimits
    refine ⟨"recursion limit exceeded", ?_⟩
    change (match JsonReader.read json.compact.toList with | some json => _ | none => _) = _
    rw [read_compact hnumbers]
    refine if_neg ?_
    simp only [Bool.and_eq_true, decide_eq_true_eq]
    rintro ⟨⟨-, hplain⟩, hnesting⟩
    rcases hlimits with hdeep | hcrowded
    · omega
    · rw [all_uncrowded json hplain] at hcrowded
      cases hcrowded

end ProofFrame
