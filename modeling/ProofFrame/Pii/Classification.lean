import ProofFrame.Pii.Detector

/-!
# What the detector reports

The order in which the detector tries the kinds hardly matters.  A text is of at most
one kind, but for a number that is both a card's and a telephone's, which counts as a
card's.  To see this, each kind has an alphabet and a mark, a character that every text
of the kind holds; the mark of a kind is in the alphabet of no kind behind it, but for
cards and telephones.
-/

namespace ProofFrame

open Lib

/-! ## What a text of a kind is -/

/-- A number from 0 to 255, in digits. -/
structure IsOctet (digits : List Char) : Prop where
  ne_nil : digits ≠ []
  all_digits : digits.all Char.isDigit = true
  range : Nat.ofDigitChars 10 digits 0 < 256

/-- Four octets, with dots between them. -/
def IsDottedQuad (text : String) : Prop :=
  ∃ octets : List (List Char), octets.length = 4 ∧ (∀ octet ∈ octets, IsOctet octet) ∧
    text.toList = List.intercalate ['.'] octets

/-- Digits and the signs between them, after a digit or a plus sign. -/
structure IsPhone (text : String) : Prop where
  size : 8 ≤ text.toList.length ∧ text.toList.length ≤ 20
  start : ∃ c rest, text.toList = c :: rest ∧ (c = '+' ∨ c.isDigit = true)
  characters : ∀ c ∈ text.toList, c.isDigit = true ∨ c ∈ ['+', ' ', '(', ')', '-']
  digits : 8 ≤ text.toList.countP Char.isDigit ∧ text.toList.countP Char.isDigit ≤ 15

/-- The text is of the kind. -/
def Detector.Recognizes [Crates] (detector : Detector) (text : String) : PiiKind → Prop
  | .email => '@' ∈ text.toList ∧ Crates.regexMatch detector.email text = true
  | .ipv4 => IsDottedQuad text ∧ Crates.regexMatch detector.ipv4 text = true
  | .iban => IsIban text
  | .paymentCard => IsLuhn text
  | .phone => IsPhone text ∧ Crates.regexMatch detector.phone text = true

/-- What is said of a text of the kind. -/
def PiiKind.confidence (kind : PiiKind) (digitOnly : Bool) : Confidence :=
  match kind, digitOnly with
  | .paymentCard, true | .phone, true => .low
  | .phone, false => .medium
  | _, _ => .high

/-! ## Bytes and characters -/

/-- Only the bytes of ASCII characters are below 128. -/
theorem le_of_mem_utf8EncodeChar {c : Char} (h : ¬c.toNat < 128) {byte : UInt8}
    (hbyte : byte ∈ String.utf8EncodeChar c) : 128 ≤ byte.toNat := by
  have hc : ¬c.val.toNat ≤ 0x7f := fun hle => h (Nat.lt_succ_of_le hle)
  unfold String.utf8EncodeChar at hbyte
  dsimp only at hbyte
  rw [if_neg hc] at hbyte
  split at hbyte
  · simp only [List.mem_cons, List.not_mem_nil, or_false] at hbyte
    rcases hbyte with rfl | rfl <;> rw [UInt8.toNat_ofNat'] <;> omega
  · split at hbyte
    · simp only [List.mem_cons, List.not_mem_nil, or_false] at hbyte
      rcases hbyte with rfl | rfl | rfl <;> rw [UInt8.toNat_ofNat'] <;> omega
    · simp only [List.mem_cons, List.not_mem_nil, or_false] at hbyte
      rcases hbyte with rfl | rfl | rfl | rfl <;> rw [UInt8.toNat_ofNat'] <;> omega

theorem utf8EncodeChar_of_ascii {c : Char} (h : c.toNat < 128) :
    String.utf8EncodeChar c = [asciiByte c] :=
  String.utf8EncodeChar_eq_singleton (utf8Size_of_ascii h)

theorem asciiByte_inj {c d : Char} (hc : c.toNat < 128) (hd : d.toNat < 128) :
    asciiByte c = asciiByte d ↔ c = d := by
  rw [← UInt8.toNat_inj, toNat_asciiByte hc, toNat_asciiByte hd, Char.toNat_inj]

/-- A text has the byte of an ASCII character exactly if it has the character. -/
theorem contains_utf8Bytes {value : String} {c : Char} (hc : c.toNat < 128) :
    (utf8Bytes value).contains (asciiByte c) = true ↔ c ∈ value.toList := by
  rw [List.contains_iff_mem, utf8Bytes, List.mem_flatMap]
  constructor
  · rintro ⟨d, hd, hmem⟩
    by_cases hascii : d.toNat < 128
    · rw [utf8EncodeChar_of_ascii hascii, List.mem_singleton, asciiByte_inj hc hascii] at hmem
      rwa [hmem]
    · have hle := le_of_mem_utf8EncodeChar hascii hmem
      rw [toNat_asciiByte hc] at hle
      omega
  · intro hmem
    exact ⟨c, hmem, by rw [utf8EncodeChar_of_ascii hc]; exact List.mem_singleton_self _⟩

/-- A property of ASCII bytes holds of all the bytes exactly if the text is ASCII and it holds of
its characters. -/
theorem all_utf8Bytes {value : String} {p : UInt8 → Bool}
    (hp : ∀ byte, p byte = true → byte.toNat < 128) :
    (utf8Bytes value).all p = true ↔
      ∀ c ∈ value.toList, c.toNat < 128 ∧ p (asciiByte c) = true := by
  rw [List.all_eq_true]
  constructor
  · intro h c hc
    have hbytes : ∀ byte ∈ String.utf8EncodeChar c, p byte = true := fun byte hbyte =>
      h byte (List.mem_flatMap.mpr ⟨c, hc, hbyte⟩)
    by_cases hascii : c.toNat < 128
    · rw [utf8EncodeChar_of_ascii hascii] at hbytes
      exact ⟨hascii, hbytes _ (List.mem_singleton_self _)⟩
    · obtain ⟨byte, rest, heq⟩ := List.exists_cons_of_ne_nil (@String.utf8EncodeChar_ne_nil c)
      have hmem : byte ∈ String.utf8EncodeChar c := heq ▸ List.mem_cons_self
      have hlow := hp byte (hbytes byte hmem)
      have hhigh := le_of_mem_utf8EncodeChar hascii hmem
      omega
  · intro h byte hbyte
    obtain ⟨c, hc, hmem⟩ := List.mem_flatMap.mp hbyte
    obtain ⟨hascii, hpc⟩ := h c hc
    rw [utf8EncodeChar_of_ascii hascii, List.mem_singleton] at hmem
    rwa [hmem]

/-! ## Addresses -/

theorem mem_intercalate {sep part : List Char} {parts : List (List Char)} {c : Char}
    (hpart : part ∈ parts) (hc : c ∈ part) : c ∈ sep.intercalate parts := by
  induction parts with
  | nil => cases hpart
  | cons head parts ih =>
      cases parts with
      | nil =>
          rw [List.intercalate_singleton]
          rwa [List.mem_singleton.mp hpart] at hc
      | cons next parts =>
          rw [List.intercalate_cons_cons]
          rcases List.mem_cons.mp hpart with rfl | hpart
          · exact List.mem_append_left _ (List.mem_append_left _ hc)
          · exact List.mem_append_right _ (ih hpart)

/-- A part without a sign is read as a `u8` exactly if it is an octet. -/
theorem isOctet_iff {part : List Char} (hplus : '+' ∉ part) :
    (!part.isEmpty && (parseUnsigned 8 (String.ofList part)).isSome) = true ↔ IsOctet part := by
  have hparse : parseUnsigned 8 (String.ofList part) =
      ((parseDigits part).map Int.ofNat).filter fun value => (0 : ℤ) ≤ value ∧ value < 2 ^ 8 := by
    unfold parseUnsigned parseInteger
    rw [String.toList_ofList]
    cases part with
    | nil => rfl
    | cons c part =>
        by_cases hc : c = '+'
        · exact absurd (hc ▸ List.mem_cons_self) hplus
        · by_cases hminus : c = '-'
          · subst hminus
            rfl
          · simp [hc, hminus]
  rw [hparse, parseDigits, Bool.and_eq_true]
  constructor
  · rintro ⟨hne, hsome⟩
    split at hsome
    · rename_i hdigits
      refine ⟨hdigits.1, hdigits.2, ?_⟩
      rw [Option.map_some, Option.isSome_filter, Option.any_some, decide_eq_true_eq] at hsome
      have hlt := hsome.2
      rw [Int.ofNat_eq_natCast] at hlt
      omega
    · cases hsome
  · intro h
    refine ⟨by simpa using h.ne_nil, ?_⟩
    rw [if_pos ⟨h.ne_nil, h.all_digits⟩, Option.map_some, Option.isSome_filter, Option.any_some,
      decide_eq_true_eq]
    have hlt := h.range
    refine ⟨Int.natCast_nonneg _, ?_⟩
    rw [Int.ofNat_eq_natCast]
    omega

theorem IsOctet.dot_notMem {octet : List Char} (h : IsOctet octet) : '.' ∉ octet := by
  intro hdot
  have := List.all_eq_true.mp h.all_digits _ hdot
  cases this

theorem validIpv4_iff {value : String} (hplus : '+' ∉ value.toList) :
    validIpv4 value = true ↔ IsDottedQuad value := by
  unfold validIpv4
  dsimp only
  rw [Bool.and_eq_true, beq_iff_eq, List.all_eq_true]
  constructor
  · rintro ⟨hlength, hparts⟩
    refine ⟨_, hlength, ?_, (List.intercalate_splitOn '.').symm⟩
    intro part hpart
    refine (isOctet_iff fun hmem => hplus ?_).mp (hparts part hpart)
    have hwhole : '+' ∈ ['.'].intercalate _ := mem_intercalate hpart hmem
    rwa [List.intercalate_splitOn] at hwhole
  · rintro ⟨octets, hlength, hoctets, htext⟩
    have hne : octets ≠ [] := fun heq => by
      rw [heq] at hlength
      cases hlength
    rw [htext, List.splitOn_intercalate '.' (fun octet hoctet => (hoctets octet hoctet).dot_notMem)
      hne]
    refine ⟨hlength, fun octet hoctet => (isOctet_iff fun hmem => ?_).mpr (hoctets octet hoctet)⟩
    have := List.all_eq_true.mp (hoctets octet hoctet).all_digits _ hmem
    cases this

theorem of_mem_intercalate {part : List Char} {parts : List (List Char)} {c : Char}
    (h : c ∈ part.intercalate parts) : c ∈ part ∨ ∃ piece ∈ parts, c ∈ piece := by
  induction parts with
  | nil => cases h
  | cons head parts ih =>
      cases parts with
      | nil =>
          rw [List.intercalate_singleton] at h
          exact .inr ⟨head, List.mem_cons_self, h⟩
      | cons next parts =>
          rw [List.intercalate_cons_cons, List.mem_append, List.mem_append] at h
          rcases h with (hhead | hsep) | htail
          · exact .inr ⟨head, List.mem_cons_self, hhead⟩
          · exact .inl hsep
          · rcases ih htail with hsep | ⟨piece, hpiece, hc⟩
            · exact .inl hsep
            · exact .inr ⟨piece, List.mem_cons_of_mem _ hpiece, hc⟩

/-- An address is made of digits and dots. -/
theorem IsDottedQuad.characters {value : String} (h : IsDottedQuad value) :
    ∀ c ∈ value.toList, c.isDigit = true ∨ c = '.' := by
  obtain ⟨octets, -, hoctets, htext⟩ := h
  intro c hc
  rw [htext] at hc
  rcases of_mem_intercalate hc with hsep | ⟨octet, hoctet, hmem⟩
  · exact .inr (List.mem_singleton.mp hsep)
  · exact .inl (List.all_eq_true.mp (hoctets octet hoctet).all_digits c hmem)

theorem IsDottedQuad.dot_mem {value : String} (h : IsDottedQuad value) : '.' ∈ value.toList := by
  obtain ⟨octets, hlength, -, htext⟩ := h
  match octets, hlength with
  | first :: second :: rest, _ =>
      rw [htext, List.intercalate_cons_cons]
      exact List.mem_append_left _ (List.mem_append_right _ (List.mem_singleton_self _))

/-- The test of `classify_cell` for an address, but for the pattern. -/
theorem isDottedQuad_iff {value : String} :
    ((utf8Bytes value).contains 46 &&
      (utf8Bytes value).all (fun byte => AsciiByte.isDigit byte || byte == 46) &&
      validIpv4 value) = true ↔ IsDottedQuad value := by
  have hbytes : ∀ byte : UInt8, (AsciiByte.isDigit byte || byte == 46) = true →
      byte.toNat < 128 := by
    intro byte h
    rw [Bool.or_eq_true, beq_iff_eq, AsciiByte.isDigit] at h
    rcases h with h | rfl
    · simp only [Bool.and_eq_true, decide_eq_true_eq] at h
      omega
    · decide
  have hcharacters : (utf8Bytes value).all (fun byte => AsciiByte.isDigit byte || byte == 46) = true ↔
      ∀ c ∈ value.toList, c.isDigit = true ∨ c = '.' := by
    rw [all_utf8Bytes hbytes]
    refine forall₂_congr fun c _ => ?_
    constructor
    · rintro ⟨hascii, h⟩
      rw [isDigit_asciiByte hascii, Bool.or_eq_true, beq_iff_eq] at h
      exact h.imp id fun h => (asciiByte_inj hascii (by decide)).mp h
    · rintro (h | rfl)
      · have hrange := isDigit_iff.mp h
        have hascii : c.toNat < 128 := by omega
        exact ⟨hascii, by rw [isDigit_asciiByte hascii, h]; rfl⟩
      · decide
  have hdot : (utf8Bytes value).contains 46 = true ↔ '.' ∈ value.toList :=
    contains_utf8Bytes (c := '.') (by decide)
  rw [Bool.and_eq_true, Bool.and_eq_true, hdot, hcharacters]
  have hplus : (∀ c ∈ value.toList, c.isDigit = true ∨ c = '.') → '+' ∉ value.toList := by
    intro h hmem
    rcases h _ hmem with h | h <;> cases h
  constructor
  · rintro ⟨⟨-, hall⟩, hvalid⟩
    exact (validIpv4_iff (hplus hall)).mp hvalid
  · intro h
    exact ⟨⟨h.dot_mem, h.characters⟩, (validIpv4_iff (hplus h.characters)).mpr h⟩

/-! ## Telephone numbers -/

/-- A character of a telephone number. -/
def isPhoneChar (c : Char) : Prop := c.isDigit = true ∨ c ∈ ['+', ' ', '(', ')', '-']

theorem ascii_of_isPhoneChar {c : Char} (h : isPhoneChar c) : c.toNat < 128 := by
  rcases h with hdigit | hsign
  · have hrange := isDigit_iff.mp hdigit
    omega
  · have hall : (['+', ' ', '(', ')', '-'].all fun d => decide (d.toNat < 128)) = true := by decide
    exact of_decide_eq_true (List.all_eq_true.mp hall c hsign)

theorem all_phoneBytes {value : String} :
    (utf8Bytes value).all
        (fun byte => AsciiByte.isDigit byte || [43, 32, 40, 41, 45].contains byte) = true ↔
      ∀ c ∈ value.toList, isPhoneChar c := by
  have hbytes : ∀ byte : UInt8,
      (AsciiByte.isDigit byte || [43, 32, 40, 41, 45].contains byte) = true → byte.toNat < 128 := by
    intro byte h
    rw [Bool.or_eq_true, List.contains_iff_mem, AsciiByte.isDigit] at h
    rcases h with h | h
    · simp only [Bool.and_eq_true, decide_eq_true_eq] at h
      omega
    · have hall : (([43, 32, 40, 41, 45] : List UInt8).all fun b => decide (b.toNat < 128)) = true :=
        by decide
      exact of_decide_eq_true (List.all_eq_true.mp hall byte h)
  rw [all_utf8Bytes hbytes]
  refine forall₂_congr fun c _ => ?_
  have hsigns : ([43, 32, 40, 41, 45] : List UInt8) = ['+', ' ', '(', ')', '-'].map asciiByte := rfl
  constructor
  · rintro ⟨hascii, h⟩
    rw [isDigit_asciiByte hascii, Bool.or_eq_true, List.contains_iff_mem, hsigns] at h
    refine h.imp id fun hsign => ?_
    obtain ⟨d, hd, heq⟩ := List.mem_map.mp hsign
    have hd' : d.toNat < 128 := ascii_of_isPhoneChar (.inr hd)
    rwa [(asciiByte_inj hd' hascii).mp heq] at hd
  · intro h
    have hascii := ascii_of_isPhoneChar h
    refine ⟨hascii, ?_⟩
    rw [isDigit_asciiByte hascii, Bool.or_eq_true, List.contains_iff_mem, hsigns]
    exact h.imp id fun hsign => List.mem_map_of_mem hsign

/-- The test of `classify_cell` for a telephone number, but for the pattern. -/
theorem isPhone_iff {value : String} :
    (phoneCandidate value = true ∧
      8 ≤ value.toList.countP Char.isDigit ∧ value.toList.countP Char.isDigit ≤ 15) ↔
      IsPhone value := by
  unfold phoneCandidate
  dsimp only
  rw [Bool.and_eq_true, Bool.and_eq_true, decide_eq_true_eq, all_phoneBytes]
  by_cases hall : ∀ c ∈ value.toList, isPhoneChar c
  swap
  · refine iff_of_false (fun h => hall h.1.2) fun h => hall h.characters
  have hascii : IsAscii value.toList := fun c hc => ascii_of_isPhoneChar (hall c hc)
  have hlength : (utf8Bytes value).length = value.toList.length := by
    rw [length_utf8Bytes, utf8ByteSize_of_ascii hascii]
  have hstart : ((utf8Bytes value).head?.any
      (fun byte => byte == 43 || AsciiByte.isDigit byte)) = true ↔
      ∃ c rest, value.toList = c :: rest ∧ (c = '+' ∨ c.isDigit = true) := by
    rw [utf8Bytes_of_ascii hascii]
    cases hvalue : value.toList with
    | nil => simp
    | cons c rest =>
        have hc : c.toNat < 128 := hascii c (hvalue ▸ List.mem_cons_self)
        rw [List.map_cons, List.head?_cons, Option.any_some, Bool.or_eq_true, beq_iff_eq,
          isDigit_asciiByte hc]
        have hplus : asciiByte c = 43 ↔ c = '+' := asciiByte_inj hc (by decide : '+'.toNat < 128)
        rw [hplus]
        constructor
        · exact fun h => ⟨c, rest, rfl, h⟩
        · rintro ⟨_, _, heq, h⟩
          obtain ⟨rfl, -⟩ := List.cons.inj heq
          exact h
  rw [hlength, hstart]
  constructor
  · rintro ⟨⟨⟨hsize, hfirst⟩, -⟩, hdigits⟩
    exact ⟨hsize, hfirst, hall, hdigits⟩
  · intro h
    exact ⟨⟨⟨h.size, h.start⟩, hall⟩, h.digits⟩

/-! ## The kinds are told apart by characters -/

/-- The characters that a text of the kind is made of. -/
def PiiKind.Alphabet : PiiKind → Char → Prop
  | .email, _ => True
  | .ipv4, c => c.isDigit = true ∨ c = '.'
  | .iban, c => c.isAlphanum = true ∨ isAsciiWhitespace c = true
  | .paymentCard, c => c.isDigit = true ∨ c = ' ' ∨ c = '-'
  | .phone, c => isPhoneChar c

/-- A text of the kind has such a character. -/
def PiiKind.Mark : PiiKind → Char → Prop
  | .email, c => c = '@'
  | .ipv4, c => c = '.'
  | .iban, c => c.isAlpha = true
  | .paymentCard, c => c.isDigit = true
  | .phone, c => c.isDigit = true

variable [Crates] {detector : Detector} {text : String} {kind kind' : PiiKind}

theorem Detector.Recognizes.alphabet (h : detector.Recognizes text kind) :
    ∀ c ∈ text.toList, kind.Alphabet c := by
  intro c hc
  cases kind with
  | email => trivial
  | ipv4 => exact h.1.characters c hc
  | iban =>
      cases hspace : isAsciiWhitespace c with
      | true => exact .inr hspace
      | false =>
          have hkept : c ∈ ibanChars text := List.mem_filter.mpr ⟨hc, by rw [hspace]; rfl⟩
          have halphanum := (ibanShape_iff.mp h.shape).1.alphanum
          exact .inl (List.all_eq_true.mp halphanum c hkept)
  | paymentCard => exact h.characters c hc
  | phone => exact h.1.characters c hc

theorem Detector.Recognizes.mark (h : detector.Recognizes text kind) :
    ∃ c ∈ text.toList, kind.Mark c := by
  cases kind with
  | email => exact ⟨'@', h.1, rfl⟩
  | ipv4 => exact ⟨'.', h.1.dot_mem, rfl⟩
  | iban =>
      have hlong := h.shape.le_length
      have hcountry := h.shape.country
      cases hkept : ibanChars text with
      | nil =>
          rw [hkept] at hlong
          cases hlong
      | cons c rest =>
          have hc : c ∈ ibanChars text := hkept ▸ List.mem_cons_self
          rw [hkept, List.take_succ_cons, List.all_cons, Bool.and_eq_true] at hcountry
          exact ⟨c, List.mem_of_mem_filter hc, hcountry.1⟩
  | paymentCard =>
      have hpos : 0 < (cardDigits text).length := lt_of_lt_of_le (by decide) h.digits.1
      obtain ⟨c, hc⟩ := List.exists_mem_of_length_pos hpos
      exact ⟨c, List.mem_of_mem_filter hc, (List.mem_filter.mp hc).2⟩
  | phone =>
      obtain ⟨c, hc, hdigit⟩ :=
        List.countP_pos_iff.mp (lt_of_lt_of_le (by decide : 0 < 8) h.1.digits.1)
      exact ⟨c, hc, hdigit⟩

/-- The place of a kind in the order in which `classify_cell` tries them. -/
def PiiKind.rank : PiiKind → ℕ
  | .email => 0
  | .ipv4 => 1
  | .iban => 2
  | .paymentCard => 3
  | .phone => 4

omit [Crates] in
theorem isDigit_of_isAlpha {c : Char} (h : c.isAlpha = true) : c.isDigit = false := by
  cases hdigit : c.isDigit with
  | false => rfl
  | true =>
      have hrange := isDigit_iff.mp hdigit
      have hascii : c.toNat < 128 := by omega
      have hbyte := isAlphabetic_asciiByte hascii
      rw [h, AsciiByte.isAlphabetic, toNat_asciiByte hascii] at hbyte
      simp only [Bool.or_eq_true, Bool.and_eq_true, decide_eq_true_eq] at hbyte
      omega

omit [Crates] in
/-- No kind has the mark of an earlier one in its alphabet, but telephone numbers that of cards. -/
theorem PiiKind.Mark.not_alphabet {c : Char} (h : kind.Mark c) (hrank : kind.rank < kind'.rank)
    (hcard : kind ≠ .paymentCard) : ¬kind'.Alphabet c := by
  cases kind with
  | email =>
      obtain rfl : c = '@' := h
      cases kind' with
      | email => exact absurd hrank (lt_irrefl _)
      | ipv4 | iban | paymentCard => unfold PiiKind.Alphabet; decide
      | phone => unfold PiiKind.Alphabet isPhoneChar; decide
  | ipv4 =>
      obtain rfl : c = '.' := h
      cases kind' with
      | email | ipv4 => exact absurd hrank (by decide)
      | iban | paymentCard => unfold PiiKind.Alphabet; decide
      | phone => unfold PiiKind.Alphabet isPhoneChar; decide
  | iban =>
      have hdigit : ¬c.isDigit = true := by rw [isDigit_of_isAlpha h]; exact Bool.false_ne_true
      cases kind' with
      | email | ipv4 | iban => exact absurd hrank (by decide)
      | paymentCard =>
          rintro (hc | rfl | rfl)
          · exact hdigit hc
          · cases h
          · cases h
      | phone =>
          rintro (hc | hsign)
          · exact hdigit hc
          · have hall : (['+', ' ', '(', ')', '-'].all fun d => !d.isAlpha) = true := by decide
            have halpha : c.isAlpha = true := h
            have hother := List.all_eq_true.mp hall c hsign
            rw [halpha] at hother
            cases hother
  | paymentCard => exact absurd rfl hcard
  | phone => cases kind' <;> exact absurd hrank (by decide)

/-- A text is of one kind, but for the numbers of cards that are telephone numbers. -/
theorem Detector.Recognizes.not_of_rank_lt (h : detector.Recognizes text kind)
    (hrank : kind.rank < kind'.rank) (hcard : kind ≠ .paymentCard) :
    ¬detector.Recognizes text kind' := by
  intro h'
  obtain ⟨c, hc, hmark⟩ := h.mark
  exact hmark.not_alphabet hrank hcard (h'.alphabet c hc)

omit [Crates] in
theorem PiiKind.rank_injective : Function.Injective PiiKind.rank := by
  intro kind kind' h
  cases kind <;> cases kind' <;> first | rfl | cases h

/-- The kind that is reported for a text of a kind. -/
theorem Detector.Recognizes.unique (h : detector.Recognizes text kind)
    (hphone : kind = .phone → ¬IsLuhn text) (h' : detector.Recognizes text kind')
    (hphone' : kind' = .phone → ¬IsLuhn text) : kind = kind' := by
  -- an overlap is one of a card, and then the other kind is not a telephone number
  have hlast : ∀ {kind kind' : PiiKind}, detector.Recognizes text kind →
      detector.Recognizes text kind' → (kind' = .phone → ¬IsLuhn text) →
      ¬kind.rank < kind'.rank := by
    intro kind kind' h h' hphone' hrank
    by_cases hcard : kind = .paymentCard
    · subst hcard
      have hkind' : kind' = .phone := by
        cases kind' <;> first | rfl | exact absurd hrank (by decide)
      exact hphone' hkind' h
    · exact h.not_of_rank_lt hrank hcard h'
  rcases lt_trichotomy kind.rank kind'.rank with hlt | heq | hgt
  · exact absurd hlt (hlast h h' hphone')
  · exact PiiKind.rank_injective heq
  · exact absurd hgt (hlast h' h hphone)

/-! ## Classification -/

/-- The kind and the confidence that are reported for a text. -/
structure Detector.Reports (detector : Detector) (text : String) (numericColumn : Bool)
    (found : Match) : Prop where
  recognizes : detector.Recognizes text found.kind
  card_first : found.kind = .phone → ¬IsLuhn text
  confidence : found.confidence =
    found.kind.confidence (numericColumn && text.toList.all Char.isDigit)

theorem Detector.Reports.eq_some_iff {numericColumn : Bool} {found : Match}
    (h : detector.Reports text numericColumn found) (other : Match) :
    some found = some other ↔ detector.Reports text numericColumn other := by
  constructor
  · intro heq
    rwa [← Option.some.inj heq]
  · intro hother
    obtain ⟨kind, confidence⟩ := found
    obtain ⟨kind', confidence'⟩ := other
    obtain rfl : kind = kind' :=
      h.recognizes.unique h.card_first hother.recognizes hother.card_first
    rw [show confidence = confidence' from h.confidence.trans hother.confidence.symm]

omit [Crates] in
theorem digitOnlyConfidence_eq (text : String) (numericColumn : Bool) :
    digitOnlyConfidence text numericColumn .high =
        PiiKind.paymentCard.confidence (numericColumn && text.toList.all Char.isDigit) ∧
      digitOnlyConfidence text numericColumn .medium =
        PiiKind.phone.confidence (numericColumn && text.toList.all Char.isDigit) := by
  unfold digitOnlyConfidence
  dsimp only
  cases numericColumn && text.toList.all Char.isDigit <;> exact ⟨rfl, rfl⟩

/-- **A cell is reported as what it is.**  The detector never leaves the range of its arithmetic,
and it reports a kind exactly for the texts of the kind: account and card numbers are those whose
checksums hold, and the order in which the kinds are tried decides only between a card and a
telephone number. -/
theorem classifyCell_reports (detector : Detector) (value : String) (numericColumn : Bool) :
    ∃ result, detector.classifyCell value numericColumn = .ok result ∧
      ∀ found, result = some found ↔ detector.Reports (trim value) numericColumn found := by
  unfold Detector.classifyCell
  generalize trim value = text
  obtain ⟨iban, hiban, hibanIff⟩ := validIban_eq text
  obtain ⟨card, hcard, hcardIff⟩ := luhnFiltered_eq text
  obtain ⟨hcardConfidence, hphoneConfidence⟩ := digitOnlyConfidence_eq text numericColumn
  have hemailIff : ((utf8Bytes text).contains 64 && Crates.regexMatch detector.email text) = true ↔
      detector.Recognizes text .email := by
    rw [Bool.and_eq_true]
    exact and_congr_left' (contains_utf8Bytes (c := '@') (by decide))
  have hipv4Iff : ((utf8Bytes text).contains 46 &&
      (utf8Bytes text).all (fun byte => AsciiByte.isDigit byte || byte == 46) &&
      Crates.regexMatch detector.ipv4 text && validIpv4 text) = true ↔
      detector.Recognizes text .ipv4 := by
    rw [Bool.and_right_comm, Bool.and_eq_true, isDottedQuad_iff]
    exact Iff.rfl
  have hread : ∀ answer : Bool, Run.required (some answer) arithmeticOverflow = .ok answer :=
    fun _ => rfl
  dsimp only
  rw [hiban, hcard, hread iban, hread card]
  -- the kinds in the order of the source; a kind that is not recognised leaves the next one to try
  by_cases hemail : detector.Recognizes text .email
  · rw [if_pos (hemailIff.mpr hemail)]
    exact ⟨_, rfl, Detector.Reports.eq_some_iff ⟨hemail, fun h => absurd h (by decide), rfl⟩⟩
  rw [if_neg (mt hemailIff.mp hemail)]
  by_cases hipv4 : detector.Recognizes text .ipv4
  · rw [if_pos (hipv4Iff.mpr hipv4)]
    exact ⟨_, rfl, Detector.Reports.eq_some_iff ⟨hipv4, fun h => absurd h (by decide), rfl⟩⟩
  rw [if_neg (mt hipv4Iff.mp hipv4)]
  rw [ok_bind]
  by_cases hisIban : detector.Recognizes text .iban
  · rw [if_pos (hibanIff.mpr hisIban)]
    exact ⟨_, rfl, Detector.Reports.eq_some_iff ⟨hisIban, fun h => absurd h (by decide), rfl⟩⟩
  rw [if_neg (mt hibanIff.mp hisIban)]
  rw [ok_bind]
  by_cases hisCard : detector.Recognizes text .paymentCard
  · rw [if_pos (hcardIff.mpr hisCard)]
    have hother : PiiKind.paymentCard ≠ .phone := by decide
    exact ⟨_, rfl, Detector.Reports.eq_some_iff
      ⟨hisCard, fun h => absurd h hother, hcardConfidence⟩⟩
  rw [if_neg (mt hcardIff.mp hisCard)]
  -- whatever is reported is recognised, and nothing is
  have hnone : ¬detector.Recognizes text .phone → ∀ found, (none : Option Match) = some found ↔
      detector.Reports text numericColumn found := by
    intro hphone found
    refine iff_of_false (Option.some_ne_none found).symm fun h => ?_
    have hrecognizes := h.recognizes
    cases hkind : found.kind <;> rw [hkind] at hrecognizes <;> contradiction
  by_cases hpattern : (phoneCandidate text && Crates.regexMatch detector.phone text) = true
  · obtain ⟨hcandidate, hmatch⟩ := Bool.and_eq_true_iff.mp hpattern
    rw [if_pos hpattern]
    by_cases hdigits : 8 ≤ text.toList.countP Char.isDigit ∧ text.toList.countP Char.isDigit ≤ 15
    · have hphone : detector.Recognizes text .phone := ⟨isPhone_iff.mp ⟨hcandidate, hdigits⟩, hmatch⟩
      rw [if_pos hdigits]
      exact ⟨_, rfl, Detector.Reports.eq_some_iff ⟨hphone, fun _ => hisCard, hphoneConfidence⟩⟩
    · rw [if_neg hdigits]
      exact ⟨_, rfl, hnone fun h => hdigits h.1.digits⟩
  · rw [if_neg hpattern]
    refine ⟨_, rfl, hnone fun h => hpattern ?_⟩
    rw [Bool.and_eq_true]
    exact ⟨(isPhone_iff.mpr h.1).1, h.2⟩

end ProofFrame
