import ProofFrame.Lib.Digits
import ProofFrame.Lib.Steps
import ProofFrame.Review.Page

/-!
# Data cannot steer a review

Whatever strings a report, a contract or a schema holds, they end up in pieces of
data that the page around them does not depend on.

## Strategy

* `HtmlSafe` and `MarkdownSafe` say what the text of a piece of data may look like.
  Both are kept by putting texts together, and hold of what becomes of one character,
  so they hold of what `escape_str` and `markdown_escape_str` return.
* `DataAll` lifts them to pages, section by section.
* `EngineTyped` is what makes the few scalars safe that the summary shows as they are.
-/

namespace ProofFrame

open Lib Lib.Run

namespace Review

/-! ## What a piece of data may look like in HTML -/

/-- The entities that `escape_str` emits. -/
def entities : List (List Char) :=
  ["&amp;".toList, "&lt;".toList, "&gt;".toList, "&quot;".toList, "&#x27;".toList]

/-- No character opens a tag or closes an attribute, and every ampersand starts an entity. -/
structure HtmlSafe (text : List Char) : Prop where
  raw : ∀ c ∈ text, c ≠ '<' ∧ c ≠ '>' ∧ c ≠ '"' ∧ c ≠ '\''
  ampersand : ∀ before after, text = before ++ '&' :: after →
    ∃ entity ∈ entities, entity <+: '&' :: after

theorem htmlSafe_nil : HtmlSafe [] where
  raw := by simp
  ampersand := by simp

theorem HtmlSafe.append {first second : List Char} (h : HtmlSafe first) (h' : HtmlSafe second) :
    HtmlSafe (first ++ second) where
  raw c hc := (List.mem_append.mp hc).elim (h.raw c) (h'.raw c)
  ampersand before after hsplit := by
    rcases List.append_eq_append_iff.mp hsplit with ⟨middle, hbefore, hsecond⟩ |
        ⟨middle, hfirst, hafter⟩
    · exact h'.ampersand middle after hsecond
    · cases middle with
      | nil => exact h'.ampersand [] after hafter.symm
      | cons c middle =>
          -- the ampersand is in the first text, and so is the whole entity
          obtain ⟨rfl, rfl⟩ := List.cons.inj hafter
          obtain ⟨entity, hentity, hle⟩ := h.ampersand before middle hfirst
          exact ⟨entity, hentity, hle.trans (List.prefix_append ('&' :: middle) second)⟩

/-- A text without any of the characters that are escaped. -/
theorem htmlSafe_of_plain {text : List Char}
    (h : ∀ c ∈ text, c ≠ '&' ∧ c ≠ '<' ∧ c ≠ '>' ∧ c ≠ '"' ∧ c ≠ '\'') : HtmlSafe text where
  raw c hc := (h c hc).2
  ampersand before after hsplit := by
    have hmem : '&' ∈ text := by simp [hsplit]
    exact absurd rfl (h '&' hmem).1

theorem htmlSafe_entity {name : List Char} (hmem : '&' :: name ∈ entities)
    (hname : ∀ c ∈ name, c ≠ '&' ∧ c ≠ '<' ∧ c ≠ '>' ∧ c ≠ '"' ∧ c ≠ '\'') :
    HtmlSafe ('&' :: name) where
  raw c hc := by
    rcases List.mem_cons.mp hc with rfl | hc
    · decide
    · exact (hname c hc).2
  ampersand before after hsplit := by
    cases before with
    | nil =>
        obtain ⟨-, rfl⟩ := List.cons.inj hsplit
        exact ⟨'&' :: name, hmem, List.prefix_refl _⟩
    | cons c before =>
        have hinner : '&' ∈ name := by simp [(List.cons.inj hsplit).2]
        exact absurd rfl (hname '&' hinner).1

theorem htmlSafe_escapeCharacter (c : Char) : HtmlSafe (escapeCharacter c) := by
  unfold escapeCharacter
  split
  · exact htmlSafe_entity (by decide) (forall_mem_of_all (by decide))
  split
  · exact htmlSafe_entity (by decide) (forall_mem_of_all (by decide))
  split
  · exact htmlSafe_entity (by decide) (forall_mem_of_all (by decide))
  split
  · exact htmlSafe_entity (by decide) (forall_mem_of_all (by decide))
  split
  · exact htmlSafe_entity (by decide) (forall_mem_of_all (by decide))
  · apply htmlSafe_of_plain
    intro d hd
    obtain rfl := List.mem_singleton.mp hd
    exact ⟨‹_›, ‹_›, ‹_›, ‹_›, ‹_›⟩

theorem htmlSafe_escapeStr (value : List Char) : HtmlSafe (escapeStr value) := by
  induction value with
  | nil => exact htmlSafe_nil
  | cons c value ih =>
      rw [escapeStr, List.flatMap_cons]
      exact (htmlSafe_escapeCharacter c).append ih

/-! ## What a piece of data may look like in Markdown -/

/-- Read from the left, every listed character follows the backslash that escapes it. -/
def Escaped : List Char → Prop
  | [] => True
  | [c] => c ∉ markdownMeta
  | c :: next :: rest =>
      if c = '\\' then next ∈ markdownMeta ∧ Escaped rest
      else c ∉ markdownMeta ∧ Escaped (next :: rest)

/-- The text is on one line, opens no tag and escapes what means something in Markdown. -/
structure MarkdownSafe (text : List Char) : Prop where
  oneLine : ∀ c ∈ text, isWhitespace c = true → c = ' '
  noTag : '<' ∉ text
  escaped : Escaped text

theorem backslash_mem : '\\' ∈ markdownMeta := by decide

theorem escaped_cons {c : Char} (hc : c ∉ markdownMeta) {rest : List Char} :
    Escaped (c :: rest) ↔ Escaped rest := by
  have hne : c ≠ '\\' := by
    rintro rfl
    exact hc backslash_mem
  cases rest with
  | nil => simp [Escaped, hc]
  | cons next rest => simp [Escaped, hne, hc]

theorem escaped_meta {c : Char} (hc : c ∈ markdownMeta) {rest : List Char} :
    Escaped ('\\' :: c :: rest) ↔ Escaped rest := by
  simp [Escaped, hc]

theorem escaped_flatMap (value : List Char) : Escaped (value.flatMap escapeMeta) := by
  induction value with
  | nil => trivial
  | cons c value ih =>
      rw [List.flatMap_cons, escapeMeta]
      by_cases hc : c ∈ markdownMeta
      · rw [if_pos hc]
        exact (escaped_meta hc).mpr ih
      · rw [if_neg hc]
        exact (escaped_cons hc).mpr ih

/-- A character that means nothing to Markdown. -/
def IsPlain (c : Char) : Prop := isWhitespace c = false ∧ c ≠ '<' ∧ c ∉ markdownMeta

instance (c : Char) : Decidable (IsPlain c) := inferInstanceAs (Decidable (_ ∧ _))

theorem markdownSafe_of_plain {text : List Char} (h : ∀ c ∈ text, IsPlain c) :
    MarkdownSafe text where
  oneLine c hc hspace := by
    rw [(h c hc).1] at hspace
    cases hspace
  noTag hmem := absurd rfl (h '<' hmem).2.1
  escaped := by
    induction text with
    | nil => trivial
    | cons c text ih =>
        obtain ⟨hc, htext⟩ := List.forall_mem_cons.mp h
        exact (escaped_cons hc.2.2).mpr (ih htext)

/-! ### Whitespace -/

theorem splitWhitespace_words {value : List Char} : ∀ {word : List Char},
    (∀ c ∈ word, isWhitespace c = false) →
      ∀ found ∈ splitWhitespace word value, ∀ c ∈ found, isWhitespace c = false := by
  induction value with
  | nil =>
      intro word hword found hfound
      rw [splitWhitespace] at hfound
      split at hfound
      · cases hfound
      · obtain rfl := List.mem_singleton.mp hfound
        exact hword
  | cons c value ih =>
      intro word hword found hfound
      have hnil : ∀ d ∈ ([] : List Char), isWhitespace d = false := by simp
      rw [splitWhitespace] at hfound
      by_cases hc : isWhitespace c = true
      · rw [if_pos hc] at hfound
        split at hfound
        · exact ih hnil found hfound
        · rcases List.mem_cons.mp hfound with rfl | hfound
          · exact hword
          · exact ih hnil found hfound
      · rw [if_neg hc] at hfound
        refine ih (fun d hd => ?_) found hfound
        rcases List.mem_append.mp hd with hd | hd
        · exact hword d hd
        · obtain rfl := List.mem_singleton.mp hd
          exact Bool.eq_false_iff.mpr hc

theorem mem_intercalate {c d : Char} {words : List (List Char)}
    (h : c ∈ [d].intercalate words) : c = d ∨ ∃ word ∈ words, c ∈ word := by
  induction words with
  | nil =>
      rw [List.intercalate_nil] at h
      cases h
  | cons word words ih =>
      by_cases hne : words = []
      · subst hne
        rw [List.intercalate_singleton] at h
        exact .inr ⟨word, List.mem_singleton_self _, h⟩
      · rw [List.intercalate_cons_of_ne_nil hne] at h
        rcases List.mem_append.mp h with h | h
        · rcases List.mem_append.mp h with h | h
          · exact .inr ⟨word, List.mem_cons_self .., h⟩
          · exact .inl (List.mem_singleton.mp h)
        · rcases ih h with h | ⟨other, hother, h⟩
          · exact .inl h
          · exact .inr ⟨other, List.mem_cons_of_mem _ hother, h⟩

/-- The words of a text have one blank between them and no other whitespace. -/
theorem oneLine_collapsed (value : List Char) :
    ∀ c ∈ [' '].intercalate (splitWhitespace [] value), isWhitespace c = true → c = ' ' := by
  intro c hc hspace
  rcases mem_intercalate hc with h | ⟨word, hword, hc⟩
  · exact h
  · rw [splitWhitespace_words (by simp) word hword c hc] at hspace
    cases hspace

theorem oneLine_bound {value : List Char} (h : ∀ c ∈ value, isWhitespace c = true → c = ' ') :
    ∀ c ∈ bound value, isWhitespace c = true → c = ' ' := by
  intro c hc hspace
  have hsuffix : ∀ c ∈ "… (see JSON)".toList, isWhitespace c = true → c = ' ' :=
    forall_mem_of_all (by decide)
  unfold bound at hc
  split at hc
  · exact h c hc hspace
  · rcases List.mem_append.mp hc with hc | hc
    · exact h c (List.mem_of_mem_take hc) hspace
    · exact hsuffix c hc hspace

theorem oneLine_escapeStr {value : List Char}
    (h : ∀ c ∈ value, isWhitespace c = true → c = ' ') :
    ∀ c ∈ escapeStr value, isWhitespace c = true → c = ' ' := by
  intro c hc hspace
  obtain ⟨d, hd, hc⟩ := List.mem_flatMap.mp hc
  have hentity : ∀ c ∈ entities.flatten, isWhitespace c = false := forall_mem_of_all (by decide)
  have hcases : (∃ entity ∈ entities, c ∈ entity) ∨ c = d := by
    unfold escapeCharacter at hc
    split at hc
    · exact .inl ⟨_, by decide, hc⟩
    split at hc
    · exact .inl ⟨_, by decide, hc⟩
    split at hc
    · exact .inl ⟨_, by decide, hc⟩
    split at hc
    · exact .inl ⟨_, by decide, hc⟩
    split at hc
    · exact .inl ⟨_, by decide, hc⟩
    · exact .inr (List.mem_singleton.mp hc)
  rcases hcases with ⟨entity, hmem, hc⟩ | rfl
  · rw [hentity c (List.mem_flatten.mpr ⟨entity, hmem, hc⟩)] at hspace
    cases hspace
  · exact h c hd hspace

theorem mem_escapeMeta {c d : Char} (h : c ∈ escapeMeta d) : c = '\\' ∨ c = d := by
  unfold escapeMeta at h
  split at h
  · simpa using h
  · exact .inr (List.mem_singleton.mp h)

theorem markdownSafe_markdownEscapeStr (value : List Char) :
    MarkdownSafe (markdownEscapeStr value) where
  oneLine c hc hspace := by
    obtain ⟨d, hd, hc⟩ := List.mem_flatMap.mp hc
    rcases mem_escapeMeta hc with rfl | rfl
    · cases hspace
    · exact oneLine_escapeStr (oneLine_bound (oneLine_collapsed value)) c hd hspace
  noTag hmem := by
    obtain ⟨d, hd, hc⟩ := List.mem_flatMap.mp hmem
    rcases mem_escapeMeta hc with h | rfl
    · cases h
    · exact ((htmlSafe_escapeStr _).raw '<' hd).1 rfl
  escaped := escaped_flatMap _

/-! ## Pages -/

/-- Every piece of data of the page has the property. -/
def DataAll (P : List Char → Prop) (page : Page) : Prop :=
  ∀ text, Piece.data text ∈ page → P text

section Pages

variable {P : List Char → Prop} {page rest : Page}

@[simp] theorem dataAll_nil : DataAll P [] := by
  intro text h
  cases h

@[simp] theorem dataAll_template {text : String} :
    DataAll P (.template text :: page) ↔ DataAll P page := by
  simp [DataAll]

@[simp] theorem dataAll_data {text : List Char} :
    DataAll P (.data text :: page) ↔ P text ∧ DataAll P page := by
  simp [DataAll]

@[simp] theorem dataAll_append : DataAll P (page ++ rest) ↔ DataAll P page ∧ DataAll P rest := by
  simp only [DataAll, List.mem_append]
  exact ⟨fun h => ⟨fun text ht => h text (.inl ht), fun text ht => h text (.inr ht)⟩,
    fun h text ht => ht.elim (h.1 text) (h.2 text)⟩

theorem dataAll_flatten {pages : List Page} (h : ∀ page ∈ pages, DataAll P page) :
    DataAll P pages.flatten := by
  intro text htext
  obtain ⟨page, hpage, htext⟩ := List.mem_flatten.mp htext
  exact h page hpage text htext

theorem dataAll_flatMap {ι : Type} {items : List ι} {f : ι → Page}
    (h : ∀ item, DataAll P (f item)) : DataAll P (items.flatMap f) :=
  dataAll_flatten fun page hpage => by
    obtain ⟨item, -, rfl⟩ := List.mem_map.mp hpage
    exact h item

/-- The pages of the items of a list, where each can be made. -/
theorem dataAll_mapM {ι : Type} {items : List ι} {f : ι → Except Fault Page} {pages : List Page}
    (hpages : items.mapM f = .ok pages) (h : ∀ item page, f item = .ok page → DataAll P page) :
    DataAll P pages.flatten := by
  apply dataAll_flatten
  intro page hpage
  obtain ⟨item, -, hitem⟩ := exists_of_forall₂ (mapM_eq_ok.mp hpages).flip hpage
  exact h item page hitem

end Pages

@[simp] theorem dataAll_renderHtml (segments : List Segment) :
    DataAll HtmlSafe (renderHtml segments) := by
  intro text h
  obtain ⟨segment, -, heq⟩ := List.mem_map.mp h
  cases segment with
  | own => cases heq
  | data value =>
      cases heq
      exact htmlSafe_escapeStr value

@[simp] theorem dataAll_renderMarkdown (segments : List Segment) :
    DataAll MarkdownSafe (renderMarkdown segments) := by
  intro text h
  obtain ⟨segment, -, heq⟩ := List.mem_map.mp h
  cases segment with
  | own => cases heq
  | data value =>
      cases heq
      exact markdownSafe_markdownEscapeStr value

/-! ### The sections of the HTML page -/

section Html

variable {report evidence contract : Json} {label : List Char} {names : List String} {page : Page}

@[simp] theorem htmlSafe_escapeText (value : List Char) : HtmlSafe (escapeText value) :=
  htmlSafe_escapeStr _

@[simp] theorem htmlSafe_escape (value : Json) : HtmlSafe (escape value) := htmlSafe_escapeStr _

theorem dataAll_actionSection (h : actionSection report label = .ok page) :
    DataAll HtmlSafe page := by
  obtain ⟨⟨title, instruction⟩, -, h⟩ := bind_eq_ok.mp h
  obtain ⟨isValid, -, h⟩ := bind_eq_ok.mp h
  obtain ⟨found, -, h⟩ := bind_eq_ok.mp h
  cases h
  by_cases hfound : (!isValid && found.isEmpty) = true
  · simp [hfound]
  · simp [hfound]

theorem dataAll_metricsSection (h : metricsSection report = .ok page) :
    DataAll HtmlSafe page := by
  obtain ⟨rows, -, h⟩ := bind_eq_ok.mp h
  obtain ⟨violations, -, h⟩ := bind_eq_ok.mp h
  obtain ⟨found, -, h⟩ := bind_eq_ok.mp h
  cases h
  simp [metric]

theorem dataAll_findingsSection (h : findingsSection report = .ok page) :
    DataAll HtmlSafe page := by
  obtain ⟨found, -, h⟩ := bind_eq_ok.mp h
  obtain ⟨articles, harticles, h⟩ := bind_eq_ok.mp h
  have hsafe : DataAll HtmlSafe articles.flatten := by
    refine dataAll_mapM harticles fun finding article harticle => ?_
    obtain ⟨rule, -, harticle⟩ := bind_eq_ok.mp harticle
    cases harticle
    simp [findingArticle, htmlSafe_escapeStr]
  cases h
  split <;> simp [hsafe]

theorem dataAll_idleSection : DataAll HtmlSafe (idleSection report names) := by
  unfold idleSection
  dsimp only
  split
  · exact dataAll_nil
  · have hsafe : DataAll HtmlSafe ((unexercised report names).flatMap fun name =>
        idleArticle (escapeText name)) := dataAll_flatMap fun name => by simp [idleArticle]
    simp [hsafe]

theorem dataAll_contractSection : DataAll HtmlSafe (contractSection contract) := by
  unfold contractSection
  simp only [dataAll_append, dataAll_template, dataAll_nil, and_true, true_and]
  apply dataAll_flatMap
  intro name
  split
  · simp [ruleDetails, htmlSafe_escapeStr]
  · exact dataAll_nil

theorem dataAll_identitySection (h : identitySection report evidence = .ok page) :
    DataAll HtmlSafe page := by
  obtain ⟨dataset, -, h⟩ := bind_eq_ok.mp h
  obtain ⟨version, -, h⟩ := bind_eq_ok.mp h
  cases h
  simp only [dataAll_append, dataAll_template, dataAll_nil, and_true, true_and]
  exact dataAll_flatMap fun pair => by simp [identityPair]

theorem dataAll_reviewHtml {label : String}
    (h : reviewHtml report evidence contract label names = .ok page) : DataAll HtmlSafe page := by
  obtain ⟨top, htop, h⟩ := bind_eq_ok.mp h
  obtain ⟨metrics, hmetrics, h⟩ := bind_eq_ok.mp h
  obtain ⟨found, hfound, h⟩ := bind_eq_ok.mp h
  obtain ⟨identity, hidentity, h⟩ := bind_eq_ok.mp h
  cases h
  simp [dataAll_actionSection htop, dataAll_metricsSection hmetrics,
    dataAll_findingsSection hfound, dataAll_idleSection, dataAll_contractSection,
    dataAll_identitySection hidentity]

end Html

/-! ## Reports of the engine -/

/-- The fields the pages read have the types the engine writes them with.  Every string among them
may be any string but the name of the fingerprint version. -/
structure EngineTyped (report evidence : Json) : Prop where
  valid : ∃ value, report.get "valid" = some (.bool value)
  findings : ∃ items, report.get "findings" = some (.array items) ∧
    ∀ finding ∈ items, ∃ rule, finding.get "rule" = some (.string rule)
  violations : ∃ count, report.get "violation_count" = some (.unsigned count)
  rows : ∃ count, report.get "rows" = some (.unsigned count)
  dataset : ∃ (dataset : Json) (bytes : List ℕ), evidence.get "dataset" = some dataset ∧
    (∃ version ∈ ["v1", "v2"], dataset.get "fingerprint_version" = some (.string version)) ∧
    dataset.get "fingerprint_digest" = some (.array (bytes.map Json.unsigned)) ∧
    ∀ byte ∈ bytes, byte < 2 ^ 8
  version : ∃ (engine : Json) (version : String), evidence.get "engine" = some engine ∧
    engine.get "version" = some (.string version)

theorem isPlain_digit {c : Char} (h : c.isDigit = true) : IsPlain c := by
  have hrange := isDigit_iff.mp h
  have hmeta : ∀ d ∈ '<' :: markdownMeta, d.toNat < 48 ∨ 57 < d.toNat :=
    forall_mem_of_all (by decide)
  refine ⟨?_, ?_, ?_⟩
  · unfold isWhitespace
    simp
    omega
  · rintro rfl
    exact absurd (hmeta '<' (List.mem_cons_self ..)) (by omega)
  · intro hc
    exact absurd (hmeta c (List.mem_cons_of_mem _ hc)) (by omega)

theorem markdownSafe_unsigned (count : ℕ) : MarkdownSafe (scalar (.unsigned count)) := by
  apply markdownSafe_of_plain
  intro c hc
  show IsPlain c
  have hmem : c ∈ count.repr.toList := hc
  rw [Nat.toList_repr] at hmem
  exact isPlain_digit (Nat.isDigit_of_mem_toDigits (by decide) (by decide) hmem)

theorem isPlain_hexByte {byte : ℕ} (h : byte < 2 ^ 8) : ∀ c ∈ hexByte byte, IsPlain c := by
  have hdigit : ∀ digit < 16, IsPlain (Nat.digitChar digit) := by decide
  intro c hc
  rw [hexByte, List.mem_cons, List.mem_singleton] at hc
  rcases hc with rfl | rfl
  · exact hdigit _ (by omega)
  · exact hdigit _ (by omega)

section Typed

variable {report evidence contract : Json} {names : List String} {page : Page}

/-- The fingerprint of an engine is letters, digits, dashes and a colon. -/
theorem EngineTyped.fingerprint (h : EngineTyped report evidence) :
    ∃ text, fingerprint evidence = .ok text ∧ MarkdownSafe text := by
  obtain ⟨dataset, bytes, hdataset, ⟨version, hversion, hname⟩, hdigest, hbytes⟩ := h.dataset
  have hhex : (bytes.map Json.unsigned).mapM (fun byte => do
      let byte ← required (Serde.unsigned (2 ^ 8) byte) (missing "dataset.fingerprint_digest")
      .ok (hexByte byte)) = .ok (bytes.map hexByte) := by
    rw [mapM_eq_ok, List.forall₂_map_left_iff, List.forall₂_map_right_iff, List.forall₂_same]
    intro byte hbyte
    rw [Json.unsigned, Serde.unsigned, Serde.parseUnsigned_repr, Option.filter_some,
      decide_eq_true (hbytes byte hbyte)]
    rfl
  refine ⟨"pf-fp-".toList ++ version.toList ++ ":".toList ++ (bytes.map hexByte).flatten, ?_, ?_⟩
  · unfold Review.fingerprint
    refine bind_eq_ok.mpr ⟨dataset, by rw [hdataset]; rfl, ?_⟩
    refine bind_eq_ok.mpr ⟨.string version, by rw [hname]; rfl, ?_⟩
    rw [hdigest]
    refine bind_eq_ok.mpr ⟨bytes.map Json.unsigned, rfl, ?_⟩
    exact bind_eq_ok.mpr ⟨bytes.map hexByte, hhex, rfl⟩
  · apply markdownSafe_of_plain
    intro c hc
    have hfixed : ∀ c ∈ "pf-fp-".toList ++ version.toList ++ ":".toList, IsPlain c := by
      rcases List.mem_pair.mp hversion with rfl | rfl
      · exact forall_mem_of_all (by decide)
      · exact forall_mem_of_all (by decide)
    rcases List.mem_append.mp hc with hc | hc
    · exact hfixed c hc
    · obtain ⟨text, htext, hc⟩ := List.mem_flatten.mp hc
      obtain ⟨byte, hbyte, rfl⟩ := List.mem_map.mp htext
      exact isPlain_hexByte (hbytes byte hbyte) c hc

theorem dataAll_markdownFindings {found : List Json} (h : markdownFindings found = .ok page) :
    DataAll MarkdownSafe page := by
  obtain ⟨bullets, hbullets, h⟩ := bind_eq_ok.mp h
  cases h
  refine dataAll_mapM hbullets fun finding bullet hbullet => ?_
  obtain ⟨rule, -, hbullet⟩ := bind_eq_ok.mp hbullet
  cases hbullet
  simp [markdownSafe_markdownEscapeStr, markdownEscape]

theorem dataAll_markdownIdle (idle : List (List Char)) :
    DataAll MarkdownSafe (markdownIdle idle) := by
  unfold markdownIdle
  split
  · exact dataAll_nil
  · have hsafe : DataAll MarkdownSafe (idle.flatMap fun name =>
        [.template "- ", .data (markdownEscapeStr name), .template ": 0 values evaluated\n"]) :=
      dataAll_flatMap fun name => by simp [markdownSafe_markdownEscapeStr]
    simp [hsafe]

theorem EngineTyped.dataAll_reviewMarkdown (htyped : EngineTyped report evidence) {label : String}
    (h : reviewMarkdown report evidence label names = .ok page) : DataAll MarkdownSafe page := by
  obtain ⟨violationCount, hviolations⟩ := htyped.violations
  obtain ⟨rowCount, hrows⟩ := htyped.rows
  obtain ⟨dataset, hdataset, hsafe⟩ := htyped.fingerprint
  obtain ⟨⟨title, instruction⟩, -, h⟩ := bind_eq_ok.mp h
  obtain ⟨isValid, -, h⟩ := bind_eq_ok.mp h
  obtain ⟨found, -, h⟩ := bind_eq_ok.mp h
  obtain ⟨violations, hfound, h⟩ := bind_eq_ok.mp h
  rw [hviolations] at hfound
  cases hfound
  obtain ⟨rows, hfound, h⟩ := bind_eq_ok.mp h
  rw [hrows] at hfound
  cases hfound
  obtain ⟨bullets, hbullets, h⟩ := bind_eq_ok.mp h
  rw [hdataset] at h
  cases h
  by_cases hfound : (!isValid && found.isEmpty) = true
  · simp [hfound, hsafe, markdownSafe_unsigned, markdownSafe_markdownEscapeStr,
      dataAll_markdownFindings hbullets, dataAll_markdownIdle]
  · simp [hfound, hsafe, markdownSafe_unsigned, markdownSafe_markdownEscapeStr,
      dataAll_markdownFindings hbullets, dataAll_markdownIdle]

end Typed

end Review

end ProofFrame
