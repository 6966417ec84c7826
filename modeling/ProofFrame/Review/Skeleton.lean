import ProofFrame.Evidence.Report
import ProofFrame.Review.Escaping

/-!
# What a review depends on

The pieces of the HTML page that are not data, in their order, are the same for two
reports of one shape, whatever their strings are.

## Strategy

Each section is built by functions that take the data as arguments, and their pages have
the same skeleton at all arguments by `rfl`.  Where a section has one of these pages for
each item of a list, its skeleton is that of `skeleton_flatten`: only the length of the
list is left.
-/

namespace ProofFrame

open Lib Lib.Run

namespace Review

/-- The tool's own text of a piece, if it is one. -/
def Piece.own? : Piece → Option String
  | .template text => some text
  | .data _ => none

/-- The page without its data. -/
def skeleton (page : Page) : List (Option String) := page.map Piece.own?

section Skeletons

variable {page rest : Page}

@[simp] theorem skeleton_nil : skeleton [] = [] := rfl

@[simp] theorem skeleton_template {text : String} :
    skeleton (.template text :: page) = some text :: skeleton page := rfl

@[simp] theorem skeleton_data {text : List Char} :
    skeleton (.data text :: page) = none :: skeleton page := rfl

@[simp] theorem skeleton_append : skeleton (page ++ rest) = skeleton page ++ skeleton rest :=
  List.map_append

/-- Pages with one skeleton, one after the other. -/
theorem skeleton_flatten {pages : List Page} {s : List (Option String)}
    (h : ∀ page ∈ pages, skeleton page = s) :
    skeleton pages.flatten = (List.replicate pages.length s).flatten := by
  induction pages with
  | nil => rfl
  | cons page pages ih =>
      obtain ⟨hpage, hpages⟩ := List.forall_mem_cons.mp h
      rw [List.flatten_cons, skeleton_append, hpage, ih hpages, List.length_cons,
        List.replicate_succ, List.flatten_cons]

theorem skeleton_flatMap {ι : Type} {items : List ι} {f : ι → Page} {s : List (Option String)}
    (h : ∀ item, skeleton (f item) = s) :
    skeleton (items.flatMap f) = (List.replicate items.length s).flatten := by
  rw [List.flatMap, skeleton_flatten fun page hpage => ?_, List.length_map]
  obtain ⟨item, -, rfl⟩ := List.mem_map.mp hpage
  exact h item

/-- The pages of the items of a list, where each can be made. -/
theorem skeleton_mapM {ι : Type} {items : List ι} {f : ι → Except Fault Page} {pages : List Page}
    {s : List (Option String)} (hpages : items.mapM f = .ok pages)
    (h : ∀ item page, f item = .ok page → skeleton page = s) :
    skeleton pages.flatten = (List.replicate items.length s).flatten := by
  have hmade : List.Forall₂ (fun item page => f item = .ok page) items pages :=
    mapM_eq_ok.mp hpages
  rw [skeleton_flatten fun page hpage => ?_, hmade.length_eq]
  obtain ⟨item, -, hitem⟩ := exists_of_forall₂ hmade.flip hpage
  exact h item page hitem

end Skeletons

/-! ## The shape of a report -/

/-- What a page may depend on besides the data it shows. -/
structure Shape where
  /-- The flags. -/
  valid : Option Bool
  truncated : Bool
  /-- How many findings, columns that had nothing to check, and counters there are. -/
  findings : ℕ
  idle : ℕ
  counters : ℕ
  /-- Which groups of rules the contract has. -/
  groups : List Bool

/-- `Value::as_bool`. -/
def asBool : Json → Option Bool
  | .bool value => some value
  | _ => none

def shape (report contract : Json) : Shape where
  valid := (report.get "valid").bind asBool
  truncated := (report.get "truncated").bind asBool = some true
  findings := (arrayOr (report.get "findings")).length
  idle := (unexercised report []).length
  counters := (["resources", "metrics"].flatMap (groupEntries report)).length
  groups := ruleGroups.map fun name => isDisclosable (contract.get name)

section Shapes

variable {report evidence contract : Json} {names : List String}

theorem findings_eq_ok {items : List Json} :
    findings report = .ok items ↔ report.get "findings" = some (.array items) := by
  unfold findings
  split
  · rename_i found hfound
    simp [hfound]
  · rename_i hother
    refine ⟨nofun, fun h => absurd h (hother items)⟩

theorem valid_eq_ok {value : Bool} :
    valid report = .ok value ↔ report.get "valid" = some (.bool value) := by
  unfold valid
  split
  · rename_i found hfound
    simp [hfound]
  · rename_i hother
    refine ⟨nofun, fun h => absurd h (hother value)⟩

theorem shape_findings {items : List Json} (h : findings report = .ok items) :
    (shape report contract).findings = items.length := by
  rw [shape, findings_eq_ok.mp h]
  rfl

theorem shape_valid {value : Bool} (h : valid report = .ok value) :
    (shape report contract).valid = some value := by
  rw [shape, valid_eq_ok.mp h]
  rfl

theorem shape_truncated (report contract : Json) :
    (shape report contract).truncated = true ↔ report.get "truncated" = some (.bool true) := by
  show decide ((report.get "truncated").bind asBool = some true) = true ↔ _
  rw [decide_eq_true_iff, Option.bind_eq_some_iff]
  refine ⟨fun ⟨found, hfound, hvalue⟩ => ?_, fun h => ⟨_, h, rfl⟩⟩
  cases found with
  | bool value =>
      cases hvalue
      exact hfound
  | _ => cases hvalue

/-- The names of the columns do not change how many are idle. -/
theorem shape_idle (report contract : Json) (names : List String) :
    (shape report contract).idle = (unexercised report names).length := by
  rw [shape, unexercised, unexercised, List.length_map, List.length_map]

end Shapes

/-! ## Reports of one shape -/

section OneShape

variable {report evidence contract : Json} {names : List String} {page : Page}
  {report' evidence' contract' : Json} {names' : List String} {page' : Page}

/-- The first finding fills the same places of the sentences, and no finding fills none. -/
theorem skeleton_action {title title' instruction instruction' : List Segment}
    (hshape : shape report contract = shape report' contract')
    (h : action report = .ok (title, instruction))
    (h' : action report' = .ok (title', instruction')) :
    skeleton (renderHtml title) = skeleton (renderHtml title') ∧
      skeleton (renderHtml instruction) = skeleton (renderHtml instruction') := by
  obtain ⟨found, hfound, h⟩ := bind_eq_ok.mp h
  obtain ⟨found', hfound', h'⟩ := bind_eq_ok.mp h'
  obtain ⟨isValid, hvalid, h⟩ := bind_eq_ok.mp h
  obtain ⟨isValid', hvalid', h'⟩ := bind_eq_ok.mp h'
  have hlength : found.length = found'.length := by
    rw [← shape_findings hfound, hshape, shape_findings hfound']
  obtain rfl : isValid = isValid' := by
    have hsome : some isValid = some isValid' := by
      rw [← shape_valid hvalid, hshape, shape_valid hvalid']
    exact Option.some.inj hsome
  cases isValid with
  | true =>
      cases h
      cases h'
      exact ⟨rfl, rfl⟩
  | false =>
      cases found with
      | nil =>
          obtain rfl := List.length_eq_zero_iff.mp hlength.symm
          cases h
          cases h'
          exact ⟨rfl, rfl⟩
      | cons first found =>
          cases found' with
          | nil => cases hlength
          | cons first' found' =>
              obtain ⟨rule, -, h⟩ := bind_eq_ok.mp h
              obtain ⟨rule', -, h'⟩ := bind_eq_ok.mp h'
              cases h
              cases h'
              exact ⟨rfl, rfl⟩

theorem skeleton_actionSection {label label' : List Char}
    (hshape : shape report contract = shape report' contract')
    (h : actionSection report label = .ok page) (h' : actionSection report' label' = .ok page') :
    skeleton page = skeleton page' := by
  obtain ⟨⟨title, instruction⟩, haction, h⟩ := bind_eq_ok.mp h
  obtain ⟨⟨title', instruction'⟩, haction', h'⟩ := bind_eq_ok.mp h'
  obtain ⟨htitle, hinstruction⟩ := skeleton_action hshape haction haction'
  obtain ⟨isValid, hvalid, h⟩ := bind_eq_ok.mp h
  obtain ⟨isValid', hvalid', h'⟩ := bind_eq_ok.mp h'
  obtain ⟨found, hfound, h⟩ := bind_eq_ok.mp h
  obtain ⟨found', hfound', h'⟩ := bind_eq_ok.mp h'
  have hlength : found.length = found'.length := by
    rw [← shape_findings hfound, hshape, shape_findings hfound']
  have hempty : found.isEmpty = found'.isEmpty := by
    rw [Bool.eq_iff_iff, List.isEmpty_iff_length_eq_zero, List.isEmpty_iff_length_eq_zero, hlength]
  obtain rfl : isValid = isValid' := by
    have hsome : some isValid = some isValid' := by
      rw [← shape_valid hvalid, hshape, shape_valid hvalid']
    exact Option.some.inj hsome
  cases h
  cases h'
  simp only [skeleton_append, skeleton_template, skeleton_data, htitle, hinstruction, hempty]

theorem skeleton_metricsSection (h : metricsSection report = .ok page)
    (h' : metricsSection report' = .ok page') : skeleton page = skeleton page' := by
  obtain ⟨rows, -, h⟩ := bind_eq_ok.mp h
  obtain ⟨rows', -, h'⟩ := bind_eq_ok.mp h'
  obtain ⟨violations, -, h⟩ := bind_eq_ok.mp h
  obtain ⟨violations', -, h'⟩ := bind_eq_ok.mp h'
  obtain ⟨found, -, h⟩ := bind_eq_ok.mp h
  obtain ⟨found', -, h'⟩ := bind_eq_ok.mp h'
  cases h
  cases h'
  rfl

/-- The articles of the findings, one for each. -/
theorem skeleton_findingsSection (hshape : shape report contract = shape report' contract')
    (h : findingsSection report = .ok page) (h' : findingsSection report' = .ok page') :
    skeleton page = skeleton page' := by
  have harticle : ∀ (finding : Json) (article : Page),
      (do
        let column := escapeStr (getOr finding "column" "Dataset")
        let row := escapeStr (getOr finding "row" "—")
        let rule ← required (finding.get "rule") (missing "findings[].rule")
        let message := escapeStr (getOr finding "message" "")
        .ok (findingArticle column row (escape rule) message)) = .ok article →
      skeleton article = skeleton (findingArticle [] [] [] []) := by
    intro finding article h
    obtain ⟨rule, -, h⟩ := bind_eq_ok.mp h
    cases h
    rfl
  obtain ⟨found, hfound, h⟩ := bind_eq_ok.mp h
  obtain ⟨found', hfound', h'⟩ := bind_eq_ok.mp h'
  obtain ⟨articles, harticles, h⟩ := bind_eq_ok.mp h
  obtain ⟨articles', harticles', h'⟩ := bind_eq_ok.mp h'
  have hlength : found.length = found'.length := by
    rw [← shape_findings hfound, hshape, shape_findings hfound']
  have hflatten : skeleton articles.flatten = skeleton articles'.flatten := by
    rw [skeleton_mapM harticles harticle, skeleton_mapM harticles' harticle, hlength]
  have htruncated : report.get "truncated" = some (.bool true) ↔
      report'.get "truncated" = some (.bool true) := by
    rw [← shape_truncated report contract, hshape, shape_truncated]
  cases h
  cases h'
  simp only [skeleton_append, skeleton_template, skeleton_nil, hflatten, hlength]
  split
  · rename_i hsampled
    rw [htruncated.mp hsampled]
  · rename_i hcomplete
    split
    · rename_i hsampled
      exact absurd (htruncated.mpr hsampled) hcomplete
    · rfl

theorem skeleton_idleSection (names names' : List String)
    (hshape : shape report contract = shape report' contract') :
    skeleton (idleSection report names) = skeleton (idleSection report' names') := by
  have hlength : (unexercised report names).length = (unexercised report' names').length := by
    rw [← shape_idle report contract, hshape, shape_idle]
  have hnone : unexercised report names = [] ↔ unexercised report' names' = [] := by
    rw [← List.length_eq_zero_iff, hlength, List.length_eq_zero_iff]
  have harticle (name : List Char) :
      skeleton (idleArticle (escapeText name)) = skeleton (idleArticle []) := rfl
  unfold idleSection
  dsimp only
  by_cases hidle : unexercised report names = []
  · rw [if_pos hidle, if_pos (hnone.mp hidle)]
  · rw [if_neg hidle, if_neg (mt hnone.mpr hidle), skeleton_append, skeleton_append,
      skeleton_append, skeleton_append, skeleton_flatMap harticle, skeleton_flatMap harticle,
      hlength]

theorem skeleton_contractSection (hshape : shape report contract = shape report' contract') :
    skeleton (contractSection contract) = skeleton (contractSection contract') := by
  have hgroups : ∀ name ∈ ruleGroups,
      isDisclosable (contract.get name) = isDisclosable (contract'.get name) :=
    List.map_inj_left.mp (congrArg Shape.groups hshape)
  unfold contractSection
  rw [skeleton_append, skeleton_append, skeleton_append, skeleton_append]
  congr 2
  simp only [skeleton, List.map_flatMap]
  refine List.flatMap_congr fun name hname => ?_
  rw [hgroups name hname]
  split
  · rfl
  · rfl

theorem skeleton_identitySection (hshape : shape report contract = shape report' contract')
    (h : identitySection report evidence = .ok page)
    (h' : identitySection report' evidence' = .ok page') : skeleton page = skeleton page' := by
  obtain ⟨dataset, -, h⟩ := bind_eq_ok.mp h
  obtain ⟨dataset', -, h'⟩ := bind_eq_ok.mp h'
  obtain ⟨version, -, h⟩ := bind_eq_ok.mp h
  obtain ⟨version', -, h'⟩ := bind_eq_ok.mp h'
  have hcounters : (["resources", "metrics"].flatMap (groupEntries report)).length =
      (["resources", "metrics"].flatMap (groupEntries report')).length :=
    congrArg Shape.counters hshape
  have hpair (pair : List Char × List Char) :
      skeleton (identityPair pair) = skeleton (identityPair ([], [])) := rfl
  cases h
  cases h'
  simp only [skeleton_append, skeleton_flatMap hpair, List.length_append, List.length_map, hcounters]
  rfl

theorem skeleton_reviewHtml {label label' : String}
    (hshape : shape report contract = shape report' contract')
    (h : reviewHtml report evidence contract label names = .ok page)
    (h' : reviewHtml report' evidence' contract' label' names' = .ok page') :
    skeleton page = skeleton page' := by
  obtain ⟨top, htop, h⟩ := bind_eq_ok.mp h
  obtain ⟨top', htop', h'⟩ := bind_eq_ok.mp h'
  obtain ⟨metrics, hmetrics, h⟩ := bind_eq_ok.mp h
  obtain ⟨metrics', hmetrics', h'⟩ := bind_eq_ok.mp h'
  obtain ⟨found, hfound, h⟩ := bind_eq_ok.mp h
  obtain ⟨found', hfound', h'⟩ := bind_eq_ok.mp h'
  obtain ⟨identity, hidentity, h⟩ := bind_eq_ok.mp h
  obtain ⟨identity', hidentity', h'⟩ := bind_eq_ok.mp h'
  cases h
  cases h'
  simp only [skeleton_append, skeleton_actionSection hshape htop htop',
    skeleton_metricsSection hmetrics hmetrics', skeleton_findingsSection hshape hfound hfound',
    skeleton_idleSection names names' hshape,
    skeleton_contractSection hshape, skeleton_identitySection hshape hidentity hidentity']

end OneShape

/-! ## Reports of the engine have pages -/

section Typed

variable {report evidence contract : Json} {names : List String}

/-- The flag, the findings and the rules they name can be read. -/
theorem exists_read (htyped : EngineTyped report evidence) : ∃ isValid found,
    valid report = .ok isValid ∧ findings report = .ok found ∧
      ∀ finding ∈ found, ∃ rule,
        required (finding.get "rule") (missing "findings[].rule") = .ok rule := by
  obtain ⟨isValid, hvalid⟩ := htyped.valid
  obtain ⟨found, hfound, hrules⟩ := htyped.findings
  refine ⟨isValid, found, valid_eq_ok.mpr hvalid, findings_eq_ok.mpr hfound, ?_⟩
  intro finding hmem
  obtain ⟨rule, hrule⟩ := hrules finding hmem
  exact ⟨.string rule, required_eq_ok.mpr hrule⟩

theorem exists_counts (htyped : EngineTyped report evidence) : ∃ violations rows,
    required (report.get "violation_count") (missing "violation_count") = .ok violations ∧
      required (report.get "rows") (missing "rows") = .ok rows := by
  obtain ⟨violations, hviolations⟩ := htyped.violations
  obtain ⟨rows, hrows⟩ := htyped.rows
  exact ⟨_, _, required_eq_ok.mpr hviolations, required_eq_ok.mpr hrows⟩

theorem exists_action (htyped : EngineTyped report evidence) :
    ∃ sentences, action report = .ok sentences := by
  obtain ⟨isValid, found, hvalid, hfound, hrules⟩ := exists_read htyped
  unfold action
  rw [hfound, hvalid, ok_bind, ok_bind]
  cases isValid with
  | true => exact ⟨_, rfl⟩
  | false =>
      cases found with
      | nil => exact ⟨_, rfl⟩
      | cons first found =>
          obtain ⟨rule, hrule⟩ := hrules first (List.mem_cons_self ..)
          exact ⟨_, bind_eq_ok.mpr ⟨rule, hrule, rfl⟩⟩

theorem exists_reviewHtml (htyped : EngineTyped report evidence) (label : String) :
    ∃ page, reviewHtml report evidence contract label names = .ok page := by
  obtain ⟨isValid, found, hvalid, hfound, hrules⟩ := exists_read htyped
  obtain ⟨violations, rows, hviolations, hrows⟩ := exists_counts htyped
  obtain ⟨sentences, haction⟩ := exists_action htyped
  obtain ⟨dataset, hdataset, -⟩ := htyped.fingerprint
  obtain ⟨engine, version, hengine, hversion⟩ := htyped.version
  have htop : ∃ page, actionSection report label.toList = .ok page :=
    ⟨_, bind_eq_ok.mpr ⟨sentences, haction, bind_eq_ok.mpr ⟨isValid, hvalid,
      bind_eq_ok.mpr ⟨found, hfound, rfl⟩⟩⟩⟩
  have hmetrics : ∃ page, metricsSection report = .ok page :=
    ⟨_, bind_eq_ok.mpr ⟨rows, hrows, bind_eq_ok.mpr ⟨violations, hviolations,
      bind_eq_ok.mpr ⟨found, hfound, rfl⟩⟩⟩⟩
  have harticles : ∃ page, findingsSection report = .ok page := by
    have hall : ∃ articles, found.mapM (fun finding => do
        let column := escapeStr (getOr finding "column" "Dataset")
        let row := escapeStr (getOr finding "row" "—")
        let rule ← required (finding.get "rule") (missing "findings[].rule")
        let message := escapeStr (getOr finding "message" "")
        .ok (findingArticle column row (escape rule) message)) =
        (.ok articles : Except Fault (List Page)) := by
      refine exists_mapM fun finding hmem => ?_
      obtain ⟨rule, hrule⟩ := hrules finding hmem
      exact ⟨_, bind_eq_ok.mpr ⟨rule, hrule, rfl⟩⟩
    obtain ⟨articles, harticles⟩ := hall
    exact ⟨_, bind_eq_ok.mpr ⟨found, hfound, bind_eq_ok.mpr ⟨articles, harticles, rfl⟩⟩⟩
  have hidentity : ∃ page, identitySection report evidence = .ok page := by
    have hfield : engineVersion evidence = .ok (.string version) := by
      refine required_eq_ok.mpr ?_
      rw [hengine, Option.bind_some, hversion]
    exact ⟨_, bind_eq_ok.mpr ⟨dataset, hdataset, bind_eq_ok.mpr ⟨_, hfield, rfl⟩⟩⟩
  obtain ⟨top, htop⟩ := htop
  obtain ⟨metrics, hmetrics⟩ := hmetrics
  obtain ⟨articles, harticles⟩ := harticles
  obtain ⟨identity, hidentity⟩ := hidentity
  exact ⟨_, bind_eq_ok.mpr ⟨top, htop, bind_eq_ok.mpr ⟨metrics, hmetrics,
    bind_eq_ok.mpr ⟨articles, harticles, bind_eq_ok.mpr ⟨identity, hidentity, rfl⟩⟩⟩⟩⟩

theorem exists_reviewMarkdown (htyped : EngineTyped report evidence) (label : String) :
    ∃ page, reviewMarkdown report evidence label names = .ok page := by
  obtain ⟨isValid, found, hvalid, hfound, hrules⟩ := exists_read htyped
  obtain ⟨violations, rows, hviolations, hrows⟩ := exists_counts htyped
  obtain ⟨sentences, haction⟩ := exists_action htyped
  obtain ⟨dataset, hdataset, -⟩ := htyped.fingerprint
  have hbullets : ∃ page, markdownFindings found = .ok page := by
    have hall : ∃ bullets, found.mapM (fun finding => do
        let column := markdownEscapeStr (getOr finding "column" "Dataset")
        let row := markdownEscapeStr (getOr finding "row" "None")
        let rule ← required (finding.get "rule") (missing "findings[].rule")
        let message := markdownEscapeStr (getOr finding "message" "")
        .ok [.template "- ", .data column, .template ", row ", .data row, .template ": ",
          .data (markdownEscape rule), .template " — ", .data message, .template "\n"]) =
        (.ok bullets : Except Fault (List Page)) := by
      refine exists_mapM fun finding hmem => ?_
      obtain ⟨rule, hrule⟩ := hrules finding hmem
      exact ⟨_, bind_eq_ok.mpr ⟨rule, hrule, rfl⟩⟩
    obtain ⟨bullets, hbullets⟩ := hall
    exact ⟨_, bind_eq_ok.mpr ⟨bullets, hbullets, rfl⟩⟩
  obtain ⟨bullets, hbullets⟩ := hbullets
  exact ⟨_, bind_eq_ok.mpr ⟨sentences, haction, bind_eq_ok.mpr ⟨isValid, hvalid,
    bind_eq_ok.mpr ⟨found, hfound, bind_eq_ok.mpr ⟨violations, hviolations,
    bind_eq_ok.mpr ⟨rows, hrows, bind_eq_ok.mpr ⟨bullets, hbullets,
    bind_eq_ok.mpr ⟨dataset, hdataset, rfl⟩⟩⟩⟩⟩⟩⟩⟩

end Typed

/-! ## The documents of a check -/

/-- A member that the document has once. -/
theorem get_toValue {members : List (String × Json)} {name : String} (json : Json)
    (hcount : members.countP (·.1 = name) = 1) (hfind : SortedMap.find name members = some json) :
    (Json.object members).toValue.get name = some json.toValue := by
  change SortedMap.find name (Json.toMap members []) = _
  rw [Serde.find_toMap hcount.le, hfind]
  rfl

/-- What a check serializes is read back with the types of the engine. -/
theorem engineTyped_check (report : FastValidationReport) (source : String)
    (evidence : EvidenceV2) :
    EngineTyped (report.withSource source) evidence.toJson.toValue where
  valid := ⟨report.valid, get_toValue (.bool report.valid) rfl rfl⟩
  findings := by
    refine ⟨_, get_toValue (.array (report.findings.map Finding.toJson)) rfl rfl, ?_⟩
    intro json hmem
    rw [Serde.toValues_eq_map, List.map_map] at hmem
    obtain ⟨finding, -, rfl⟩ := List.mem_map.mp hmem
    exact ⟨finding.rule, get_toValue (.string finding.rule) rfl rfl⟩
  violations := ⟨report.violationCount, get_toValue (.unsigned report.violationCount) rfl rfl⟩
  rows := ⟨report.rows, get_toValue (.unsigned report.rows) rfl rfl⟩
  dataset := by
    refine ⟨_, evidence.dataset.fingerprintDigest.val.map UInt8.toNat,
      get_toValue evidence.dataset.toJson rfl rfl, ⟨evidence.dataset.fingerprintVersion.name, ?_, ?_⟩, ?_, ?_⟩
    · cases evidence.dataset.fingerprintVersion <;> decide
    · exact get_toValue (.string _) rfl rfl
    · rw [List.map_map]
      refine (get_toValue (.array _) rfl rfl).trans ?_
      rw [Json.toValue, Serde.toValues_eq_map, List.map_map]
      rfl
    · intro byte hbyte
      obtain ⟨value, -, rfl⟩ := List.mem_map.mp hbyte
      exact value.toNat_lt
  version := ⟨_, evidence.engine.version, get_toValue evidence.engine.toJson rfl rfl,
    get_toValue (.string evidence.engine.version) rfl rfl⟩

/-! ## Data cannot steer a review -/

/-- A typed report has its pages.  In the HTML page no data opens a tag, closes an attribute or
holds a loose ampersand, and what is around the data, with its order, depends on the shape of the
report and the contract alone; in the summary no data leaves its line, opens a tag or holds a bare
metacharacter. -/
theorem data_cannot_steer_review {report evidence contract : Json} {label : String}
    {columnNames : List String} (htyped : EngineTyped report evidence) :
    ∃ page summary,
      reviewHtml report evidence contract label columnNames = .ok page ∧
      DataAll HtmlSafe page ∧
      (∀ report' evidence' contract' label' columnNames' page',
        shape report' contract' = shape report contract →
        reviewHtml report' evidence' contract' label' columnNames' = .ok page' →
        skeleton page' = skeleton page) ∧
      reviewMarkdown report evidence label columnNames = .ok summary ∧
      DataAll MarkdownSafe summary := by
  obtain ⟨page, hpage⟩ := exists_reviewHtml htyped label
  obtain ⟨summary, hsummary⟩ := exists_reviewMarkdown htyped label
  refine ⟨page, summary, hpage, dataAll_reviewHtml hpage, ?_, hsummary,
    htyped.dataAll_reviewMarkdown hsummary⟩
  intro report' evidence' contract' label' columnNames' page' hshape hpage'
  exact skeleton_reviewHtml hshape hpage' hpage

theorem data_cannot_steer_review_markup :
    let report : Json := .object [("valid", .bool false), ("violation_count", .unsigned 1),
      ("rows", .unsigned 3), ("findings", .array [.object [("rule", .string "</p><b>&amp;\n`")]])]
    let evidence : Json := .object [
      ("dataset", .object [("fingerprint_version", .string "v2"),
        ("fingerprint_digest", .array [.unsigned 255])]),
      ("engine", .object [("version", .string "\"'>")])]
    ∃ page summary,
      reviewHtml report evidence .null "<a>" [] = .ok page ∧
      DataAll HtmlSafe page ∧
      (∀ report' evidence' contract' label' columnNames' page',
        shape report' contract' = shape report .null →
        reviewHtml report' evidence' contract' label' columnNames' = .ok page' →
        skeleton page' = skeleton page) ∧
      reviewMarkdown report evidence "<a>" [] = .ok summary ∧
      DataAll MarkdownSafe summary := by
  intro report evidence
  refine data_cannot_steer_review ⟨⟨false, rfl⟩, ⟨_, rfl, ?_⟩, ⟨1, rfl⟩, ⟨3, rfl⟩,
    ⟨_, [255], rfl, ⟨"v2", by decide, rfl⟩, rfl, by decide⟩, ⟨_, _, rfl, rfl⟩⟩
  intro finding hmem
  obtain rfl := List.mem_singleton.mp hmem
  exact ⟨_, rfl⟩

end Review

end ProofFrame
