import ProofFrame.JsonText
import ProofFrame.Lib.Refinement
import ProofFrame.Review

/-!
# The pages of a review

The HTML page and the Markdown summary of one result.  A page is the sequence of
what its functions push: pieces of their own text, and data after whatever
bounding and escaping it goes through on the way.
-/

namespace ProofFrame

open Lib Lib.Run

namespace Review

/-- `CSS`. -/
def css : String :=
  "\n" ++
  ":root\x7bcolor-scheme:light;--paper:#fff;--ground:#f5f7fb;--ink:#15253d;\n" ++
  "--blue:#2458a6;--warning:#8a4518;--green:#126044;--line:#d6dfea\x7d\n" ++
  "*\x7bbox-sizing:border-box\x7dbody\x7bmargin:0;background:var(--ground);color:var(--ink);\n" ++
  "font-family:Geist,'Segoe UI',system-ui,sans-serif;font-size:16px;line-height:24px\x7d\n" ++
  "main\x7bmax-width:1120px;margin:0 auto;padding:40px 24px 64px\x7d\n" ++
  "header\x7bdisplay:flex;justify-content:space-between;gap:16px;align-items:center;margin-bottom:32px\x7d\n" ++
  ".brand\x7bfont-weight:700;letter-spacing:.04em\x7d.badge\x7bfont-size:14px;line-height:20px;\n" ++
  "padding:4px 12px;border-radius:9999px;background:#fff0e4;color:var(--warning)\x7d\n" ++
  ".pass\x7bbackground:#e6f3ed;color:var(--green)\x7dh1\x7bfont-size:36px;line-height:40px;\n" ++
  "margin:8px 0 16px;font-weight:600;overflow-wrap:anywhere;text-wrap:balance\x7d\n" ++
  "h2\x7bfont-size:20px;line-height:28px;margin:0 0 16px;font-weight:600\x7d\n" ++
  "h3\x7bfont-size:16px;line-height:24px;margin:0\x7dp\x7bmargin:8px 0 16px;text-wrap:pretty\x7d\n" ++
  ".action\x7bpadding:32px;border:1px solid var(--line);border-radius:16px;background:var(--paper)\x7d\n" ++
  ".eyebrow\x7bcolor:var(--blue);font-size:14px;line-height:20px;font-weight:600\x7d\n" ++
  ".muted\x7bcolor:#53647b\x7d.metrics\x7bdisplay:grid;grid-template-columns:repeat(3,1fr);\n" ++
  "gap:24px;margin:24px 0 32px\x7d.metric\x7bpadding:16px 0\x7d.value\x7bdisplay:block;\n" ++
  "font-size:24px;line-height:32px;font-weight:600\x7d.label\x7bfont-size:14px;line-height:20px\x7d\n" ++
  "section\x7bmargin-top:32px\x7da\x7bcolor:var(--blue);text-underline-offset:4px\x7da:hover\x7bcolor:var(--ink)\x7d\n" ++
  "a:focus-visible,summary:focus-visible\x7boutline:3px solid var(--blue);outline-offset:4px\x7d\n" ++
  "nav\x7bdisplay:flex;gap:24px;flex-wrap:wrap\x7dcode,pre\x7bfont-family:'Geist Mono',Consolas,monospace;\n" ++
  "font-size:14px;line-height:20px;overflow-wrap:anywhere\x7dpre\x7bwhite-space:pre-wrap;\n" ++
  "background:#eaf0f8;border-radius:8px;padding:16px;margin:16px 0;max-height:320px;overflow:auto\x7d\n" ++
  ".finding\x7bpadding:24px;border:1px solid var(--line);border-radius:8px;background:white;margin:16px 0;\n" ++
  "overflow-wrap:anywhere\x7d.location\x7bdisplay:flex;gap:16px;flex-wrap:wrap\x7d.location code\x7bfont-weight:600\x7d\n" ++
  "dl\x7bdisplay:grid;grid-template-columns:200px minmax(0,1fr);gap:12px 24px;margin:0\x7d\n" ++
  "dt\x7bcolor:#53647b\x7ddd\x7bmargin:0;overflow-wrap:anywhere\x7ddetails\x7bbackground:white;border:1px solid var(--line);\n" ++
  "border-radius:8px;padding:16px;margin:16px 0\x7dsummary\x7bcursor:pointer;font-weight:600\x7d\n" ++
  "footer\x7bmargin-top:40px;color:#53647b;font-size:14px;line-height:20px\x7d\n" ++
  ".skip\x7bposition:absolute;left:-9999px\x7d.skip:focus\x7bposition:static\x7d\n" ++
  "@media(max-width:600px)\x7bmain\x7bpadding:24px 16px 40px\x7d.action\x7bpadding:24px 16px\x7d\n" ++
  "h1\x7bfont-size:24px;line-height:32px\x7d.metrics\x7bgap:12px\x7d.value\x7bfont-size:20px;line-height:28px\x7d\n" ++
  "dl\x7bgrid-template-columns:1fr;gap:4px\x7ddd\x7bmargin-bottom:12px\x7d.finding\x7bpadding:16px\x7d\x7d\n" ++
  "@media print\x7bbody\x7bbackground:white\x7dmain\x7bpadding:0\x7dnav,.skip\x7bdisplay:none\x7dpre\x7bmax-height:none\x7d\x7d\n"

/-- `MAX_DISPLAY_CHARS`. -/
def maxDisplayChars : ℕ := 1000

def missing (what : String) : Fault :=
  .error (.review ("Review input is missing `" ++ what ++ "`"))

/-! ## Texts -/

/-- Render a value the way Python's `str()` would. -/
def scalar : Json → List Char
  | .string text => text.toList
  | .number number => number.toList
  | .bool true => "True".toList
  | .bool false => "False".toList
  | .null => "None".toList
  | other => other.compactChars

/-- Bound presentation length. -/
def bound (value : List Char) : List Char :=
  if value.length ≤ maxDisplayChars then value
  else value.take maxDisplayChars ++ "… (see JSON)".toList

def text (value : Json) : List Char := bound (scalar value)

/-- A character of `escape_str`. -/
def escapeCharacter (c : Char) : List Char :=
  if c = '&' then "&amp;".toList
  else if c = '<' then "&lt;".toList
  else if c = '>' then "&gt;".toList
  else if c = '"' then "&quot;".toList
  else if c = '\'' then "&#x27;".toList
  else [c]

/-- HTML-escape with quoting. -/
def escapeStr (value : List Char) : List Char := value.flatMap escapeCharacter

def escape (value : Json) : List Char := escapeStr (text value)

def escapeText (value : List Char) : List Char := escapeStr (bound value)

/-- `char::is_whitespace`. -/
def isWhitespace (c : Char) : Bool :=
  (9 ≤ c.toNat && c.toNat ≤ 13) || c.toNat = 0x20 || c.toNat = 0x85 || c.toNat = 0xA0 ||
    c.toNat = 0x1680 || (0x2000 ≤ c.toNat && c.toNat ≤ 0x200A) || c.toNat = 0x2028 ||
    c.toNat = 0x2029 || c.toNat = 0x202F || c.toNat = 0x205F || c.toNat = 0x3000

/-- The words of a text, `word` being the one that is under way. -/
def splitWhitespace (word : List Char) : List Char → List (List Char)
  | [] => if word = [] then [] else [word]
  | c :: rest =>
      if isWhitespace c then
        if word = [] then splitWhitespace [] rest else word :: splitWhitespace [] rest
      else splitWhitespace (word ++ [c]) rest

/-- The characters that `markdown_escape_str` puts a backslash before. -/
def markdownMeta : List Char := "\\`*_\x7b\x7d[]()#+!|>~".toList

def escapeMeta (c : Char) : List Char := if c ∈ markdownMeta then ['\\', c] else [c]

/-- Neutralise markup in a value that came from the data or the contract. -/
def markdownEscapeStr (value : List Char) : List Char :=
  let collapsed := bound ([' '].intercalate (splitWhitespace [] value))
  (escapeStr collapsed).flatMap escapeMeta

def markdownEscape (value : Json) : List Char := markdownEscapeStr (scalar value)

/-! ## Pieces -/

/-- What a page is made of. -/
inductive Piece where
  | template (text : String)
  | data (text : List Char)

abbrev Page : Type := List Piece

def Piece.chars : Piece → List Char
  | .template text => text.toList
  | .data text => text

/-- The text of a page. -/
def chars (page : Page) : List Char := page.flatMap Piece.chars

/-- A part of a sentence: the tool's own words, or the data's. -/
inductive Segment where
  | own (value : String)
  | data (value : List Char)

def data (value : Json) : Segment := .data (text value)

def dataText (value : List Char) : Segment := .data (bound value)

def renderHtml (segments : List Segment) : Page :=
  segments.map fun
    | .own value => .template value
    | .data value => .data (escapeStr value)

def renderMarkdown (segments : List Segment) : Page :=
  segments.map fun
    | .own value => .template value
    | .data value => .data (markdownEscapeStr value)

/-! ## The fields of a report -/

/-- `mapping.get(key, default)`. -/
def getOr (value : Json) (key default : String) : List Char :=
  match value.get key with
  | some found => text found
  | none => default.toList

/-- `Value::as_array`, empty where there is none. -/
def arrayOr : Option Json → List Json
  | some (.array items) => items
  | _ => []

def findings (report : Json) : Except Fault (List Json) :=
  match report.get "findings" with
  | some (.array items) => .ok items
  | _ => .error (missing "findings")

def valid (report : Json) : Except Fault Bool :=
  match report.get "valid" with
  | some (.bool value) => .ok value
  | _ => .error (missing "valid")

/-- The one instruction the reader should act on, and the sentence explaining it. -/
def action (report : Json) : Except Fault (List Segment × List Segment) := do
  let found ← findings report
  let isValid ← valid report
  if isValid then
    .ok ([.own "Keep this result with your data"],
      [.own "The declared contract passed on this dataset."])
  else
    match found with
    | [] =>
        .ok ([.own "Inspect the violations"],
          [.own "Rerun with --max-samples 20 to include finding details."])
    | first :: _ => do
        let column := dataText (getOr first "column" "Dataset")
        let row := dataText (getOr first "row" "—")
        let rule ← required (first.get "rule") (missing "findings[].rule")
        .ok ([column, .own " · row ", row],
          [.own "Inspect the ", data rule,
            .own " rule in your contract. Rows are zero indexed."])

/-- `Value::as_u64`. -/
def asU64 (value : Json) : Option ℕ := Serde.unsigned (2 ^ 64) value

/-- Columns whose row rules were never offered a value. -/
def unexercised (report : Json) (names : List String) : List (List Char) :=
  let counts := arrayOr (report.get "evaluated_columns")
  let indices := arrayOr (report.get "evaluated_indices")
  ((indices.zip counts).filter fun pair => asU64 pair.2 = some 0).map fun pair =>
    let position := (asU64 pair.1).getD (2 ^ 64 - 1)
    match names[position]? with
    | some name => name.toList
    | none => (s!"column {position}").toList

/-- `{byte:02x}`. -/
def hexByte (byte : ℕ) : List Char := [Nat.digitChar (byte / 16), Nat.digitChar (byte % 16)]

def fingerprint (evidence : Json) : Except Fault (List Char) := do
  let dataset ← required (evidence.get "dataset") (missing "dataset")
  let version ← required (dataset.get "fingerprint_version")
    (missing "dataset.fingerprint_version")
  let digest ←
    match dataset.get "fingerprint_digest" with
    | some (.array items) => .ok items
    | _ => .error (missing "dataset.fingerprint_digest")
  let hex ← digest.mapM fun byte => do
    let byte ← required (Serde.unsigned (2 ^ 8) byte) (missing "dataset.fingerprint_digest")
    .ok (hexByte byte)
  .ok ("pf-fp-".toList ++ scalar version ++ ":".toList ++ hex.flatten)

def engineVersion (evidence : Json) : Except Fault Json :=
  required ((evidence.get "engine").bind (Json.get "version")) (missing "engine.version")

/-- `str::capitalize` of Python, on the ASCII names it is applied to. -/
def capitalize : List Char → List Char
  | [] => []
  | first :: rest => first.toUpper :: rest.map Char.toLower

/-- `str::replace('_', " ")`. -/
def spaced (name : List Char) : List Char := name.map fun c => if c = '_' then ' ' else c

def isDisclosable : Option Json → Bool
  | none | some .null => false
  | some (.object members) => !members.isEmpty
  | some (.array items) => !items.isEmpty
  | some _ => true

/-! ## The sections of the HTML page -/

/-- The article of a finding. -/
def findingArticle (column row rule message : List Char) : Page :=
  [.template "<article class=\"finding\"><div class=\"location\">",
    .template "<code>", .data column, .template "</code>",
    .template "<span>row ", .data row, .template "</span><span>", .data rule,
    .template "</span></div>",
    .template "<p>", .data message, .template "</p></article>"]

/-- The sampled findings, with the sampling stated rather than implied. -/
def findingsSection (report : Json) : Except Fault Page := do
  let found ← findings report
  let articles ← found.mapM fun finding => do
    let column := escapeStr (getOr finding "column" "Dataset")
    let row := escapeStr (getOr finding "row" "—")
    let rule ← required (finding.get "rule") (missing "findings[].rule")
    let message := escapeStr (getOr finding "message" "")
    .ok (findingArticle column row (escape rule) message)
  .ok ([.template "<section><h2>Where to investigate</h2><p class=\"muted\">",
      .template s!"{found.length} sampled finding(s). "] ++
    (match report.get "truncated" with
      | some (.bool true) => [.template "This is not a complete list. "]
      | _ => []) ++
    [.template ("A violation count is not a count of distinct failing rows. " ++
      "Unlisted rules are not marked as passed.</p>")] ++
    articles.flatten ++ [.template "</section>"])

def idleArticle (name : List Char) : Page :=
  [.template "<article class=\"finding\"><div class=\"location\">",
    .template "<code>", .data name,
    .template "</code><span>0 values evaluated</span></div></article>"]

/-- Columns whose rules had nothing to check. -/
def idleSection (report : Json) (names : List String) : Page :=
  let idle := unexercised report names
  if idle = [] then []
  else
    [.template "<section><h2>Rules that were never asked</h2>",
      .template (s!"<p>{idle.length} column(s) had no value for their rules to check. " ++
        "A rule that was never asked did not pass.</p>")] ++
    idle.flatMap (fun name => idleArticle (escapeText name)) ++ [.template "</section>"]

/-- The groups of rules of a contract. -/
def ruleGroups : List String := ["columns", "row_rules", "dataset_rules"]

def ruleDetails (heading rendered : List Char) : Page :=
  [.template "<details><summary>", .data heading, .template "</summary><pre>",
    .data rendered, .template "</pre></details>"]

/-- The declared rules, disclosed verbatim rather than summarized. -/
def contractSection (contract : Json) : Page :=
  [.template "<section><h2>What was checked</h2>",
    .template "<p>These are the declared rules, not individual pass verdicts.</p>"] ++
  ruleGroups.flatMap (fun name =>
    let value := contract.get name
    if isDisclosable value then
      ruleDetails (escapeText (capitalize (spaced name.toList)))
        (escapeStr (pythonJson 0 (value.getD .null)))
    else []) ++
  [.template "</section>"]

/-- Everything above the metrics. -/
def actionSection (report : Json) (label : List Char) : Except Fault Page := do
  let (title, instruction) ← action report
  let isValid ← valid report
  let found ← findings report
  .ok ([.template "<!doctype html><html lang=\"en\"><head><meta charset=\"utf-8\">",
      .template "<meta name=\"viewport\" content=\"width=device-width,initial-scale=1\">",
      .template ("<meta http-equiv=\"Content-Security-Policy\" content=\"default-src " ++
        "&#39;none&#39;; style-src &#39;unsafe-inline&#39;; base-uri &#39;none&#39;; " ++
        "form-action &#39;none&#39;\">"),
      .template "<title>ProofFrame review · ", .data (escapeText label),
      .template "</title><style>", .template css, .template "</style></head><body>",
      .template "<a class=\"skip\" href=\"#main\">Skip to review</a><main id=\"main\">",
      .template ("<header><div class=\"brand\">ProofFrame / Data review</div>" ++
        "<span class=\"badge "),
      .template (if isValid then "pass" else ""), .template "\">",
      .template (if isValid then "Contract passed" else "Contract violations"),
      .template "</span></header>",
      .template "<article class=\"action\"><div class=\"eyebrow\">Start here</div><h1>"] ++
    renderHtml title ++ [.template "</h1>", .template "<p>"] ++ renderHtml instruction ++
    [.template "</p>", .template "<p class=\"muted\">", .data (escapeText label),
      .template "</p>"] ++
    (if !isValid && found.isEmpty then
      [.template ("<pre>--max-samples 20</pre><p class=\"muted\">" ++
          "Finding details are off by default. "),
        .template "Enabling samples can include sensitive content in every artifact.</p>"]
      else []) ++
    [.template ("<nav aria-label=\"Review files\"><a href=\"report.json\">" ++
        "Validation JSON</a>"),
      .template ("<a href=\"evidence.json\">Evidence JSON</a><a href=\"summary.md\">" ++
        "CI summary</a></nav></article>")])

def metric (name : String) (value : List Char) : Page :=
  [.template "<div class=\"metric\"><span class=\"value\">", .data value,
    .template "</span><span class=\"label\">", .template name, .template "</span></div>"]

/-- The three headline numbers. -/
def metricsSection (report : Json) : Except Fault Page := do
  let rows ← required (report.get "rows") (missing "rows")
  let violations ← required (report.get "violation_count") (missing "violation_count")
  let found ← findings report
  .ok ([.template "<div class=\"metrics\">"] ++
    metric "Exact total" (escapeText (scalar violations ++ " violations".toList)) ++
    metric "Rows scanned" (escape rows) ++
    metric "Sampled findings" (escapeText found.length.repr.toList) ++
    [.template "</div>"])

def identityPair (pair : List Char × List Char) : Page :=
  [.template "<dt>", .data (escapeText pair.1), .template "</dt><dd><code>",
    .data (escapeText pair.2), .template "</code></dd>"]

/-- The members of a group of a report. -/
def groupEntries (report : Json) (group : String) : List (String × Json) :=
  match report.get group with
  | some (.object entries) => entries
  | _ => []

/-- What was scanned and under which limits. -/
def identitySection (report evidence : Json) : Except Fault Page := do
  let digest (key : String) : List Char :=
    match report.get key with
    | some value => scalar value
    | none => []
  let dataset ← fingerprint evidence
  let version ← engineVersion evidence
  let pairs := [("Dataset fingerprint".toList, dataset),
      ("Contract digest".toList, digest "contract_source_digest"),
      ("Schema digest".toList, digest "schema_digest"),
      ("Plan digest".toList, digest "compiled_plan_digest"),
      ("Engine version".toList, scalar version)] ++
    (["resources", "metrics"].flatMap (groupEntries report)).map fun entry =>
      (spaced entry.1.toList, scalar entry.2)
  .ok ([.template "<section><h2>Data identity and execution</h2><dl>"] ++
    pairs.flatMap identityPair ++
    [.template ("</dl><p class=\"muted\">Memory counters describe the engine, " ++
      "not total process memory.</p></section>")])

/-- The offline HTML review for one validation and fingerprint scan. -/
def reviewHtml (report evidence contract : Json) (label : String) (columnNames : List String) :
    Except Fault Page := do
  let top ← actionSection report label.toList
  let metrics ← metricsSection report
  let found ← findingsSection report
  let identity ← identitySection report evidence
  .ok (top ++ metrics ++ found ++ idleSection report columnNames ++ contractSection contract ++
    identity ++
    [.template ("<footer>Generated from one validation and fingerprint scan. " ++
        "No external assets or telemetry.<br>"),
      .template ("This HTML is not signed. Sign evidence.json separately to attest the " ++
        "engine result.<br>"),
      .template ("Review contract literals, column names and enabled samples before " ++
        "sharing.</footer></main></body></html>")])

/-! ## The Markdown summary -/

/-- One bullet per sampled finding, with every value from the data escaped. -/
def markdownFindings (found : List Json) : Except Fault Page := do
  let bullets ← found.mapM fun finding => do
    let column := markdownEscapeStr (getOr finding "column" "Dataset")
    let row := markdownEscapeStr (getOr finding "row" "None")
    let rule ← required (finding.get "rule") (missing "findings[].rule")
    let message := markdownEscapeStr (getOr finding "message" "")
    .ok [.template "- ", .data column, .template ", row ", .data row, .template ": ",
      .data (markdownEscape rule), .template " — ", .data message, .template "\n"]
  .ok bullets.flatten

/-- Columns whose rules had nothing to check, stated rather than left as silence. -/
def markdownIdle (idle : List (List Char)) : Page :=
  if idle = [] then []
  else
    [.template (s!"\n**{idle.length} column(s) had no value for their rules to check.** " ++
      "A rule that was never asked did not pass.\n\n")] ++
    idle.flatMap fun name =>
      [.template "- ", .data (markdownEscapeStr name), .template ": 0 values evaluated\n"]

/-- The Markdown summary written for a CI job summary or a pull request. -/
def reviewMarkdown (report evidence : Json) (label : String) (columnNames : List String) :
    Except Fault Page := do
  let (title, instruction) ← action report
  let isValid ← valid report
  let found ← findings report
  let violations ← required (report.get "violation_count") (missing "violation_count")
  let rows ← required (report.get "rows") (missing "rows")
  let bullets ← markdownFindings found
  let dataset ← fingerprint evidence
  .ok ([.template "# ProofFrame data review\n\n**Start here:** "] ++ renderMarkdown title ++
    [.template "\n\n"] ++ renderMarkdown instruction ++ [.template "\n\n",
      .template "Dataset: ", .data (markdownEscapeStr label.toList), .template "\n\n"] ++
    (if !isValid && found.isEmpty then
      [.template "Finding details are off. Rerun with `--max-samples 20`.\n\n"] else []) ++
    [.template "**", .template (if isValid then "Passed" else "Contract violations"),
      .template "** · ",
      .data (scalar violations), .template " violations · ", .data (scalar rows),
      .template " rows\n\n",
      .template (s!"{found.length} sampled finding(s); not a complete list when truncated. " ++
        "Violations are not a count of distinct failing rows.\n\n")] ++
    bullets ++ markdownIdle (unexercised report columnNames) ++
    [.template "\nDataset fingerprint: ", .data dataset, .template "\n\n",
      .template ("This review is local. Evidence is unsigned until signed separately.\n")])

end Review

end ProofFrame
