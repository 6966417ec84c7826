import ProofFrame.Contract.Document

/-!
# Which keys a contract may have

An accepted V2 contract has only keys its types know, except in two places: the
object of a parameterised column type is not read strictly, and what a repeated
key shadows is dropped before anything looks at it.
-/

namespace ProofFrame

open Lib Lib.Run

/-! ## Values -/

theorem Json.ascending_of_toValue_eq {members : List (String × Json)}
    (h : (Json.object members).toValue = .object members) :
    SortedMap.Ascending members ∧ ∀ member ∈ members, member.2.toValue = member.2 := by
  rw [Json.toValue] at h
  have hmembers : Json.toMap members [] = members := Json.object.inj h
  constructor
  · rw [← hmembers]
    exact Serde.ascending_toMap .nil
  · have hfixed := @Serde.values_toMap (fun value => value.toValue = value) members []
      (Serde.members_toValue members) (by simp)
    rwa [hmembers] at hfixed

/-- A struct with one field whose reader may pass over members. -/
theorem Json.skipsNothing_struct_iff {members : List (String × Json)}
    {keySets : List (List String)} {fields : List (String × Grammar)} {positions : List Grammar}
    {name : String} {grammar : Grammar} (hfind : SortedMap.find name fields = some grammar)
    (hclosed : (fields.all fun field => field.1 == name || field.2.closed) = true) :
    (Json.object members).SkipsNothing (.struct false keySets fields positions) ↔
      ∀ json, (name, json) ∈ members → json.SkipsNothing grammar := by
  rw [Json.SkipsNothing, Json.membersSkipNothing_iff]
  constructor
  · rintro ⟨-, hmembers⟩ json hjson
    simpa [Grammar.member, hfind] using hmembers (name, json) hjson
  · intro h
    refine ⟨fun hskips => absurd hskips Bool.false_ne_true, ?_⟩
    rintro ⟨key, json⟩ hmember
    by_cases hkey : key = name
    · subst hkey
      simpa [Grammar.member, hfind] using h json hmember
    · refine json.skipsNothing_of_closed ?_
      rw [Grammar.member]
      cases hother : SortedMap.find key fields with
      | none => rfl
      | some other =>
          have hfield := List.all_eq_true.mp hclosed _ (SortedMap.mem_of_find_eq_some hother)
          simpa [hkey] using hfield

/-! ## Column types -/

/-- The keys of a type, where it is written as an object, are those of one of its forms. -/
def TypeKeysKnown : Json → Prop
  | .object members => ∃ known ∈ Reader.typeKeySets, ∀ member ∈ members, member.1 ∈ known
  | _ => True

/-- The type of a column in the value of a contract. -/
def columnType (value : Json) (column : String) : Option Json :=
  ((value.get "columns").bind (Json.get column)).bind (Json.get "type")

def TypesKnown (value : Json) : Prop :=
  ∀ column expected, columnType value column = some expected → TypeKeysKnown expected

theorem skipsNothing_typeGrammar_iff (json : Json) :
    json.SkipsNothing Reader.typeGrammar ↔ TypeKeysKnown json := by
  cases json with
  | object members =>
      rw [Json.SkipsNothing, Json.membersSkipNothing_iff]
      have hclosed : ∀ key, (Reader.typeGrammar.member key).closed = true := fun key => by
        rw [Reader.typeGrammar, Grammar.member]
        cases hfind : SortedMap.find key _ with
        | none => rfl
        | some grammar =>
            have hmem := SortedMap.mem_of_find_eq_some hfind
            simp only [List.mem_cons, List.not_mem_nil, or_false, Prod.mk.injEq] at hmem
            rcases hmem with ⟨-, rfl⟩ | ⟨-, rfl⟩ | ⟨-, rfl⟩ | ⟨-, rfl⟩ | ⟨-, rfl⟩ <;> rfl
      have hallows : Reader.typeGrammar.Allows (members.map Prod.fst) ↔
          TypeKeysKnown (.object members) :=
        exists_congr fun known => and_congr_right fun _ => List.forall_mem_map
      constructor
      · exact fun h => hallows.mp (h.1 rfl)
      · exact fun h => ⟨fun _ => hallows.mpr h,
          fun member _ => member.2.skipsNothing_of_closed (hclosed member.1)⟩
  | array items =>
      rw [Json.SkipsNothing, Json.itemsSkipNothing_iff]
      refine iff_of_true (fun index item _ => item.skipsNothing_of_closed ?_) trivial
      rcases index with _ | _ | _ | index <;> rfl
  | _ => simp only [Json.SkipsNothing, TypeKeysKnown]

/-! ## Documents -/

theorem object_eq_ok {json : Json} {path : String} {members : List (String × Json)}
    (h : ContractAstV2.object json path = .ok members) : json = .object members := by
  unfold ContractAstV2.object at h
  split at h
  · rw [Except.ok.inj h]
  · cases h

/-- The document, its columns and the rules of every column are objects. -/
theorem objects_of_validateKnownFields {value : Json}
    (h : ContractAstV2.validateKnownFields value = .ok ()) :
    ∃ root, value = .object root ∧ ∀ json, SortedMap.find "columns" root = some json →
      ∃ columns, json = .object columns ∧ ∀ column ∈ columns, ∃ rule, column.2 = .object rule := by
  obtain ⟨root, hroot, h⟩ := bind_eq_ok.mp h
  obtain ⟨_, -, h⟩ := bind_eq_ok.mp h
  obtain ⟨_, hcolumns, -⟩ := bind_eq_ok.mp h
  refine ⟨root, object_eq_ok hroot, fun json hjson => ?_⟩
  rw [hjson] at hcolumns
  obtain ⟨columns, hobject, hcolumns⟩ := bind_eq_ok.mp hcolumns
  refine ⟨columns, object_eq_ok hobject, fun column hcolumn => ?_⟩
  obtain ⟨rule, hrule, -⟩ := bind_eq_ok.mp (forM_eq_ok.mp hcolumns column hcolumn)
  exact ⟨rule, object_eq_ok hrule⟩

section Accepted

variable [SerdeContent]

theorem skipsNothing_ruleAstV2_iff {rule : List (String × Json)}
    (h : (Json.object rule).toValue = .object rule) :
    (Json.object rule).SkipsNothing Reader.ruleAstV2.grammar ↔
      ∀ expected, (Json.object rule).get "type" = some expected → TypeKeysKnown expected := by
  have hnodup := (Json.ascending_of_toValue_eq h).1.nodup
  have hstruct : (Json.object rule).SkipsNothing Reader.ruleAstV2.grammar ↔
      ∀ json, ("type", json) ∈ rule → json.SkipsNothing Reader.typeGrammar :=
    Json.skipsNothing_struct_iff rfl rfl
  rw [hstruct]
  refine forall_congr' fun expected => imp_congr ?_ (skipsNothing_typeGrammar_iff expected)
  exact SortedMap.mem_iff_find hnodup

theorem skipsNothing_columns_iff {columns : List (String × Json)}
    (h : (Json.object columns).toValue = .object columns)
    (hrules : ∀ column ∈ columns, ∃ rule, column.2 = .object rule) :
    (Json.object columns).SkipsNothing (.map Reader.ruleAstV2.grammar) ↔
      ∀ column expected, ((Json.object columns).get column).bind (Json.get "type") = some expected →
        TypeKeysKnown expected := by
  obtain ⟨hascending, hfixed⟩ := Json.ascending_of_toValue_eq h
  have hrule : ∀ member ∈ columns, (member.2.SkipsNothing Reader.ruleAstV2.grammar ↔
      ∀ expected, member.2.get "type" = some expected → TypeKeysKnown expected) :=
    fun member hmember => by
      obtain ⟨rule, heq⟩ := hrules member hmember
      have hvalue := hfixed member hmember
      rw [heq] at hvalue ⊢
      exact skipsNothing_ruleAstV2_iff hvalue
  rw [Json.SkipsNothing, Json.membersSkipNothing_iff]
  constructor
  · rintro ⟨-, hmembers⟩ column expected hexpected
    obtain ⟨rule, hcolumn, htype⟩ := Option.bind_eq_some_iff.mp hexpected
    have hmember : (column, rule) ∈ columns := SortedMap.mem_of_find_eq_some hcolumn
    exact (hrule _ hmember).mp (hmembers _ hmember) expected htype
  · intro htypes
    refine ⟨fun _ => trivial, fun ⟨column, rule⟩ hmember => (hrule _ hmember).mpr ?_⟩
    intro expected htype
    refine htypes column expected (Option.bind_eq_some_iff.mpr ⟨rule, ?_, htype⟩)
    exact (SortedMap.mem_iff_find hascending.nodup).mp hmember

/-- A document that is checked skips members in the types of its columns alone. -/
theorem skipsNothing_contractAstV2_iff {value : Json} (hvalue : value.toValue = value)
    (h : ContractAstV2.validateKnownFields value = .ok ()) :
    value.SkipsNothing Reader.contractAstV2.grammar ↔ TypesKnown value := by
  obtain ⟨root, rfl, hcolumns⟩ := objects_of_validateKnownFields h
  obtain ⟨hroot, hfixed⟩ := Json.ascending_of_toValue_eq hvalue
  have hcontract : (Json.object root).SkipsNothing Reader.contractAstV2.grammar ↔
      ∀ json, ("columns", json) ∈ root → json.SkipsNothing (.map Reader.ruleAstV2.grammar) :=
    Json.skipsNothing_struct_iff rfl rfl
  rw [hcontract]
  simp only [SortedMap.mem_iff_find hroot.nodup]
  cases hfind : SortedMap.find "columns" root with
  | none =>
      have hnone : ∀ column, columnType (.object root) column = none := fun column => by
        rw [columnType, Json.get, hfind]
        rfl
      simp [TypesKnown, hnone]
  | some json =>
      obtain ⟨columns, rfl, hrules⟩ := hcolumns json hfind
      have hmember := SortedMap.mem_of_find_eq_some hfind
      have hiff := skipsNothing_columns_iff (hfixed _ hmember) hrules
      simp only [Option.some.injEq, forall_eq']
      rw [hiff, TypesKnown]
      simp only [columnType, Json.get, hfind, Option.bind_some]

variable [SerdeJson] [DebugText]

theorem fromJson_eq_ok {source : String} {contract : ContractAstV2}
    (h : ContractDocument.fromJson source = .ok (.v2 contract)) :
    ∃ json, SerdeJson.parse source = .ok json ∧
      ContractAstV2.validateKnownFields json.toValue = .ok () ∧
      Reader.contractAstV2.read json.toValue = some contract := by
  obtain ⟨value, hvalue, h⟩ := bind_eq_ok.mp h
  obtain ⟨version, -, h⟩ := bind_eq_ok.mp h
  unfold ContractDocument.parseValue at hvalue
  split at hvalue
  case h_2 => cases hvalue
  rename_i json hparse
  cases hvalue
  refine ⟨json, hparse, ?_⟩
  split at h
  · obtain ⟨_, -, heq⟩ := map_eq_ok.mp h
    cases heq
  split at h
  case isFalse => cases h
  obtain ⟨_, hcontract, heq⟩ := map_eq_ok.mp h
  cases heq
  obtain ⟨_, hfields, h⟩ := bind_eq_ok.mp hcontract
  obtain ⟨_, -, h⟩ := bind_eq_ok.mp h
  obtain ⟨_, hread, h⟩ := bind_eq_ok.mp h
  obtain ⟨_, -, h⟩ := bind_eq_ok.mp h
  obtain ⟨_, -, h⟩ := bind_eq_ok.mp h
  cases h
  exact ⟨hfields, required_eq_ok.mp hread⟩

/-- Every key of an accepted contract is one its types know, exactly if the keys of the column
types are and the keys of what was shadowed are. -/
theorem fromJson_conforms_iff {source : String} {json : Json} {contract : ContractAstV2}
    (hparse : SerdeJson.parse source = .ok json)
    (h : ContractDocument.fromJson source = .ok (.v2 contract)) :
    json.Conforms Reader.contractAstV2.grammar ↔
      TypesKnown json.toValue ∧ json.ShadowedConform Reader.contractAstV2.grammar := by
  obtain ⟨other, hother, hfields, hread⟩ := fromJson_eq_ok h
  rw [hparse] at hother
  cases hother
  have hvalue : json.toValue.Conforms Reader.contractAstV2.grammar ↔ TypesKnown json.toValue :=
    calc json.toValue.Conforms Reader.contractAstV2.grammar
      _ ↔ json.toValue.SkipsNothing Reader.contractAstV2.grammar :=
          ⟨Json.Conforms.skipsNothing, Reader.contractAstV2.conforms hread⟩
      _ ↔ TypesKnown json.toValue :=
          skipsNothing_contractAstV2_iff (Serde.toValue_toValue json) hfields
  rw [Json.conforms_iff, hvalue]

omit [DebugText] in
/-- A V1 contract has no types; only what was shadowed can have other keys. -/
theorem fromValue_conforms_iff {json : Json} {contract : ContractAst}
    (h : ContractAst.fromValue json.toValue = .ok contract) :
    json.Conforms Reader.contractAst.grammar ↔
      json.ShadowedConform Reader.contractAst.grammar := by
  obtain ⟨_, -, h⟩ := bind_eq_ok.mp h
  obtain ⟨_, -, h⟩ := bind_eq_ok.mp h
  obtain ⟨_, hread, -⟩ := bind_eq_ok.mp h
  have hvalue : json.toValue.Conforms Reader.contractAst.grammar :=
    Reader.contractAst.conforms (required_eq_ok.mp hread) (json.toValue.skipsNothing_of_closed rfl)
  rw [Json.conforms_iff]
  exact and_iff_right hvalue

end Accepted

/-! ## A misspelt key -/

/-- A parser that reads one document. -/
@[reducible] def SerdeJson.reading (json : Json) : SerdeJson where
  parse source := if source = json.compact then .ok json else .error ""
  textError _ _ := ""
  valueError _ _ := ""

@[reducible] def SerdeContent.same : SerdeContent := ⟨id⟩

@[reducible] def DebugText.quotes : DebugText := ⟨quotedText⟩

/-- A contract whose only column is a timestamp with a misspelt `timezone`. -/
def timezonDocument : Json := .object [
  ("version", .string "proofframe.contract.v2"),
  ("columns", .object [("at", .object [("type", .object [
    ("name", .string "timestamp"), ("unit", .string "s"), ("timezon", .string "UTC")])])])]

/-- The zone is not there. -/
def timezonContract : ContractAstV2 where
  version := .v2
  status := .active
  suggestedFrom := none
  columns := [("at",
    ⟨false, false, false, some (.timestamp .s none), none, none, none, none, none, none, none⟩)]
  rowRules := []
  datasetRules := Reader.noDatasetRules
  maxFindings := Reader.defaultMaxFindings

theorem parse_timezonDocument :
    @SerdeJson.parse (.reading timezonDocument) timezonDocument.compact = .ok timezonDocument :=
  if_pos rfl

theorem fromJson_timezonDocument :
    @ContractDocument.fromJson (.reading timezonDocument) .same .quotes timezonDocument.compact =
      .ok (.v2 timezonContract) := by
  let _ : SerdeJson := .reading timezonDocument
  let _ : SerdeContent := .same
  let _ : DebugText := .quotes
  have hvalue : ContractDocument.parseValue timezonDocument.compact =
      .ok timezonDocument.toValue := by
    rw [ContractDocument.parseValue, parse_timezonDocument]
  unfold ContractDocument.fromJson
  rw [hvalue]
  rfl

/-- The condition, for the contract with the misspelt key. -/
theorem fromJson_conforms_iff_timezon :
    timezonDocument.Conforms (@Reader.contractAstV2 .same).grammar ↔
      TypesKnown timezonDocument.toValue ∧
        timezonDocument.ShadowedConform (@Reader.contractAstV2 .same).grammar :=
  @fromJson_conforms_iff .same (.reading timezonDocument) .quotes _ _ _ parse_timezonDocument
    fromJson_timezonDocument

/-- The contract is accepted, and it has a key that no type knows. -/
theorem timezonDocument_accepted :
    @SerdeJson.parse (.reading timezonDocument) timezonDocument.compact = .ok timezonDocument ∧
      @ContractDocument.fromJson (.reading timezonDocument) .same .quotes
        timezonDocument.compact = .ok (.v2 timezonContract) ∧
      ¬timezonDocument.Conforms (@Reader.contractAstV2 .same).grammar := by
  refine ⟨parse_timezonDocument, fromJson_timezonDocument, fun hconforms => ?_⟩
  let _ : SerdeContent := .same
  have hvalue := ((Json.conforms_iff _ _).mp hconforms).1
  have htypes : TypesKnown timezonDocument.toValue :=
    (skipsNothing_contractAstV2_iff (Serde.toValue_toValue _) rfl).mp hvalue.skipsNothing
  obtain ⟨known, hknown, hkeys⟩ := htypes "at" (.object [("name", .string "timestamp"),
    ("timezon", .string "UTC"), ("unit", .string "s")]) rfl
  have hmisspelt : "timezon" ∈ known := hkeys ("timezon", .string "UTC") (by simp)
  exact (show ∀ known ∈ Reader.typeKeySets, "timezon" ∉ known by decide) known hknown hmisspelt

end ProofFrame
