import ProofFrame.Contract.Ast
import ProofFrame.Lib.Ieee754.Parse
import ProofFrame.Serde.Reader

/-!
# Deserialisers of the contract language

The readers of the syntax trees, with the fields of every struct in the order in
which the source declares them.  Untagged and internally tagged enumerations read
their value from a buffer, which respells some numbers.
-/

namespace ProofFrame

open Lib Lib.Ieee754

/-- What the buffer of an untagged enumeration does to the spelling of a number. -/
class SerdeContent where
  buffered : String → String

mutual

/-- A value that has gone through a buffer. -/
def Json.buffered [SerdeContent] : Json → Json
  | .number text => .number (SerdeContent.buffered text)
  | .array items => .array (Json.bufferedItems items)
  | .object members => .object (Json.bufferedMembers members)
  | json => json

def Json.bufferedItems [SerdeContent] : List Json → List Json
  | [] => []
  | item :: items => item.buffered :: Json.bufferedItems items

def Json.bufferedMembers [SerdeContent] : List (String × Json) → List (String × Json)
  | [] => []
  | (key, value) :: members => (key, value.buffered) :: Json.bufferedMembers members

end

namespace Reader

/-! ## Column types -/

def primitiveTypes : List (String × PrimitiveTypeAst) :=
  [("boolean", .boolean), ("int8", .int8), ("int16", .int16), ("int32", .int32),
    ("int64", .int64), ("uint8", .uint8), ("uint16", .uint16), ("uint32", .uint32),
    ("uint64", .uint64), ("float32", .float32), ("float64", .float64), ("date32", .date32),
    ("date64", .date64), ("utf8", .utf8), ("large_utf8", .largeUtf8), ("utf8_view", .utf8View),
    ("binary", .binary), ("large_binary", .largeBinary), ("binary_view", .binaryView)]

def timeUnits : List (String × TimeUnitAst) := [("s", .s), ("ms", .ms), ("us", .us), ("ns", .ns)]

/-- An integer from a buffer, which holds a `u64`, or else an `i64`. -/
def integer (low high : ℤ) : Reader ℤ :=
  scalar (fun json => match json with
    | .number text =>
        ((((Serde.parseUnsigned text).filter (· < 2 ^ 64)).map Int.ofNat).or
          (Serde.parseI64 text)).filter fun value => low ≤ value ∧ value < high
    | _ => none) (fun _ => rfl) fun _ => rfl

/-- A unit from a buffer, where an empty object stands for `null`. -/
def timeUnit : Reader TimeUnitAst where
  read json := match json with
    | .object [(name, .object [])] => SortedMap.find name timeUnits
    | json => (variant timeUnits).read json
  grammar := (variant timeUnits).grammar
  conforms {json _} h hskips := by
    split at h
    · rename_i name
      have hname : ∀ key ∈ [name], key ∈ timeUnits.map Prod.fst := fun key hkey => by
        rw [List.mem_singleton.mp hkey]
        exact SortedMap.mem_keys_iff.mpr (Option.isSome_iff_exists.mpr ⟨_, h⟩)
      simp only [Json.Conforms, Json.MembersConform, and_true]
      exact ⟨hname, rfl⟩
    · exact (variant timeUnits).conforms h hskips

def decimal128 : FieldReader TypeAst :=
  (fun precision scale => .decimal128 precision.toNat scale) <$>
    .required "precision" (integer 0 256) <*> .required "scale" (integer (-128) 128)

def timestamp : FieldReader TypeAst :=
  TypeAst.timestamp <$> .required "unit" timeUnit <*> .optionalDefault "timezone" string

/-- The fields behind the tag of a parameterised type: the name of the type, or its place. -/
def parameterizedFields : Json → Option (FieldReader TypeAst)
  | .string "decimal128" => some decimal128
  | .string "timestamp" => some timestamp
  | json => match Serde.unsigned (2 ^ 64) json with
    | some 0 => some decimal128
    | some 1 => some timestamp
    | _ => none

/-- The tag of an internally tagged enumeration, and what is left. -/
def tagged (tag : String) : Json → Option (Json × Json)
  | .object members =>
      if members.countP (·.1 = tag) ≤ 1 then
        (SortedMap.find tag members).map fun value =>
          (value, .object (SortedMap.remove tag members))
      else none
  | .array (value :: items) => some (value, .array items)
  | _ => none

/-- `ParameterizedTypeAst`, which passes over unknown members. -/
def parameterizedType (json : Json) : Option TypeAst := do
  let (name, rest) ← tagged "name" json
  let variant ← parameterizedFields name
  let fields ← Serde.fields false (variant.members.map Prod.fst) rest
  variant.read fields

/-- The keys a type may have, in each of its forms. -/
def typeKeySets : List (List String) :=
  ["name", "precision", "scale"] :: ["name", "unit", "timezone"] ::
    primitiveTypes.map fun type => [type.1]

def typeGrammar : Grammar :=
  .struct true typeKeySets
    [("name", .leaf), ("precision", .leaf), ("scale", .leaf), ("unit", timeUnit.grammar),
      ("timezone", .leaf)]
    [.leaf, timeUnit.grammar, .leaf]

theorem parameterizedFields_eq_some {json : Json} {variant : FieldReader TypeAst}
    (h : parameterizedFields json = some variant) :
    (variant = decimal128 ∨ variant = timestamp) ∧ json.Conforms .leaf := by
  unfold parameterizedFields at h
  split at h
  · exact ⟨.inl (Option.some.inj h).symm, by simp only [Json.Conforms]⟩
  · exact ⟨.inr (Option.some.inj h).symm, by simp only [Json.Conforms]⟩
  · have hnumber : ∃ text, json = .number text := by
      cases json with
      | number text => exact ⟨text, rfl⟩
      | _ => cases h
    obtain ⟨text, rfl⟩ := hnumber
    refine ⟨?_, by simp only [Json.Conforms]⟩
    split at h
    · exact .inl (Option.some.inj h).symm
    · exact .inr (Option.some.inj h).symm
    · cases h

/-- The members behind the tag are read from the document itself. -/
theorem parameterized_member {members : List (String × Json)} {variant : FieldReader TypeAst}
    {fields : Serde.Fields} {type : TypeAst} {key : String} {json : Json}
    (hfields : Serde.fields false (variant.members.map Prod.fst)
      (.object (SortedMap.remove "name" members)) = some fields)
    (hread : variant.read fields = some type) (hmember : (key, json) ∈ members)
    (hkey : key ≠ "name") (hknown : key ∈ variant.members.map Prod.fst)
    {grammar : Grammar} (hgrammar : (key, grammar) ∈ variant.members)
    (hskips : json.SkipsNothing grammar) : json.Conforms grammar := by
  rw [Serde.fields] at hfields
  split at hfields
  case isFalse => cases hfields
  rename_i hcount
  cases hfields
  have hrest : (key, json) ∈ SortedMap.remove "name" members :=
    List.mem_filter.mpr ⟨hmember, decide_eq_true hkey⟩
  refine variant.conforms hread (key, grammar) hgrammar json ?_ hskips
  rw [find_of_countP_le_one (hcount.1 key hknown) hrest]
  rfl

theorem conforms_names_of_leaf {json : Json} {variants : List String} (h : json.Conforms .leaf) :
    json.Conforms (.names variants) := by
  cases json with
  | array items =>
      rw [Json.Conforms] at h ⊢
      exact h
  | object members =>
      rw [Json.Conforms] at h ⊢
      have hnil : members = [] := List.map_eq_nil_iff.mp h.1
      subst hnil
      exact ⟨fun _ hkey => absurd hkey List.not_mem_nil, h.2⟩
  | _ => simp only [Json.Conforms]

theorem conforms_primitive {json : Json} {type : PrimitiveTypeAst}
    (h : (variant primitiveTypes).read json = some type) : json.Conforms typeGrammar := by
  change Serde.variant (SortedMap.find · primitiveTypes) json = some type at h
  unfold Serde.variant at h
  split at h
  · simp only [Json.Conforms]
  · rename_i name
    have hname : name ∈ primitiveTypes.map Prod.fst :=
      SortedMap.mem_keys_iff.mpr (Option.isSome_iff_exists.mpr ⟨_, h⟩)
    obtain ⟨entry, hentry, rfl⟩ := List.mem_map.mp hname
    refine Json.conforms_singleton ⟨[entry.1], ?_, fun _ hkey => hkey⟩
    exact List.mem_cons_of_mem _ (List.mem_cons_of_mem _ (List.mem_map.mpr ⟨entry, hentry, rfl⟩))
  · cases h

/-- The item of an array after its tag. -/
theorem parameterized_item {items : List Json} {variant : FieldReader TypeAst}
    {fields : Serde.Fields} {type : TypeAst} {index : ℕ} {item : Json} {key : String}
    (hfields : Serde.fields false (variant.members.map Prod.fst) (.array items) = some fields)
    (hread : variant.read fields = some type) (hitem : items[index]? = some item)
    (hindex : (variant.members.map Prod.fst).idxOf key = index) {grammar : Grammar}
    (hgrammar : (key, grammar) ∈ variant.members) (hskips : item.SkipsNothing grammar) :
    item.Conforms grammar := by
  rw [Serde.fields] at hfields
  split at hfields
  case isFalse => cases hfields
  cases hfields
  refine variant.conforms hread (key, grammar) hgrammar item ?_ hskips
  rw [hindex, hitem]

/-- A required field is among the keys of the document. -/
theorem mem_keys_of_required {α : Type} {members : List (String × Json)} {names : List String}
    {fields : Serde.Fields} {key : String} {reader : Reader α} {value : α}
    (hfields : Serde.fields false names (.object (SortedMap.remove "name" members)) = some fields)
    (hread : (FieldReader.required key reader).read fields = some value) :
    key ∈ members.map Prod.fst := by
  rw [Serde.fields] at hfields
  split at hfields
  case isFalse => cases hfields
  cases hfields
  obtain ⟨json, hslot, -⟩ := Serde.required_eq_some.mp hread
  dsimp only at hslot
  cases hfind : SortedMap.find key (SortedMap.remove "name" members) with
  | none =>
      rw [hfind] at hslot
      cases hslot
  | some found =>
      have hmem := SortedMap.mem_of_find_eq_some hfind
      exact List.mem_map.mpr ⟨_, (List.mem_filter.mp hmem).1, rfl⟩

theorem conforms_parameterizedType {json : Json} {type : TypeAst}
    (h : parameterizedType json = some type) (hskips : json.SkipsNothing typeGrammar) :
    json.Conforms typeGrammar := by
  obtain ⟨⟨name, rest⟩, htagged, h⟩ := Option.bind_eq_some_iff.mp h
  obtain ⟨variant, hvariant, h⟩ := Option.bind_eq_some_iff.mp h
  obtain ⟨fields, hfields, hread⟩ := Option.bind_eq_some_iff.mp h
  obtain ⟨hvariant, htype⟩ := parameterizedFields_eq_some hvariant
  have hleaf : ∀ json : Json, json.SkipsNothing .leaf :=
    fun json => json.skipsNothing_of_closed rfl
  have hunit : ∀ json : Json, json.SkipsNothing timeUnit.grammar :=
    fun json => json.skipsNothing_of_closed rfl
  cases json with
  | object members =>
      rw [tagged] at htagged
      split at htagged
      case isFalse => cases htagged
      rename_i hcount
      obtain ⟨_, hfind, heq⟩ := Option.map_eq_some_iff.mp htagged
      cases heq
      rw [Json.SkipsNothing] at hskips
      have hallows := hskips.1 rfl
      have htag : "name" ∈ members.map Prod.fst :=
        List.mem_map.mpr ⟨_, SortedMap.mem_of_find_eq_some hfind, rfl⟩
      rw [Json.Conforms, Json.membersConform_iff]
      refine ⟨hallows, fun ⟨key, json⟩ hmember => ?_⟩
      obtain ⟨known, hknown, hkeys⟩ := hallows
      have hkey : key ∈ known := hkeys key (List.mem_map.mpr ⟨_, hmember, rfl⟩)
      by_cases hname : key = "name"
      · subst hname
        rw [find_of_countP_le_one hcount hmember] at hfind
        cases hfind
        exact htype
      -- the keys of the document fit one form only, so each is one the variant has read
      rcases hvariant with rfl | rfl
      · obtain ⟨_, hhead, -⟩ := Option.bind_eq_some_iff.mp hread
        obtain ⟨_, hprecision, -⟩ := Option.bind_eq_some_iff.mp hhead
        have hset : known = ["name", "precision", "scale"] :=
          (show ∀ known ∈ typeKeySets, "name" ∈ known → "precision" ∈ known → known = _ by decide)
            known hknown (hkeys _ htag) (hkeys _ (mem_keys_of_required hfields hprecision))
        subst hset
        simp only [List.mem_cons, hname, false_or, List.not_mem_nil, or_false] at hkey
        rcases hkey with rfl | rfl
        · exact parameterized_member hfields hread hmember hname (by decide)
            (List.mem_cons_self ..) (hleaf _)
        · exact parameterized_member hfields hread hmember hname (by decide)
            (List.mem_cons_of_mem _ (List.mem_cons_self ..)) (hleaf _)
      · obtain ⟨_, hhead, -⟩ := Option.bind_eq_some_iff.mp hread
        obtain ⟨_, hunitValue, -⟩ := Option.bind_eq_some_iff.mp hhead
        have hset : known = ["name", "unit", "timezone"] :=
          (show ∀ known ∈ typeKeySets, "name" ∈ known → "unit" ∈ known → known = _ by decide)
            known hknown (hkeys _ htag) (hkeys _ (mem_keys_of_required hfields hunitValue))
        subst hset
        simp only [List.mem_cons, hname, false_or, List.not_mem_nil, or_false] at hkey
        rcases hkey with rfl | rfl
        · exact parameterized_member hfields hread hmember hname (by decide)
            (List.mem_cons_self ..) (hunit _)
        · exact parameterized_member hfields hread hmember hname (by decide)
            (List.mem_cons_of_mem _ (List.mem_cons_self ..)) (hleaf _)
  | array items =>
      cases items with
      | nil => cases htagged
      | cons value items =>
          cases htagged
          rw [Json.Conforms, Json.itemsConform_iff]
          intro index item hitem
          match index with
          | 0 =>
              cases hitem
              exact htype
          | 1 =>
              rcases hvariant with rfl | rfl
              · exact conforms_names_of_leaf (@parameterized_item _ _ _ _ _ _ "precision" hfields hread
                  hitem (by decide) _ (List.mem_cons_self ..) (hleaf _))
              · exact @parameterized_item _ _ _ _ _ _ "unit" hfields hread hitem (by decide) _
                  (List.mem_cons_self ..) (hunit _)
          | 2 =>
              rcases hvariant with rfl | rfl
              · exact @parameterized_item _ _ _ _ _ _ "scale" hfields hread hitem (by decide) _
                  (List.mem_cons_of_mem _ (List.mem_cons_self ..)) (hleaf _)
              · exact @parameterized_item _ _ _ _ _ _ "timezone" hfields hread hitem (by decide) _
                  (List.mem_cons_of_mem _ (List.mem_cons_self ..)) (hleaf _)
          | _ + 3 => exact Json.conforms_free _
  | _ => cases htagged

def typeAst : Reader TypeAst where
  read json := (((variant primitiveTypes).read json).map TypeAst.primitive).or
    (parameterizedType json)
  grammar := typeGrammar
  conforms {json _} h hskips := by
    rcases Option.or_eq_some_iff.mp h with hprimitive | ⟨-, hparameterized⟩
    · obtain ⟨_, hprimitive, -⟩ := Option.map_eq_some_iff.mp hprimitive
      exact conforms_primitive hprimitive
    · exact conforms_parameterizedType hparameterized hskips

/-! ## Column rules -/

def nanPolicyAst : Reader NaNPolicyAst := variant [("reject", .reject), ("allow", .allow)]

variable [SerdeContent]

/-- `BoundAst`, a number or a text. -/
def boundAst : Reader BoundAst :=
  scalar (fun json => match json with
    | .number text => some (.number (SerdeContent.buffered text))
    | .string text => some (.text text)
    | _ => none) (fun _ => rfl) fun _ => rfl

def ruleAst : Reader RuleAst :=
  struct (RuleAst.mk <$> .defaulted "required" bool false <*> .defaulted "not_null" bool false <*>
    .defaulted "unique" bool false <*> .optional "min" boundAst <*> .optional "max" boundAst <*>
    .optional "nan" nanPolicyAst <*> .optional "pattern" string <*>
    .optional "allowed" stringSet) (of_decide_eq_true rfl)

def ruleAstV2 : Reader RuleAstV2 :=
  struct (RuleAstV2.mk <$> .defaulted "required" bool false <*> .defaulted "not_null" bool false <*>
    .defaulted "unique" bool false <*> .optional "type" typeAst <*> .optional "min" boundAst <*>
    .optional "max" boundAst <*> .optional "nan" nanPolicyAst <*> .optional "pattern" string <*>
    .optional "allowed" stringSet <*> .optional "min_length" u64 <*>
    .optional "max_length" u64) (of_decide_eq_true rfl)

/-! ## Row rules -/

def columnOperandAst : Reader OperandAst :=
  struct (OperandAst.column <$> .required "column" string) (of_decide_eq_true rfl)

/-- A literal comes out of the buffer of the operand. -/
def literalOperandAst : Reader OperandAst :=
  struct ((fun value => OperandAst.literal (Json.buffered value)) <$> .required "literal" value)
    (of_decide_eq_true rfl)

def operandGrammar : Grammar :=
  .struct false [["column"], ["literal"]] [("column", .leaf), ("literal", .free)] [.free]

omit [SerdeContent] in
/-- A document that conforms to one of the forms conforms to both together. -/
theorem conforms_operand {json : Json} {key : String} {grammar : Grammar}
    (hkey : key = "column" ∨ key = "literal") (hmember : operandGrammar.member key = grammar)
    (h : json.Conforms (.struct false [[key]] [(key, grammar)] [grammar])) :
    json.Conforms operandGrammar := by
  cases json with
  | object members =>
      rw [Json.Conforms, Json.membersConform_iff] at h ⊢
      obtain ⟨⟨known, hknown, hkeys⟩, hmembers⟩ := h
      cases List.mem_singleton.mp hknown
      refine ⟨⟨[key], ?_, hkeys⟩, fun member hmem => ?_⟩
      · rcases hkey with rfl | rfl <;> decide
      · have hname : member.1 = key :=
          List.mem_singleton.mp (hkeys member.1 (List.mem_map.mpr ⟨member, hmem, rfl⟩))
        have hconforms := hmembers member hmem
        rw [hname] at hconforms ⊢
        rw [hmember]
        simpa [Grammar.member, SortedMap.find_cons] using hconforms
  | array items =>
      rw [Json.Conforms, Json.itemsConform_iff]
      intro index item _
      cases index with
      | zero => exact Json.conforms_free _
      | succ index => exact Json.conforms_free _
  | _ => simp only [Json.Conforms]

/-- `OperandAst`, which takes the first form that reads. -/
def operandAst : Reader OperandAst where
  read json := (columnOperandAst.read json).or (literalOperandAst.read json)
  grammar := operandGrammar
  conforms {json _} h _ := by
    rcases Option.or_eq_some_iff.mp h with hcolumn | ⟨-, hliteral⟩
    · exact conforms_operand (.inl rfl) rfl
        (columnOperandAst.conforms hcolumn (json.skipsNothing_of_closed rfl))
    · exact conforms_operand (.inr rfl) rfl
        (literalOperandAst.conforms hliteral (json.skipsNothing_of_closed rfl))

def compareOpAst : Reader CompareOpAst :=
  variant [("eq", .eq), ("ne", .ne), ("lt", .lt), ("lte", .lte), ("gt", .gt), ("gte", .gte)]

def nullPolicyAst : Reader NullPolicyAst :=
  variant [("skip", .skip), ("fail", .fail), ("equal", .equal)]

def compareAst : Reader CompareAst :=
  struct (CompareAst.mk <$> .required "left" operandAst <*> .required "op" compareOpAst <*>
    .required "right" operandAst <*> .defaulted "nulls" nullPolicyAst .skip)
    (of_decide_eq_true rfl)

def assertionAst : Reader AssertionAst :=
  struct (AssertionAst.mk <$> .required "column" string <*> .defaulted "not_null" bool false <*>
    .optional "min" boundAst <*> .optional "max" boundAst <*> .optional "nan" nanPolicyAst <*>
    .optional "pattern" string <*> .optional "allowed" stringSet) (of_decide_eq_true rfl)

def rowRuleAst : Reader RowRuleAst :=
  struct (RowRuleAst.mk <$> .required "name" string <*> .optional "compare" compareAst <*>
    .optional "when" compareAst <*> .optional "assert" assertionAst) (of_decide_eq_true rfl)

/-! ## Dataset rules -/

/-- An `f64`. -/
def f64 : Reader F64 :=
  scalar (fun json => match json with
    | .number text => Ieee.parse text
    | _ => none) (fun _ => rfl) fun _ => rfl

def statisticAst : Reader StatisticAst :=
  struct (StatisticAst.mk <$> .required "name" string <*> .required "column" string <*>
    .optional "min" f64 <*> .optional "max" f64) (by decide)

def sumAst : Reader SumAst :=
  struct (SumAst.mk <$> .required "name" string <*> .required "column" string <*>
    .optional "min" boundAst <*> .optional "max" boundAst) (of_decide_eq_true rfl)

def exclusiveModeAst : Reader ExclusiveModeAst :=
  variant [("at_most_one", .atMostOne), ("exactly_one", .exactlyOne)]

def mutuallyExclusiveAst : Reader MutuallyExclusiveAst :=
  struct (MutuallyExclusiveAst.mk <$> .required "name" string <*>
    .required "columns" (list string) <*> .defaulted "mode" exclusiveModeAst .atMostOne)
    (by decide)

def monotonicNullPolicyAst : Reader MonotonicNullPolicyAst :=
  variant [("skip", .skip), ("reject", .reject)]

def gapDetectionAst : Reader GapDetectionAst :=
  struct (GapDetectionAst.mk <$> .required "name" string <*> .required "column" string <*>
    .required "expected_step" f64 <*> .defaulted "tolerance" f64 (Ieee.zero false) <*>
    .defaulted "max_gaps" u64 0 <*> .defaulted "nulls" monotonicNullPolicyAst .skip) (by decide)

def monotonicDirectionAst : Reader MonotonicDirectionAst :=
  variant [("increasing", .increasing), ("strictly_increasing", .strictlyIncreasing),
    ("decreasing", .decreasing), ("strictly_decreasing", .strictlyDecreasing)]

def monotonicityAst : Reader MonotonicityAst :=
  struct (MonotonicityAst.mk <$> .required "name" string <*> .required "column" string <*>
    .required "direction" monotonicDirectionAst <*>
    .defaulted "nulls" monotonicNullPolicyAst .skip) (by decide)

def countRangeAst : Reader CountRangeAst :=
  struct (CountRangeAst.mk <$> .optional "exact" u64 <*> .optional "min" u64 <*>
    .optional "max" u64) (by decide)

def ratioRangeAst : Reader RatioRangeAst :=
  struct (RatioRangeAst.mk <$> .optional "min" f64 <*> .optional "max" f64) (by decide)

def compositeNullPolicyAst : Reader CompositeNullPolicyAst :=
  variant [("equal", .equal), ("reject", .reject)]

def compositeUniqueAst : Reader CompositeUniqueAst :=
  struct (CompositeUniqueAst.mk <$> .required "name" string <*>
    .required "columns" (list string) <*> .defaulted "nulls" compositeNullPolicyAst .equal)
    (by decide)

def balanceEqualAst : Reader BalanceEqualAst :=
  struct (BalanceEqualAst.mk <$> .required "name" string <*> .required "left_column" string <*>
    .required "right_column" string <*> .defaulted "tolerance" f64 (Ieee.zero false)) (by decide)

def dominantValueAst : Reader DominantValueAst :=
  struct (DominantValueAst.mk <$> .required "name" string <*> .required "column" string <*>
    .required "max" f64) (by decide)

def rowCountDeltaAst : Reader RowCountDeltaAst :=
  struct (RowCountDeltaAst.mk <$> .required "name" string <*>
    .required "against_reference" string <*> .optional "min_ratio" f64 <*>
    .optional "max_ratio" f64) (by decide)

def conditionalUniqueAst : Reader ConditionalUniqueAst :=
  struct (ConditionalUniqueAst.mk <$> .required "name" string <*>
    .required "columns" (list string) <*> .required "when" compareAst <*>
    .defaulted "nulls" compositeNullPolicyAst .equal) (of_decide_eq_true rfl)

def referenceNullPolicyAst : Reader ReferenceNullPolicyAst :=
  variant [("skip", .skip), ("reject", .reject)]

def referenceAst : Reader ReferenceAst :=
  struct (ReferenceAst.mk <$> .required "name" string <*> .required "columns" (list string) <*>
    .required "reference" string <*> .required "reference_columns" (list string) <*>
    .defaulted "nulls" referenceNullPolicyAst .skip) (by decide)

def datasetRuleNames : List String :=
  ["row_count", "monotonicity", "gap_detection", "mutually_exclusive", "sum", "mean", "std_dev",
    "composite_unique", "conditional_unique", "row_count_delta", "balance_equal",
    "max_dominant_value_ratio", "references", "null_ratio", "distinct_count", "distinct_ratio"]

def datasetRulesAst : Reader DatasetRulesAst :=
  struct (DatasetRulesAst.mk <$> .optional "row_count" countRangeAst <*>
    .defaulted "monotonicity" (list monotonicityAst) [] <*>
    .defaulted "gap_detection" (list gapDetectionAst) [] <*>
    .defaulted "mutually_exclusive" (list mutuallyExclusiveAst) [] <*>
    .defaulted "sum" (list sumAst) [] <*> .defaulted "mean" (list statisticAst) [] <*>
    .defaulted "std_dev" (list statisticAst) [] <*>
    .defaulted "composite_unique" (list compositeUniqueAst) [] <*>
    .defaulted "conditional_unique" (list conditionalUniqueAst) [] <*>
    .defaulted "row_count_delta" (list rowCountDeltaAst) [] <*>
    .defaulted "balance_equal" (list balanceEqualAst) [] <*>
    .defaulted "max_dominant_value_ratio" (list dominantValueAst) [] <*>
    .defaulted "references" (list referenceAst) [] <*>
    .defaulted "null_ratio" (map ratioRangeAst) [] <*>
    .defaulted "distinct_count" (map countRangeAst) [] <*>
    .defaulted "distinct_ratio" (map ratioRangeAst) [])
    (show datasetRuleNames.Nodup by decide)

/-! ## Documents -/

def contractStatus : Reader ContractStatus := variant [("active", .active), ("draft", .draft)]

def suggestedReviewAst : Reader SuggestedReviewAst :=
  struct (SuggestedReviewAst.mk <$> .required "column" string <*> .required "reason" string)
    (by decide)

def suggestedFromAst : Reader SuggestedFromAst :=
  struct (SuggestedFromAst.mk <$> .required "proofframe_version" string <*>
    .required "dataset_fingerprint" string <*> .required "rows_observed" u64 <*>
    .required "uniqueness_inferred" bool <*>
    .defaulted "review" (list suggestedReviewAst) []) (by decide)

def contractVersion : Reader ContractVersion :=
  variant [("proofframe.contract.v1", .v1), ("proofframe.contract.v2", .v2)]

/-- `DEFAULT_MAX_FINDINGS`. -/
def defaultMaxFindings : ℕ := 100

def contractAst : Reader ContractAst :=
  struct (ContractAst.mk <$> .required "version" contractVersion <*>
    .defaulted "columns" (map ruleAst) [] <*>
    .defaulted "max_findings" u64 defaultMaxFindings) (of_decide_eq_true rfl)

/-- `DatasetRulesAst::default`. -/
def noDatasetRules : DatasetRulesAst :=
  ⟨none, [], [], [], [], [], [], [], [], [], [], [], [], [], [], []⟩

def contractAstV2 : Reader ContractAstV2 :=
  struct (ContractAstV2.mk <$> .required "version" contractVersion <*>
    .defaulted "status" contractStatus .active <*>
    .optional "suggested_from" suggestedFromAst <*> .defaulted "columns" (map ruleAstV2) [] <*>
    .defaulted "row_rules" (list rowRuleAst) [] <*>
    .defaulted "dataset_rules" datasetRulesAst noDatasetRules <*>
    .defaulted "max_findings" u64 defaultMaxFindings) (of_decide_eq_true rfl)

end Reader

end ProofFrame
