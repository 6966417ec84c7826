import ProofFrame.Serde

/-!
# Which members a document may have

A reader takes a document, and a grammar says which members the types behind the
reader know at each place of it.  A reader carries its grammar with the fact that
what it reads has no member the grammar does not know, except at the places that
skip unknown members.

A `Value` has dropped the members that a later one of the same key shadows.  A
document has known members only if its `Value` has and the dropped members have.
-/

namespace ProofFrame

open Lib

inductive Grammar where
  /-- A value without members. -/
  | leaf
  /-- Any value. -/
  | free
  /-- An enumeration, which may be written as an object with the name for its key. -/
  | names (variants : List String)
  /-- An object whose keys all belong to one of the key sets, or an array; `skips` if the reader
  passes over other keys. -/
  | struct (skips : Bool) (keySets : List (List String)) (fields : List (String × Grammar))
      (positions : List Grammar)
  /-- An object with any keys. -/
  | map (values : Grammar)
  | list (items : Grammar)

namespace Grammar

/-- Whether an object may have the keys. -/
def Allows : Grammar → List String → Prop
  | .leaf, keys | .list _, keys => keys = []
  | .free, _ | .map _, _ => True
  | .names variants, keys => ∀ key ∈ keys, key ∈ variants
  | .struct _ keySets _ _, keys => ∃ known ∈ keySets, ∀ key ∈ keys, key ∈ known

/-- Whether the reader passes over keys that are not allowed. -/
def Skips : Grammar → Bool
  | .struct skips _ _ _ => skips
  | _ => false

/-- The grammar of a member. -/
def member : Grammar → String → Grammar
  | .struct _ _ fields _, key => (SortedMap.find key fields).getD .free
  | .map values, _ => values
  | .free, _ => .free
  | .leaf, _ | .names _, _ | .list _, _ => .leaf

/-- The grammar of an item. -/
def item : Grammar → ℕ → Grammar
  | .struct _ _ _ positions, index => positions[index]?.getD .free
  | .list items, _ => items
  | .free, _ => .free
  | .leaf, _ | .names _, _ | .map _, _ => .leaf

theorem allows_congr {grammar : Grammar} {keys keys' : List String}
    (h : ∀ key, key ∈ keys ↔ key ∈ keys') : grammar.Allows keys ↔ grammar.Allows keys' := by
  have hnil : keys = [] ↔ keys' = [] := by
    rw [List.eq_nil_iff_forall_not_mem, List.eq_nil_iff_forall_not_mem]
    exact forall_congr' fun key => not_congr (h key)
  cases grammar with
  | leaf | list _ => exact hnil
  | free | map _ => exact Iff.rfl
  | names variants => exact forall_congr' fun key => imp_congr_left (h key)
  | struct skips keySets fields positions =>
      exact exists_congr fun known => and_congr_right fun _ =>
        forall_congr' fun key => imp_congr_left (h key)

mutual

/-- No reader of the grammar passes over unknown members. -/
def closed : Grammar → Bool
  | .leaf | .free | .names _ => true
  | .struct skips _ fields positions => !skips && closedFields fields && closedItems positions
  | .map values => values.closed
  | .list items => items.closed

def closedFields : List (String × Grammar) → Bool
  | [] => true
  | (_, grammar) :: fields => grammar.closed && closedFields fields

def closedItems : List Grammar → Bool
  | [] => true
  | grammar :: grammars => grammar.closed && closedItems grammars

end

theorem closedFields_iff {fields : List (String × Grammar)} :
    closedFields fields = true ↔ ∀ field ∈ fields, field.2.closed = true := by
  induction fields with
  | nil => simp [closedFields]
  | cons field fields ih =>
      obtain ⟨key, grammar⟩ := field
      rw [closedFields, Bool.and_eq_true, ih, List.forall_mem_cons]

theorem closedItems_iff {grammars : List Grammar} :
    closedItems grammars = true ↔ ∀ grammar ∈ grammars, grammar.closed = true := by
  induction grammars with
  | nil => simp [closedItems]
  | cons grammar grammars ih =>
      rw [closedItems, Bool.and_eq_true, ih, List.forall_mem_cons]

theorem closed_struct {skips : Bool} {keySets : List (List String)}
    {fields : List (String × Grammar)} {positions : List Grammar} :
    (struct skips keySets fields positions).closed = true ↔ skips = false ∧
      (∀ field ∈ fields, field.2.closed = true) ∧
      ∀ grammar ∈ positions, grammar.closed = true := by
  simp [closed, closedFields_iff, closedItems_iff, and_assoc]

theorem skips_of_closed {grammar : Grammar} (h : grammar.closed = true) :
    grammar.Skips = false := by
  cases grammar with
  | struct skips keySets fields positions => exact (closed_struct.mp h).1
  | _ => rfl

theorem closed_member {grammar : Grammar} (h : grammar.closed = true) (key : String) :
    (grammar.member key).closed = true := by
  cases grammar with
  | struct skips keySets fields positions =>
      rw [member]
      cases hfind : SortedMap.find key fields with
      | none => rfl
      | some grammar =>
          exact (closed_struct.mp h).2.1 (key, grammar) (SortedMap.mem_of_find_eq_some hfind)
  | map values => exact h
  | _ => rfl

theorem closed_item {grammar : Grammar} (h : grammar.closed = true) (index : ℕ) :
    (grammar.item index).closed = true := by
  cases grammar with
  | struct skips keySets fields positions =>
      rw [item]
      cases hget : positions[index]? with
      | none => rfl
      | some grammar => exact (closed_struct.mp h).2.2 grammar (List.mem_of_getElem? hget)
  | list items => exact h
  | _ => rfl

end Grammar

namespace Json

mutual

/-- Every key of the document is one the grammar knows at its place. -/
def Conforms : Json → Grammar → Prop
  | .array items, grammar => ItemsConform items grammar.item
  | .object members, grammar =>
      grammar.Allows (members.map Prod.fst) ∧ MembersConform members grammar
  | _, _ => True

def ItemsConform : List Json → (ℕ → Grammar) → Prop
  | [], _ => True
  | item :: items, grammar =>
      item.Conforms (grammar 0) ∧ ItemsConform items fun index => grammar (index + 1)

def MembersConform : List (String × Json) → Grammar → Prop
  | [], _ => True
  | (key, value) :: members, grammar =>
      value.Conforms (grammar.member key) ∧ MembersConform members grammar

end

mutual

/-- At the places that skip unknown members, there are none. -/
def SkipsNothing : Json → Grammar → Prop
  | .array items, grammar => ItemsSkipNothing items grammar.item
  | .object members, grammar =>
      (grammar.Skips = true → grammar.Allows (members.map Prod.fst)) ∧
        MembersSkipNothing members grammar
  | _, _ => True

def ItemsSkipNothing : List Json → (ℕ → Grammar) → Prop
  | [], _ => True
  | item :: items, grammar =>
      item.SkipsNothing (grammar 0) ∧ ItemsSkipNothing items fun index => grammar (index + 1)

def MembersSkipNothing : List (String × Json) → Grammar → Prop
  | [], _ => True
  | (key, value) :: members, grammar =>
      value.SkipsNothing (grammar.member key) ∧ MembersSkipNothing members grammar

end

mutual

/-- The members that are shadowed by a later one conform. -/
def ShadowedConform : Json → Grammar → Prop
  | .array items, grammar => ItemsShadowed items grammar.item
  | .object members, grammar => MembersShadowed members grammar
  | _, _ => True

def ItemsShadowed : List Json → (ℕ → Grammar) → Prop
  | [], _ => True
  | item :: items, grammar =>
      item.ShadowedConform (grammar 0) ∧ ItemsShadowed items fun index => grammar (index + 1)

def MembersShadowed : List (String × Json) → Grammar → Prop
  | [], _ => True
  | (key, value) :: members, grammar =>
      (if key ∈ members.map Prod.fst then value.Conforms (grammar.member key)
        else value.ShadowedConform (grammar.member key)) ∧ MembersShadowed members grammar

end

/-! ## The parts of a document -/

theorem forall_getElem?_cons {α : Type} {head : α} {rest : List α} {P : ℕ → α → Prop} :
    (∀ index a, (head :: rest)[index]? = some a → P index a) ↔
      P 0 head ∧ ∀ index a, rest[index]? = some a → P (index + 1) a := by
  constructor
  · intro h
    exact ⟨h 0 head rfl, fun index a ha => h (index + 1) a ha⟩
  · rintro ⟨hhead, hrest⟩ index a ha
    cases index with
    | zero =>
        cases ha
        exact hhead
    | succ index => exact hrest index a ha

theorem itemsConform_iff {items : List Json} {grammar : ℕ → Grammar} :
    ItemsConform items grammar ↔
      ∀ (index : ℕ) (item : Json), items[index]? = some item → item.Conforms (grammar index) := by
  induction items generalizing grammar with
  | nil => simp [ItemsConform]
  | cons item items ih => rw [ItemsConform, ih, forall_getElem?_cons]

theorem membersConform_iff {members : List (String × Json)} {grammar : Grammar} :
    MembersConform members grammar ↔
      ∀ member ∈ members, member.2.Conforms (grammar.member member.1) := by
  induction members with
  | nil => simp [MembersConform]
  | cons member members ih =>
      obtain ⟨key, value⟩ := member
      rw [MembersConform, ih, List.forall_mem_cons]

theorem itemsSkipNothing_iff {items : List Json} {grammar : ℕ → Grammar} :
    ItemsSkipNothing items grammar ↔ ∀ (index : ℕ) (item : Json), items[index]? = some item →
      item.SkipsNothing (grammar index) := by
  induction items generalizing grammar with
  | nil => simp [ItemsSkipNothing]
  | cons item items ih => rw [ItemsSkipNothing, ih, forall_getElem?_cons]

theorem membersSkipNothing_iff {members : List (String × Json)} {grammar : Grammar} :
    MembersSkipNothing members grammar ↔
      ∀ member ∈ members, member.2.SkipsNothing (grammar.member member.1) := by
  induction members with
  | nil => simp [MembersSkipNothing]
  | cons member members ih =>
      obtain ⟨key, value⟩ := member
      rw [MembersSkipNothing, ih, List.forall_mem_cons]

/-! ## Documents that conform -/

mutual

theorem conforms_free : ∀ json : Json, json.Conforms .free
  | .null | .bool _ | .number _ | .string _ => by simp only [Conforms]
  | .array items => by
      rw [Conforms]
      exact itemsConform_free items
  | .object members => by
      rw [Conforms]
      exact ⟨trivial, membersConform_free members⟩

theorem itemsConform_free : ∀ items : List Json, ItemsConform items fun _ => .free
  | [] => by simp only [ItemsConform]
  | item :: items => by
      rw [ItemsConform]
      exact ⟨conforms_free item, itemsConform_free items⟩

theorem membersConform_free : ∀ members : List (String × Json), MembersConform members .free
  | [] => by simp only [MembersConform]
  | (key, value) :: members => by
      rw [MembersConform]
      exact ⟨conforms_free value, membersConform_free members⟩

end

/-- An object of a single member without members of its own. -/
theorem conforms_singleton {key : String} {grammar : Grammar} (h : grammar.Allows [key]) :
    (Json.object [(key, .null)]).Conforms grammar := by
  rw [Conforms, MembersConform, MembersConform, Conforms]
  · exact ⟨h, trivial, trivial⟩
  all_goals simp

mutual

theorem Conforms.skipsNothing : ∀ {json : Json} {grammar : Grammar},
    json.Conforms grammar → json.SkipsNothing grammar
  | .null, _, _ | .bool _, _, _ | .number _, _, _ | .string _, _, _ => by simp only [SkipsNothing]
  | .array _, _, h => by
      rw [Conforms] at h
      rw [SkipsNothing]
      exact itemsSkipNothing_of_conform h
  | .object _, _, h => by
      rw [Conforms] at h
      rw [SkipsNothing]
      exact ⟨fun _ => h.1, membersSkipNothing_of_conform h.2⟩

theorem itemsSkipNothing_of_conform : ∀ {items : List Json} {grammar : ℕ → Grammar},
    ItemsConform items grammar → ItemsSkipNothing items grammar
  | [], _, _ => by rw [ItemsSkipNothing]; trivial
  | item :: items, _, h => by
      rw [ItemsConform] at h
      rw [ItemsSkipNothing]
      exact ⟨Conforms.skipsNothing h.1, itemsSkipNothing_of_conform h.2⟩

theorem membersSkipNothing_of_conform : ∀ {members : List (String × Json)} {grammar : Grammar},
    MembersConform members grammar → MembersSkipNothing members grammar
  | [], _, _ => by rw [MembersSkipNothing]; trivial
  | (key, value) :: members, _, h => by
      rw [MembersConform] at h
      rw [MembersSkipNothing]
      exact ⟨Conforms.skipsNothing h.1, membersSkipNothing_of_conform h.2⟩

end

mutual

theorem skipsNothing_of_closed : ∀ (json : Json) {grammar : Grammar}, grammar.closed = true →
    json.SkipsNothing grammar
  | .null, _, _ | .bool _, _, _ | .number _, _, _ | .string _, _, _ => by simp only [SkipsNothing]
  | .array items, _, h => by
      rw [SkipsNothing]
      exact itemsSkipNothing_of_closed items (Grammar.closed_item h)
  | .object members, _, h => by
      rw [SkipsNothing]
      refine ⟨fun hskips => ?_, membersSkipNothing_of_closed members h⟩
      rw [Grammar.skips_of_closed h] at hskips
      cases hskips

theorem itemsSkipNothing_of_closed : ∀ (items : List Json) {grammar : ℕ → Grammar},
    (∀ index, (grammar index).closed = true) → ItemsSkipNothing items grammar
  | [], _, _ => by simp only [ItemsSkipNothing]
  | item :: items, _, h => by
      rw [ItemsSkipNothing]
      exact ⟨skipsNothing_of_closed item (h 0),
        itemsSkipNothing_of_closed items fun index => h (index + 1)⟩

theorem membersSkipNothing_of_closed : ∀ (members : List (String × Json)) {grammar : Grammar},
    grammar.closed = true → MembersSkipNothing members grammar
  | [], _, _ => by simp only [MembersSkipNothing]
  | (key, value) :: members, _, h => by
      rw [MembersSkipNothing]
      exact ⟨skipsNothing_of_closed value (Grammar.closed_member h key),
        membersSkipNothing_of_closed members h⟩

end

/-! ## What a `Value` has dropped -/

/-- The property of the members that stay: those whose key comes no later. -/
def LastMembers (P : String → Json → Prop) : List (String × Json) → Prop
  | [] => True
  | (key, value) :: members => (key ∉ members.map Prod.fst → P key value) ∧ LastMembers P members

theorem forall_mem_toMap {P : String → Json → Prop} {members map : List (String × Json)}
    (h : SortedMap.Ascending map) :
    (∀ member ∈ Json.toMap members map, P member.1 member.2) ↔
      (∀ member ∈ map, member.1 ∉ members.map Prod.fst → P member.1 member.2) ∧
        LastMembers (fun key value => P key value.toValue) members := by
  induction members generalizing map with
  | nil => simp [Json.toMap, LastMembers]
  | cons member members ih =>
      obtain ⟨key, value⟩ := member
      rw [Json.toMap, ih h.insert, LastMembers, ← and_assoc]
      refine and_congr_left fun _ => ?_
      constructor
      · intro hall
        refine ⟨fun other hother hlater => ?_, fun hlast =>
          hall (key, value.toValue) (h.mem_insert_iff.mpr (.inl ⟨rfl, rfl⟩)) hlast⟩
        rw [List.map_cons, List.mem_cons, not_or] at hlater
        exact hall other (h.mem_insert_iff.mpr (.inr ⟨hlater.1, hother⟩)) hlater.2
      · rintro ⟨hearlier, hhead⟩ ⟨other, found⟩ hother hlater
        rcases h.mem_insert_iff.mp hother with ⟨rfl, rfl⟩ | ⟨hne, hmem⟩
        · exact hhead hlater
        · refine hearlier (other, found) hmem ?_
          rw [List.map_cons, List.mem_cons, not_or]
          exact ⟨hne, hlater⟩

theorem mem_keys_toMap {members map : List (String × Json)} {key : String} :
    key ∈ SortedMap.keys (Json.toMap members map) ↔
      key ∈ members.map Prod.fst ∨ key ∈ SortedMap.keys map := by
  induction members generalizing map with
  | nil => simp [Json.toMap]
  | cons member members ih =>
      rw [Json.toMap, ih, SortedMap.mem_keys_insert, List.map_cons, List.mem_cons]
      tauto

mutual

/-- A document conforms exactly if its value and what the value has dropped do. -/
theorem conforms_iff : ∀ (json : Json) (grammar : Grammar),
    json.Conforms grammar ↔ json.toValue.Conforms grammar ∧ json.ShadowedConform grammar
  | .null, _ | .bool _, _ | .number _, _ | .string _, _ => by
      simp only [Json.toValue, Conforms, ShadowedConform, and_self]
  | .array items, grammar => by
      rw [Json.toValue, Conforms, Conforms, ShadowedConform]
      exact itemsConform_toValues items grammar.item
  | .object members, grammar => by
      have hallows : grammar.Allows (members.map Prod.fst) ↔
          grammar.Allows ((Json.toMap members []).map Prod.fst) :=
        Grammar.allows_congr fun key =>
          (mem_keys_toMap.trans (or_iff_left List.not_mem_nil)).symm
      rw [Json.toValue, Conforms, Conforms, ShadowedConform, hallows, and_assoc,
        membersConform_toMap members grammar, membersConform_iff,
        forall_mem_toMap (P := fun key value => value.Conforms (grammar.member key)) .nil]
      simp

theorem itemsConform_toValues : ∀ (items : List Json) (grammar : ℕ → Grammar),
    ItemsConform items grammar ↔
      ItemsConform (Json.toValues items) grammar ∧ ItemsShadowed items grammar
  | [], _ => by simp only [Json.toValues, ItemsConform, ItemsShadowed, and_self]
  | item :: items, grammar => by
      rw [Json.toValues, ItemsConform, ItemsConform, ItemsShadowed, conforms_iff item,
        itemsConform_toValues items]
      tauto

theorem membersConform_toMap : ∀ (members : List (String × Json)) (grammar : Grammar),
    MembersConform members grammar ↔
      LastMembers (fun key value => value.toValue.Conforms (grammar.member key)) members ∧
        MembersShadowed members grammar
  | [], _ => by simp only [MembersConform, LastMembers, MembersShadowed, and_self]
  | (key, value) :: members, grammar => by
      rw [MembersConform, LastMembers, MembersShadowed, membersConform_toMap members grammar]
      by_cases hlater : key ∈ members.map Prod.fst
      · rw [if_pos hlater]
        tauto
      · rw [if_neg hlater, conforms_iff value]
        tauto

end

end Json

end ProofFrame
