import ProofFrame.Serde.Grammar

/-!
# Readers

A deserialiser with the grammar of its type: where it reads a document that skips
nothing, the document conforms.  The readers of fields, structs, lists and maps
carry the fact from their parts, so a derived deserialiser is written down once.
-/

namespace ProofFrame

open Lib

variable {α β : Type}

/-- A deserialiser, with the members its type knows. -/
structure Reader (α : Type) where
  read : Json → Option α
  grammar : Grammar
  conforms : ∀ {json value}, read json = some value → json.SkipsNothing grammar →
    json.Conforms grammar

/-- The deserialiser of the fields of a struct, with the grammar of each. -/
structure FieldReader (α : Type) where
  members : List (String × Grammar)
  read : Serde.Fields → Option α
  conforms : ∀ {fields value}, read fields = some value → ∀ member ∈ members, ∀ json,
    fields member.1 = .value json → json.SkipsNothing member.2 → json.Conforms member.2

namespace FieldReader

/-! ## Fields -/

def pure (a : α) : FieldReader α where
  members := []
  read _ := some a
  conforms _ _ hmember := absurd hmember List.not_mem_nil

def seq (f : FieldReader (α → β)) (a : FieldReader α) : FieldReader β where
  members := f.members ++ a.members
  read fields := do
    let change ← f.read fields
    let value ← a.read fields
    some (change value)
  conforms h member hmember json hjson hskips := by
    obtain ⟨change, hchange, h⟩ := Option.bind_eq_some_iff.mp h
    obtain ⟨value, hvalue, -⟩ := Option.bind_eq_some_iff.mp h
    rcases List.mem_append.mp hmember with hmember | hmember
    · exact f.conforms hchange member hmember json hjson hskips
    · exact a.conforms hvalue member hmember json hjson hskips

instance : Applicative FieldReader where
  pure := FieldReader.pure
  seq f a := f.seq (a ())

/-- A single field whose value, if it reads, conforms. -/
def single (name : String) (grammar : Grammar) (read : Serde.Slot → Option α)
    (h : ∀ {json value}, read (.value json) = some value → json.SkipsNothing grammar →
      json.Conforms grammar) : FieldReader α where
  members := [(name, grammar)]
  read fields := read (fields name)
  conforms hread member hmember json hjson hskips := by
    cases List.mem_singleton.mp hmember
    rw [hjson] at hread
    exact h hread hskips

def required (name : String) (reader : Reader α) : FieldReader α :=
  single name reader.grammar (Serde.required reader.read) reader.conforms

theorem conforms_optional (reader : Reader α) {json : Json} {value : Option α}
    (h : Serde.optional reader.read (.value json) = some value)
    (hskips : json.SkipsNothing reader.grammar) : json.Conforms reader.grammar := by
  cases json with
  | null => simp only [Json.Conforms]
  | _ =>
      obtain ⟨_, hread, -⟩ := Option.map_eq_some_iff.mp h
      exact reader.conforms hread hskips

/-- A field of type `Option`. -/
def optional (name : String) (reader : Reader α) : FieldReader (Option α) :=
  single name reader.grammar (Serde.optional reader.read) (conforms_optional reader)

/-- A field with `#[serde(default)]`. -/
def defaulted (name : String) (reader : Reader α) (default : α) : FieldReader α :=
  single name reader.grammar (Serde.defaulted reader.read default) reader.conforms

/-- A field of type `Option` with `#[serde(default)]`, which an array may leave out. -/
def optionalDefault (name : String) (reader : Reader α) : FieldReader (Option α) :=
  single name reader.grammar
    (fun slot => match slot with
      | .cut => some none
      | slot => Serde.optional reader.read slot)
    (conforms_optional reader)

end FieldReader

namespace Reader

/-! ## Values -/

/-- A deserialiser that reads neither objects nor arrays. -/
def scalar (read : Json → Option α) (harray : ∀ items, read (.array items) = none)
    (hobject : ∀ members, read (.object members) = none) : Reader α where
  read := read
  grammar := .leaf
  conforms {json _} h _ := by
    cases json with
    | array items => rw [harray] at h; cases h
    | object members => rw [hobject] at h; cases h
    | _ => simp only [Json.Conforms]

def string : Reader String := scalar Serde.string (fun _ => rfl) fun _ => rfl

def bool : Reader Bool := scalar Serde.bool (fun _ => rfl) fun _ => rfl

/-- A `u64`, and a `usize`. -/
def u64 : Reader ℕ := scalar (Serde.unsigned (2 ^ 64)) (fun _ => rfl) fun _ => rfl

/-- `Value`. -/
def value : Reader Json where
  read := some
  grammar := .free
  conforms _ _ := Json.conforms_free _

/-- An enumeration of plain names. -/
def variant (variants : List (String × α)) : Reader α where
  read := Serde.variant (SortedMap.find · variants)
  grammar := .names (variants.map Prod.fst)
  conforms {json _} h _ := by
    unfold Serde.variant at h
    split at h
    · simp only [Json.Conforms]
    · rename_i name
      refine Json.conforms_singleton fun key hkey => ?_
      rw [List.mem_singleton.mp hkey]
      exact SortedMap.mem_keys_iff.mpr (Option.isSome_iff_exists.mpr ⟨_, h⟩)
    · cases h

theorem mapM_eq_some {γ : Type} {read : γ → Option α} {items : List γ} {values : List α}
    (h : items.mapM read = some values) : ∀ item ∈ items, ∃ value, read item = some value := by
  induction items generalizing values with
  | nil => exact fun _ hitem => absurd hitem List.not_mem_nil
  | cons item items ih =>
      rw [List.mapM_cons] at h
      obtain ⟨value, hvalue, h⟩ := Option.bind_eq_some_iff.mp h
      obtain ⟨rest, hrest, -⟩ := Option.bind_eq_some_iff.mp h
      exact List.forall_mem_cons.mpr ⟨⟨value, hvalue⟩, ih hrest⟩

/-- A `Vec`. -/
def list (reader : Reader α) : Reader (List α) where
  read := Serde.list reader.read
  grammar := .list reader.grammar
  conforms {json _} h hskips := by
    cases json with
    | array items =>
        rw [Json.SkipsNothing, Json.itemsSkipNothing_iff] at hskips
        rw [Json.Conforms, Json.itemsConform_iff]
        intro index item hitem
        obtain ⟨_, hread⟩ := mapM_eq_some h item (List.mem_of_getElem? hitem)
        exact reader.conforms hread (hskips index item hitem)
    | _ => cases h

/-- A `BTreeMap` with the members of a `Value`, which are in key order. -/
def map (reader : Reader α) : Reader (List (String × α)) where
  read
    | .object members => members.mapM fun member => (reader.read member.2).map (member.1, ·)
    | _ => none
  grammar := .map reader.grammar
  conforms {json _} h hskips := by
    cases json with
    | object members =>
        rw [Json.SkipsNothing, Json.membersSkipNothing_iff] at hskips
        rw [Json.Conforms, Json.membersConform_iff]
        refine ⟨trivial, fun member hmember => ?_⟩
        obtain ⟨_, hread⟩ := mapM_eq_some h member hmember
        obtain ⟨_, hread, -⟩ := Option.map_eq_some_iff.mp hread
        exact reader.conforms hread (hskips.2 member hmember)
    | _ => cases h

/-- The reader with its values changed. -/
def change (f : α → β) (reader : Reader α) : Reader β where
  read json := (reader.read json).map f
  grammar := reader.grammar
  conforms h hskips := by
    obtain ⟨_, hread, -⟩ := Option.map_eq_some_iff.mp h
    exact reader.conforms hread hskips

/-- A `BTreeSet` of strings, in order. -/
def stringSet : Reader (List String) :=
  change (fun values => SortedMap.keys
    (values.foldl (fun set value => SortedMap.insert value () set) [])) (list string)

/-! ## Structs -/

theorem find_of_countP_le_one {members : List (String × Json)} {key : String} {json : Json}
    (hcount : members.countP (·.1 = key) ≤ 1) (hmember : (key, json) ∈ members) :
    SortedMap.find key members = some json := by
  induction members with
  | nil => exact absurd hmember List.not_mem_nil
  | cons member members ih =>
      obtain ⟨other, value⟩ := member
      rw [List.countP_cons] at hcount
      rw [SortedMap.find_cons]
      by_cases heq : other = key
      · rw [if_pos heq]
        rcases List.mem_cons.mp hmember with hhead | htail
        · cases hhead
          rfl
        · have hpos : 0 < members.countP (·.1 = key) :=
            List.countP_pos_iff.mpr ⟨_, htail, decide_eq_true rfl⟩
          rw [if_pos (decide_eq_true heq)] at hcount
          omega
      · rw [if_neg heq]
        refine ih (by omega) ((List.mem_cons.mp hmember).resolve_left fun hhead => heq ?_)
        exact (Prod.ext_iff.mp hhead).1.symm

/-- A struct with `#[serde(deny_unknown_fields)]`. -/
def struct (fields : FieldReader α) (hnodup : (fields.members.map Prod.fst).Nodup) : Reader α where
  read json := (Serde.fields true (fields.members.map Prod.fst) json).bind fields.read
  grammar := .struct false [fields.members.map Prod.fst] fields.members
    (fields.members.map Prod.snd)
  conforms {json _} h hskips := by
    obtain ⟨found, hfound, hread⟩ := Option.bind_eq_some_iff.mp h
    cases json with
    | object members =>
        rw [Serde.fields] at hfound
        split at hfound
        case isFalse => cases hfound
        rename_i hcond
        cases hfound
        rw [Json.SkipsNothing, Json.membersSkipNothing_iff] at hskips
        rw [Json.Conforms, Json.membersConform_iff]
        have hknown : ∀ member ∈ members, member.1 ∈ fields.members.map Prod.fst := hcond.2 rfl
        refine ⟨⟨_, List.mem_singleton_self _, fun key hkey => ?_⟩, fun member hmember => ?_⟩
        · obtain ⟨member, hmember, rfl⟩ := List.mem_map.mp hkey
          exact hknown member hmember
        · have hskip := hskips.2 member hmember
          dsimp only [Grammar.member] at hskip ⊢
          cases hfind : SortedMap.find member.1 fields.members with
          | none => exact Json.conforms_free _
          | some grammar =>
              rw [hfind] at hskip
              refine fields.conforms hread (member.1, grammar) ?_ member.2 ?_ hskip
              · exact (SortedMap.mem_iff_find hnodup).mpr hfind
              · rw [find_of_countP_le_one (hcond.1 _ (hknown member hmember)) hmember]
                rfl
    | array items =>
        rw [Serde.fields] at hfound
        split at hfound
        case isFalse => cases hfound
        cases hfound
        rw [Json.SkipsNothing, Json.itemsSkipNothing_iff] at hskips
        rw [Json.Conforms, Json.itemsConform_iff]
        intro index item hitem
        have hskip := hskips index item hitem
        dsimp only [Grammar.item] at hskip ⊢
        rw [List.getElem?_map] at hskip ⊢
        cases hmember : fields.members[index]? with
        | none => exact Json.conforms_free _
        | some member =>
            rw [hmember] at hskip
            refine fields.conforms hread member (List.mem_of_getElem? hmember) item ?_ hskip
            obtain ⟨hlt, hget⟩ := List.getElem?_eq_some_iff.mp hmember
            have hlength : index < (fields.members.map Prod.fst).length := by
              rwa [List.length_map]
            have hname : (fields.members.map Prod.fst)[index] = member.1 := by
              rw [List.getElem_map, hget]
            have hindex : (fields.members.map Prod.fst).idxOf member.1 = index := by
              rw [← hname]
              exact hnodup.idxOf_getElem index hlength
            rw [hindex, hitem]
    | _ => cases hfound

end Reader

end ProofFrame
