import RecordQuery.Proofs.Json.Equality
import RecordQuery.Proofs.Value.Equality
import RecordQuery.Proofs.Value.Members
import RecordQuery.Proofs.Value.Stored
import RecordQuery.Proofs.Version.ReadBack

/-!
# Values that come back from JSON

JSON has no identifiers, versions or ranges: these are written as texts, and a text is read as an
identifier under `id` and as a version under `version`, if it can be. `Value.JsonNormal` holds of
the values for which this undoes the writing.

* `Value.ofJson_toJson_record`: each property of a record comes back as what its name makes of what
  its value comes back as.
* `Value.jsonNormal_ofJson`: what is read is normal.
* `Value.same_ofJson_toJson`: what is normal comes back.
* **Main statement** (`Value.roundtrip_of_jsonNormal`): both, and what they say of record sets.
-/

namespace RecordQuery

open Record (kindKey idProperty versionProperty stored)

/-! ## Normal values -/

mutual

/-- A value that JSON can hold, apart from what the names of properties stand for. -/
inductive Value.JsonNormal : Value → Prop
  | null : JsonNormal .null
  | boolean {b : Bool} : JsonNormal (.boolean b)
  | integer {i : Int64} : JsonNormal (.integer i)
  | string {s : String} : JsonNormal (.string s)
  | list {items : List Value} (h : ∀ item ∈ items, JsonNormal item) : JsonNormal (.list items)
  | record {kind : String} {properties : List (String × Value)}
    (hkind : Named.lookup kindKey properties = none)
    (h : ∀ name value, Named.lookup name properties = some value → NormalUnder name value) :
    JsonNormal (.record kind properties)

/-- A value that JSON can hold under the name of a property. -/
inductive Value.NormalUnder : String → Value → Prop
  /-- An identifier stands under `id`. -/
  | id {item : ItemId} : NormalUnder idProperty (.id item)
  /-- A version stands under `version`, if it can be read back. -/
  | version {v : Version} (h : Text.endsBlank v.qualifier.toList = false) :
    NormalUnder versionProperty (.version v)
  /-- So does a text that is no version. -/
  | unreadable {s : String} {e : VersionError} (h : Version.parse s = .error e) :
    NormalUnder versionProperty (.string s)
  /-- Any other value that JSON can hold may stand under any name, but a text only under one that
  makes nothing of it. -/
  | plain {name : String} {value : Value} (h : JsonNormal value)
    (hname : name = idProperty ∨ name = versionProperty → ∀ s, value ≠ .string s) :
    NormalUnder name value

end

/-! ## Reading -/

/-- A value that JSON can hold is stored as one that it can hold under the name. -/
theorem Value.JsonNormal.stored {value : Value} (h : value.JsonNormal) (name : String) :
    (stored name value).NormalUnder name := by
  by_cases hstring : ∃ s, value = .string s
  · obtain ⟨s, rfl⟩ := hstring
    rw [Record.stored]
    by_cases hid : name = idProperty
    · subst hid
      rw [if_pos rfl]
      exact .id
    · rw [if_neg hid]
      by_cases hversion : name = versionProperty
      · subst hversion
        rw [if_pos rfl]
        rcases hparse : Version.parse s with e | v
        · exact .unreadable hparse
        · exact .version (Version.endsBlank_of_parse hparse)
      · rw [if_neg hversion]
        exact .plain .string fun hname => (hname.elim hid hversion).elim
  · have hne : ∀ s, value ≠ .string s := fun s heq => hstring ⟨s, heq⟩
    rw [Record.stored_of_ne_string name hne]
    exact .plain h fun _ => hne

/-- A record that JSON can hold: it names no kind among its properties, and each property has a
value that JSON can hold under its name. -/
structure Record.JsonNormal (record : Record) : Prop where
  /-- The kind is no property. -/
  kind : record.property? kindKey = none
  /-- The properties. -/
  properties : ∀ name value, record.property? name = some value → value.NormalUnder name

namespace Record.JsonNormal

variable {record : Record}

/-- A normal record is a normal value. -/
theorem toValue (h : record.JsonNormal) : record.toValue.JsonNormal :=
  .record h.kind h.properties

/-- A record stays normal if a normal value is set under a name other than that of the kind. -/
theorem set (h : record.JsonNormal) {name : String} (hname : name ≠ kindKey) {value : Value}
    (hvalue : value.JsonNormal) : (record.set name value).JsonNormal := by
  have hset : ∀ other, (record.set name value).property? other =
      if name = other then some (Record.stored name value) else record.property? other :=
    fun other => Named.lookup_put name other (Record.stored name value) record.properties
  refine ⟨?_, fun other value' h' => ?_⟩
  · rw [hset, if_neg hname]
    exact h.kind
  · rw [hset] at h'
    by_cases hother : name = other
    · subst hother
      rw [if_pos rfl] at h'
      cases h'
      exact hvalue.stored name
    · rw [if_neg hother] at h'
      exact h.properties other value' h'

/-- It stays so if several are set. -/
theorem setAll (h : record.JsonNormal) {properties : List (String × Value)}
    (hall : ∀ entry ∈ properties, entry.1 ≠ kindKey ∧ entry.2.JsonNormal) :
    (record.setAll properties).JsonNormal := by
  induction properties generalizing record with
  | nil => exact h
  | cons entry rest ih =>
      rw [List.forall_mem_cons] at hall
      obtain ⟨⟨hname, hvalue⟩, hrest⟩ := hall
      exact ih (h.set hname hvalue) hrest

end Record.JsonNormal

namespace Value

mutual

/-- **What is read from JSON is normal**, whatever the document holds. -/
theorem jsonNormal_ofJson : ∀ json : Json, (ofJson json).JsonNormal
  | .null => .null
  | .boolean _ => .boolean
  | .integer _ => .integer
  | .numeral _ => .string
  | .string _ => .string
  | .array items => by
    rw [ofJson]
    exact .list (jsonNormal_ofItems items)
  | .object members => by
    rw [ofJson]
    have hempty : (Record.ofKind (Record.kindOfMembers members)).JsonNormal :=
      ⟨rfl, fun _ _ h => by cases h⟩
    exact (hempty.setAll (jsonNormal_ofMembers members)).toValue

/-- The items of a list that is read are normal. -/
theorem jsonNormal_ofItems : ∀ items : List Json, ∀ value ∈ ofItems items, value.JsonNormal
  | [] => by
    rw [ofItems]
    exact List.forall_mem_nil _
  | item :: rest => by
    rw [ofItems]
    exact List.forall_mem_cons.mpr ⟨jsonNormal_ofJson item, jsonNormal_ofItems rest⟩

/-- So are the members of an object that is read, and none is named as the kind is. -/
theorem jsonNormal_ofMembers : ∀ members : List (String × Json),
    ∀ entry ∈ ofMembers members, entry.1 ≠ kindKey ∧ entry.2.JsonNormal
  | [] => by
    rw [ofMembers]
    exact List.forall_mem_nil _
  | (key, json) :: rest => by
    rw [ofMembers]
    split
    · exact jsonNormal_ofMembers rest
    · rename_i hkey
      exact List.forall_mem_cons.mpr ⟨⟨hkey, jsonNormal_ofJson json⟩, jsonNormal_ofMembers rest⟩

end

/-! ## Writing and reading -/

/-- A record comes back as one of its kind, with each property as what its name makes of what its
value comes back as. -/
theorem ofJson_toJson_record {kind : String} {properties : List (String × Value)}
    (hkind : Named.lookup kindKey properties = none) :
    ∃ properties', ofJson (toJson (.record kind properties)) = .record kind properties' ∧
      ∀ name, Named.lookup name properties' =
        (Named.lookup name properties).map fun value => stored name (ofJson value.toJson) := by
  let members := toMembers [(kindKey, .string kind)] [] properties
  have hlookup : ∀ name, Named.lookup name members =
      ((Named.lookup name properties).map toJson).or
        (Named.lookup name [(kindKey, .string kind)]) := by
    intro name
    exact (Record.lookup_toMembers name _ [] properties).trans (if_neg List.not_mem_nil)
  have hnodup : (members.map Prod.fst).Nodup := by
    apply Record.nodup_toMembers hkind (by simp)
    intro key hkey
    exact .inl (List.mem_singleton.mp hkey)
  have hname : Record.kindOfMembers members = kind := by
    rw [Record.kindOfMembers, Json.member?_eq_lookup, hlookup, hkind]
    rfl
  obtain ⟨properties', hread, hproperty⟩ := exists_ofJson_object hnodup
  refine ⟨properties', ?_, fun name => ?_⟩
  · rw [toJson, hread, hname]
  · rw [hproperty, hlookup]
    by_cases hkindKey : name = kindKey
    · subst hkindKey
      rw [if_pos rfl, hkind]
      rfl
    · rw [if_neg hkindKey, Named.lookup_cons_of_ne (Ne.symm hkindKey)]
      cases Named.lookup name properties <;> rfl

/-- Only a text equals a text. -/
theorem eq_string_of_same {s : String} {value : Value} (h : same (.string s) value = true) :
    value = .string s := by
  cases value
  case string s' =>
    rw [same, decide_eq_true_eq] at h
    rw [h]
  all_goals cases h

/-- What comes back item by item comes back as a list. -/
theorem sameItems_ofItems_toItems {items : List Value}
    (h : ∀ item ∈ items, same (ofJson item.toJson) item = true) :
    sameItems (ofItems (toItems items)) items = true := by
  induction items with
  | nil => rfl
  | cons item rest ih =>
      rw [List.forall_mem_cons] at h
      rw [toItems, ofItems, sameItems, h.1, ih h.2]
      rfl

mutual

/-- **Reading undoes writing**: a normal value that is written as JSON comes back as an equal
one. By induction on why the value is normal. -/
theorem same_ofJson_toJson : ∀ {value : Value}, value.JsonNormal →
    same (ofJson value.toJson) value = true
  | _, .null => rfl
  | _, .boolean | _, .integer | _, .string => by
    rw [toJson, ofJson, same, decide_eq_true_eq]
  | _, .list h => by
    rw [toJson, ofJson, same]
    exact sameItems_ofItems_toItems fun item hmem => same_ofJson_toJson (h item hmem)
  | .record kind properties, .record hkind h => by
    obtain ⟨properties', hrecord, hlookup⟩ := @ofJson_toJson_record kind properties hkind
    rw [hrecord]
    apply same_record_of_lookup
    intro name
    rw [hlookup]
    cases hvalue : Named.lookup name properties with
    | none => exact .none
    | some value => exact .some (same_stored (h name value hvalue))

/-- What a name makes of a value that comes back under it is an equal value. -/
theorem same_stored : ∀ {name : String} {value : Value}, value.NormalUnder name →
    same (stored name (ofJson value.toJson)) value = true
  | _, _, .id => by
    rw [toJson, ofJson, stored, if_pos rfl, same, decide_eq_true_eq]
  | _, _, .version h => by
    rw [toJson, ofJson, stored, if_neg (by decide), if_pos rfl, Version.parse_text h]
    rw [same, decide_eq_true_eq]
  | _, _, .unreadable h => by
    rw [toJson, ofJson, stored, if_neg (by decide), if_pos rfl, h]
    rw [same, decide_eq_true_eq]
  | name, value, .plain h hname => by
    have hsame := same_ofJson_toJson h
    have hstored : stored name (ofJson value.toJson) = ofJson value.toJson := by
      by_cases hspecial : name = idProperty ∨ name = versionProperty
      · apply Record.stored_of_ne_string
        intro s hs
        rw [hs] at hsame
        exact hname hspecial s (eq_string_of_same hsame)
      · rw [not_or] at hspecial
        exact Record.stored_of_ne hspecial.1 hspecial.2 _
    rw [hstored, hsame]

end

end Value

/-! ## Record sets -/

/-- Records that are written as a document are read as a set of records. -/
theorem Records.ofElements_map_toJson {records : List Value}
    (h : ∀ value ∈ records, ∃ kind properties, value = .record kind properties) (index : Nat) :
    ofElements index (records.map Value.toJson) =
      .ok (records.map fun value => Value.ofJson value.toJson) := by
  induction records generalizing index with
  | nil => rfl
  | cons value rest ih =>
      rw [List.forall_mem_cons] at h
      obtain ⟨⟨kind, properties, rfl⟩, hrest⟩ := h
      rw [List.map_cons, List.map_cons, Value.toJson, ofElements, ih hrest]
      rfl

/-- A record set that was read and is written comes back as an equal one. -/
theorem Records.ofJson_render {text : String} {records : List Value}
    (h : parse text = .ok records) :
    ∃ again, ofJson (render records) = .ok again ∧
      List.Forall₂ (fun value value' => (value == value') = true) again records := by
  have hobject := exists_object_of_parse h
  have hrecord : ∀ value ∈ records, ∃ kind properties, value = .record kind properties := by
    intro value hvalue
    obtain ⟨members, rfl⟩ := hobject value hvalue
    rw [Value.ofJson]
    exact ⟨_, _, rfl⟩
  refine ⟨_, ofElements_map_toJson hrecord 0, ?_⟩
  rw [List.forall₂_map_left_iff, List.forall₂_same]
  intro value hvalue
  obtain ⟨members, rfl⟩ := hobject value hvalue
  exact Value.same_ofJson_toJson (Value.jsonNormal_ofJson _)

/-- **Reading undoes writing for the values that JSON can hold.** What is read from any document is
normal; a normal value that is written and read is equal to what it was, at any depth; so the
records of a set that was read, written and read again are equal to the first ones, in order. -/
theorem Value.roundtrip_of_jsonNormal :
    (∀ json : Json, (ofJson json).JsonNormal) ∧
      (∀ value : Value, value.JsonNormal → (ofJson value.toJson == value) = true) ∧
      ∀ (text : String) (records : List Value), Records.parse text = .ok records →
        ∃ again, Records.ofJson (Records.render records) = .ok again ∧
          List.Forall₂ (fun value value' => (value == value') = true) again records :=
  ⟨jsonNormal_ofJson, fun _ => same_ofJson_toJson, fun _ _ => Records.ofJson_render⟩

/-- A version with a blank inside its qualifier comes back, and so does a list that stands where an
identifier would; a text that is no version stays one under the name of a version. -/
theorem Value.roundtrip_of_jsonNormal_record :
    let value : Value :=
      .record "unit" [(versionProperty, .version ⟨1, 2, 0, "r 1"⟩),
        (idProperty, .list [.null, .string "a"])]
    let text := "[\x7b\"version\":\"1. 2\"\x7d]"
    let records : List Value := [.record "record" [(versionProperty, .string "1. 2")]]
    value.JsonNormal ∧ (ofJson value.toJson == value) = true ∧
      Records.parse text = .ok records ∧
      ∃ again, Records.ofJson (Records.render records) = .ok again ∧
        List.Forall₂ (fun value value' => (value == value') = true) again records := by
  intro value text records
  have hlist : (Value.list [.null, .string "a"]).JsonNormal := by
    refine .list fun item hmem => ?_
    simp only [List.mem_cons, List.not_mem_nil, or_false] at hmem
    rcases hmem with rfl | rfl
    · exact .null
    · exact .string
  have hnormal : value.JsonNormal := by
    refine .record (by decide) fun name property hlookup => ?_
    by_cases hversion : versionProperty = name
    · subst hversion
      cases hlookup
      exact .version (by decide)
    · rw [Named.lookup_cons_of_ne hversion] at hlookup
      by_cases hid : idProperty = name
      · subst hid
        cases hlookup
        exact .plain hlist fun _ s hs => by cases hs
      · rw [Named.lookup_cons_of_ne hid] at hlookup
        cases hlookup
  have hjson : Json.parse? text = some (.array [.object [("version", .string "1. 2")]]) := by
    decide +kernel
  have hparse : Records.parse text = .ok records := Records.parse_eq_ofJson hjson
  obtain ⟨-, hvalue, hrecords⟩ := roundtrip_of_jsonNormal
  exact ⟨hnormal, hvalue value hnormal, hparse, hrecords text records hparse⟩

end RecordQuery
