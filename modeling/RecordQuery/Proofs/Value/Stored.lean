import RecordQuery.Proofs.Version.ReadBack
import RecordQuery.Records.Load

/-!
# Records that were read

A document holds texts, numbers and truth values, and no identifiers or versions: a text becomes an
identifier under `id` and a version under `version`, and under no other name. So the property of a
record that was read tells by its name which values it can have.

**Main statement** (`Records.asRead_of_parse`): every value of a record set that was read is a
record of this form, whatever the document says.
-/

namespace RecordQuery

/-! ## Values under a name -/

/-- The values that a property of the name can have in a record that was read. -/
def Value.StoredUnder (name : String) : Value → Prop
  | .id _ => name = Record.idProperty
  | .version _ => name = Record.versionProperty
  | .range _ | .query _ => False
  | _ => True

namespace Record

/-- A text is stored as what its name makes of it. -/
theorem storedUnder_stored_string (name text : String) :
    (stored name (.string text)).StoredUnder name := by
  by_cases hid : name = idProperty
  · rw [stored, if_pos hid]
    exact hid
  · rw [stored, if_neg hid]
    by_cases hversion : name = versionProperty
    · rw [if_pos hversion]
      split
      · exact hversion
      · trivial
    · rw [if_neg hversion]
      trivial

/-- Whatever a document holds is stored as a value that fits its name. -/
theorem storedUnder_stored_ofJson (name : String) (json : Json) :
    (stored name (Value.ofJson json)).StoredUnder name := by
  rcases json with _ | b | i | text | text | items | members
  all_goals rw [Value.ofJson]
  case numeral => exact storedUnder_stored_string name text
  case string => exact storedUnder_stored_string name text
  all_goals exact trivial

/-! ## Records -/

/-- A record as reading makes it: every property has a value that fits its name. -/
def AsRead (record : Record) : Prop :=
  ∀ name value, record.property? name = some value → value.StoredUnder name

/-- A record without properties is as one that was read. -/
theorem asRead_ofKind (kind : String) : (ofKind kind).AsRead := by
  intro name value h
  cases h

/-- Setting a property of a read record to a value of a document gives a read record. -/
theorem AsRead.set {record : Record} (h : record.AsRead) (name : String) (json : Json) :
    (record.set name (Value.ofJson json)).AsRead := by
  intro other value hvalue
  have hlookup : Named.lookup other (Named.put name (stored name (Value.ofJson json))
      record.properties) = some value := hvalue
  rw [Named.lookup_put] at hlookup
  split at hlookup
  · rename_i heq
    obtain rfl := Option.some.inj hlookup
    exact heq ▸ storedUnder_stored_ofJson name json
  · exact h other value hlookup

/-- It stays so when members of a document are set. -/
theorem AsRead.setAll {record : Record} (h : record.AsRead) (members : List (String × Json)) :
    (record.setAll (Value.ofMembers members)).AsRead := by
  induction members generalizing record with
  | nil => exact h
  | cons member rest ih =>
      rw [Value.ofMembers]
      split
      · exact ih h
      · exact ih (h.set member.1 member.2)

/-- An object is read as a record that is as reading makes it. -/
theorem asRead_of_object (members : List (String × Json)) :
    ∃ record : Record, Value.ofJson (.object members) = record.toValue ∧ record.AsRead := by
  rw [Value.ofJson]
  exact ⟨_, rfl, (asRead_ofKind _).setAll members⟩

end Record

/-! ## Record sets -/

namespace Records

/-- The elements of an array are read one by one, each as an object. -/
theorem exists_object_of_ofElements {index : Nat} {elements : List Json} {records : List Value}
    (h : ofElements index elements = .ok records) :
    ∀ value ∈ records, ∃ members, value = Value.ofJson (.object members) := by
  induction elements generalizing index records with
  | nil =>
      obtain rfl := Except.ok.inj h
      exact List.forall_mem_nil _
  | cons element rest ih =>
      rcases element with _ | _ | _ | _ | _ | _ | members
      case object =>
        rw [ofElements] at h
        obtain ⟨later, hrest, h⟩ := exists_of_bind_eq_ok h
        cases h
        exact List.forall_mem_cons.mpr ⟨⟨members, rfl⟩, ih hrest⟩
      all_goals cases h

/-- The records of a document are its objects. -/
theorem exists_object_of_ofJson {json : Json} {records : List Value}
    (h : ofJson json = .ok records) :
    ∀ value ∈ records, ∃ members, value = Value.ofJson (.object members) := by
  rcases json with _ | _ | _ | _ | _ | elements | members
  case array => exact exists_object_of_ofElements h
  case object => exact exists_object_of_ofElements h
  all_goals cases h

/-- A text is read as the records of its document. -/
theorem parse_eq_ofJson {text : String} {json : Json} (h : Json.parse? text = some json) :
    parse text = ofJson json := by
  unfold parse jsonOfText
  rw [h]
  rfl

/-- The records of a set that was read are the objects of a document. -/
theorem exists_object_of_parse {text : String} {records : List Value}
    (h : parse text = .ok records) :
    ∀ value ∈ records, ∃ members, value = Value.ofJson (.object members) := by
  obtain ⟨json, -, hjson⟩ := exists_of_bind_eq_ok h
  exact exists_object_of_ofJson hjson

/-- **A record set that was read** consists of records each property of which has a value that fits
its name. -/
theorem asRead_of_parse {text : String} {records : List Value} (h : parse text = .ok records) :
    ∀ value ∈ records, ∃ record : Record, value = record.toValue ∧ record.AsRead := by
  intro value hvalue
  obtain ⟨members, rfl⟩ := exists_object_of_parse h value hvalue
  exact Record.asRead_of_object members

end Records

end RecordQuery
