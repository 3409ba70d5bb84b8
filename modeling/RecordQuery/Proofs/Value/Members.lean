import RecordQuery.Proofs.Json.Members
import RecordQuery.Proofs.Value.Fingerprint
import RecordQuery.Value.Json

/-!
# Records and objects

A record is read from the members of an object by setting its properties one after the other, and
written by putting them in their places among the members. Either way the order does not matter:
what is found under a name depends on what was there under that name, and on the name.

* `Record.property?_setAll`: what is set under different names is stored under each.
* `Record.lookup_ofMembers`, `Record.lookup_toMembers`: which property an object holds, and which
  member a record has.
* `Record.nodup_toMembers`: an object is written with different keys.
* `Value.exists_ofJson_object`: an object whose keys differ is read member by member.
-/

namespace RecordQuery

open Record (kindKey idProperty versionProperty stored)

namespace Record

/-! ## Properties -/

/-- Only texts are stored as something else. -/
theorem stored_of_ne_string (name : String) {value : Value} (h : ∀ s, value ≠ .string s) :
    stored name value = value := by
  cases value
  case string s => exact absurd rfl (h s)
  all_goals rfl

/-- Under any name but two a value is stored as it is. -/
theorem stored_of_ne {name : String} (hid : name ≠ idProperty) (hversion : name ≠ versionProperty)
    (value : Value) : stored name value = value := by
  cases value
  case string s => rw [stored, if_neg hid, if_neg hversion]
  all_goals rfl

/-- Setting properties does not change the kind. -/
theorem kind_setAll (record : Record) (properties : List (String × Value)) :
    (record.setAll properties).kind = record.kind := by
  induction properties generalizing record with
  | nil => rfl
  | cons entry rest ih =>
      rw [setAll, List.foldl_cons]
      exact ih _

/-- Setting properties of different names stores each of them. -/
theorem property?_setAll {properties : List (String × Value)}
    (h : (properties.map Prod.fst).Nodup) (record : Record) (name : String) :
    (record.setAll properties).property? name =
      ((Named.lookup name properties).map (stored name)).or (record.property? name) := by
  induction properties generalizing record with
  | nil => rfl
  | cons entry rest ih =>
      obtain ⟨other, value⟩ := entry
      rw [List.map_cons, List.nodup_cons] at h
      have hset : (record.set other value).property? name =
          if other = name then some (stored other value) else record.property? name :=
        Named.lookup_put other name (stored other value) record.properties
      rw [setAll, List.foldl_cons]
      refine (ih h.2 _).trans ?_
      rw [hset, Named.lookup]
      by_cases hname : other = name
      · subst hname
        have hrest : Named.lookup other rest = none :=
          Named.lookup_eq_none_iff.mpr fun _ hentry heq => h.1 (List.mem_map.mpr ⟨_, hentry, heq⟩)
        rw [hrest, if_pos rfl, if_pos rfl]
        rfl
      · rw [if_neg hname, if_neg hname]

/-! ## Members -/

/-- The members that are read are all but the kind. -/
theorem lookup_ofMembers (name : String) (members : List (String × Json)) :
    Named.lookup name (Value.ofMembers members) =
      if name = kindKey then none else (Named.lookup name members).map Value.ofJson := by
  induction members with
  | nil =>
      rw [Value.ofMembers]
      split <;> rfl
  | cons member rest ih =>
      obtain ⟨key, json⟩ := member
      rw [Value.ofMembers]
      by_cases hkey : key = kindKey
      · subst hkey
        rw [if_pos rfl, ih]
        by_cases hname : name = kindKey
        · rw [if_pos hname, if_pos hname]
        · rw [if_neg hname, if_neg hname, Named.lookup_cons_of_ne (Ne.symm hname)]
      · rw [if_neg hkey, Named.lookup, ih, Named.lookup]
        by_cases hname : key = name
        · subst hname
          rw [if_pos rfl, if_neg hkey, if_pos rfl]
          rfl
        · rw [if_neg hname, if_neg hname]

/-- The names of what is made of members are their keys, without that of the kind. -/
theorem map_fst_ofMembers (members : List (String × Json)) :
    (Value.ofMembers members).map Prod.fst =
      (members.map Prod.fst).filter fun key => !decide (key = kindKey) := by
  induction members with
  | nil =>
      rw [Value.ofMembers]
      rfl
  | cons member rest ih =>
      obtain ⟨key, json⟩ := member
      rw [Value.ofMembers, List.map_cons, List.filter_cons]
      by_cases hkey : key = kindKey
      · simp [hkey, ih]
      · simp [hkey, ih]

/-- The members that are written are the properties, and what was there before. -/
theorem lookup_toMembers (name : String) (members : List (String × Json)) (done : List String)
    (properties : List (String × Value)) :
    Named.lookup name (Value.toMembers members done properties) =
      if name ∈ done then Named.lookup name members
      else ((Named.lookup name properties).map Value.toJson).or (Named.lookup name members) := by
  induction properties generalizing members done with
  | nil =>
      rw [Value.toMembers]
      split <;> rfl
  | cons entry rest ih =>
      obtain ⟨other, value⟩ := entry
      rw [Value.toMembers]
      by_cases hother : other ∈ done
      · rw [if_pos (List.contains_iff_mem.mpr hother), ih]
        by_cases hname : name ∈ done
        · rw [if_pos hname, if_pos hname]
        · have hne : other ≠ name := fun heq => hname (heq ▸ hother)
          rw [if_neg hname, if_neg hname, Named.lookup_cons_of_ne hne]
      · rw [if_neg (by simpa using hother), ih, Json.lookup_insert]
        by_cases heq : other = name
        · subst heq
          rw [if_pos List.mem_cons_self, if_pos rfl, if_neg hother, Named.lookup_cons_self]
          rfl
        · have hmem : name ∈ other :: done ↔ name ∈ done := by
            rw [List.mem_cons, or_iff_right (Ne.symm heq)]
          rw [if_neg heq, Named.lookup_cons_of_ne heq]
          simp only [hmem]

/-- An object is written with different keys, if all keys that were there are the kind or belong to
properties that are done with. -/
theorem nodup_toMembers {members : List (String × Json)} {done : List String}
    {properties : List (String × Value)} (hkind : Named.lookup kindKey properties = none)
    (hnodup : (members.map Prod.fst).Nodup)
    (hmembers : ∀ key ∈ members.map Prod.fst, key = kindKey ∨ key ∈ done) :
    ((Value.toMembers members done properties).map Prod.fst).Nodup := by
  induction properties generalizing members done with
  | nil =>
      rw [Value.toMembers]
      exact hnodup
  | cons entry rest ih =>
      obtain ⟨name, value⟩ := entry
      have hname : name ≠ kindKey := by
        rintro rfl
        rw [Named.lookup_cons_self] at hkind
        cases hkind
      rw [Named.lookup_cons_of_ne hname] at hkind
      rw [Value.toMembers]
      by_cases hdone : name ∈ done
      · rw [if_pos (List.contains_iff_mem.mpr hdone)]
        exact ih hkind hnodup hmembers
      · have hnew : name ∉ members.map Prod.fst := fun hmem =>
          (hmembers name hmem).elim hname hdone
        have hperm := (Json.perm_insert hnew value.toJson).map Prod.fst
        rw [if_neg (by simpa using hdone)]
        refine ih hkind (hperm.nodup_iff.mpr (List.nodup_cons.mpr ⟨hnew, hnodup⟩)) ?_
        intro key hkey
        rcases List.mem_cons.mp (hperm.mem_iff.mp hkey) with rfl | hold
        · exact .inr List.mem_cons_self
        · exact (hmembers key hold).imp_right (List.mem_cons_of_mem _)

end Record

/-! ## Objects that are read -/

/-- An object is read as a record of its kind that has each of the other members as a property,
stored as its name asks. -/
theorem Value.exists_ofJson_object {members : List (String × Json)}
    (hnodup : (members.map Prod.fst).Nodup) :
    ∃ properties, ofJson (.object members) = .record (Record.kindOfMembers members) properties ∧
      ∀ name, Named.lookup name properties =
        if name = kindKey then none
        else (Named.lookup name members).map fun json => stored name (ofJson json) := by
  let empty := Record.ofKind (Record.kindOfMembers members)
  have hread : ((ofMembers members).map Prod.fst).Nodup := by
    rw [Record.map_fst_ofMembers]
    exact hnodup.filter _
  refine ⟨(empty.setAll (ofMembers members)).properties, ?_, fun name => ?_⟩
  · rw [ofJson, Record.toValue, Record.kind_setAll]
    rfl
  · refine (Record.property?_setAll hread empty name).trans ?_
    rw [Record.lookup_ofMembers]
    split
    · rfl
    · cases Named.lookup name members <;> rfl

end RecordQuery
