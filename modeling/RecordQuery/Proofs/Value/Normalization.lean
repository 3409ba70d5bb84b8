import RecordQuery.Proofs.Json.Canonical
import RecordQuery.Proofs.Json.Equality
import RecordQuery.Proofs.Value.Members

/-!
# Documents that are read and written again

A document that is read as a value and written again is not always the one it was. `Json.normalized`
says what it has become: a number that is no integer of sixty-four bits is its text, an object whose
kind is no string is a `record`, and what can be read as a version under `version` is shown as the
version is. A document has none of this to undergo exactly when it is settled (`Json.Settled`).

* `Value.toJson_stored_ofJson`: what becomes of one member.
* `Json.normalized_eq_self_iff`: which documents are their own normal form.
* **Main statement** (`Value.toJson_ofJson_eq_normalized`): writing undoes reading up to the normal
  form, so exactly the settled documents come back as they were.
-/

namespace RecordQuery

open Record (kindKey idProperty versionProperty stored)

namespace Json

/-! ## The normal form -/

/-- The text of a string, and that of a number as it is written. -/
def written? : Json → Option String
  | .numeral text => some text
  | .string s => some s
  | _ => none

/-- The version under a key. Only `version` has one, and only if it is a text that can be read. -/
def versionUnder? (key : String) (json : Json) : Option Version :=
  if key = versionProperty then json.written?.bind fun s => (Version.parse s).toOption else none

/-- What a member shows: its version, if it has one, and otherwise what has become of its value. -/
def shown (key : String) (json outcome : Json) : Json :=
  (json.versionUnder? key).elim outcome fun v => .string v.text

/-- The kind among the members of an object, if it is a string. -/
def kind? (members : List (String × Json)) : Option String :=
  match member? kindKey members with
  | some (.string kind) => some kind
  | _ => none

mutual

/-- What a document becomes when it is read and written again. -/
def normalized : Json → Json
  | .null => .null
  | .boolean b => .boolean b
  | .integer i => .integer i
  | .numeral text => .string text
  | .string s => .string s
  | .array items => .array (normalizedItems items)
  | .object members =>
    .object (insert kindKey (.string ((kind? members).getD "record")) (normalizedMembers members))

/-- What the elements of an array become. -/
def normalizedItems : List Json → List Json
  | [] => []
  | item :: rest => item.normalized :: normalizedItems rest

/-- What the members of an object become, each by itself. -/
def normalizedMembers : List (String × Json) → List (String × Json)
  | [] => []
  | (key, json) :: rest => (key, shown key json json.normalized) :: normalizedMembers rest

end

/-- Each element of an array is normalized by itself. -/
theorem normalizedItems_eq_map (items : List Json) :
    normalizedItems items = items.map normalized := by
  induction items with
  | nil => rfl
  | cons item rest ih => rw [normalizedItems, ih, List.map_cons]

/-- Each member of an object is normalized by itself. -/
theorem normalizedMembers_eq_map (members : List (String × Json)) :
    normalizedMembers members =
      members.map fun member => (member.1, shown member.1 member.2 member.2.normalized) := by
  induction members with
  | nil => rfl
  | cons member rest ih => rw [normalizedMembers, ih, List.map_cons]

/-- The members of a normal form stand in ascending order, as those of the object did. -/
theorem Ascending.insert_normalizedMembers {members : List (String × Json)} (h : Ascending members)
    (kind : Json) : Ascending (Json.insert kindKey kind (normalizedMembers members)) := by
  refine Ascending.insert ?_ kindKey kind
  rw [normalizedMembers_eq_map]
  exact List.pairwise_map.mpr h

/-- What is found in a normalized object: the kind, or what the member under the key shows. -/
theorem lookup_insert_normalizedMembers (kind : Json) (key : String)
    (members : List (String × Json)) :
    Named.lookup key (Json.insert kindKey kind (normalizedMembers members)) =
      if kindKey = key then some kind
      else (Named.lookup key members).map fun json => shown key json json.normalized := by
  rw [lookup_insert, normalizedMembers_eq_map,
    Named.lookup_map fun key json => shown key json json.normalized]

/-! ## Settled documents -/

/-- A value that the normal form leaves alone, whatever becomes of the values in it: no number but
an integer of sixty-four bits, and no object without a kind, or with a text under `version` that a
version is not shown as. -/
def IsPlain : Json → Prop
  | .numeral _ => False
  | .object members =>
    (∃ kind, member? kindKey members = some (.string kind)) ∧
      ∀ s v, member? versionProperty members = some (.string s) → Version.parse s = .ok v →
        v.text = s
  | _ => True

/-- All values in a settled document are left alone. -/
def Settled (json : Json) : Prop :=
  ∀ node ∈ json.walk, node.IsPlain

/-- An array is settled exactly if its elements are. -/
theorem settled_array {items : List Json} :
    (array items).Settled ↔ ∀ item ∈ items, item.Settled := by
  refine forall_mem_walk_array.trans ?_
  exact and_iff_right trivial

/-- An object is settled exactly if it is plain and the values of its members are settled. -/
theorem settled_object {members : List (String × Json)} :
    (object members).Settled ↔
      (object members).IsPlain ∧ ∀ member ∈ members, member.2.Settled :=
  forall_mem_walk_object

/-- A string is settled. -/
theorem settled_string (s : String) : (string s).Settled :=
  List.forall_mem_singleton.mpr trivial

/-- A version under a key is that of a text that can be read, under `version`. -/
theorem versionUnder?_eq_some_iff {key : String} {json : Json} {v : Version} :
    json.versionUnder? key = some v ↔
      key = versionProperty ∧ ∃ s, json.written? = some s ∧ Version.parse s = .ok v := by
  rw [versionUnder?, Option.ite_none_right_eq_some, Option.bind_eq_some_iff]
  refine and_congr_right fun _ => exists_congr fun s => and_congr_right fun _ => ?_
  cases Version.parse s with
  | error e => exact iff_of_false (fun h => by cases h) (fun h => by cases h)
  | ok v' =>
      rw [Except.ok.injEq]
      exact Option.some_inj

/-- A member is left alone if its value is, unless that is shown as a version. -/
theorem shown_normalized_eq_self_iff {key : String} {json : Json} :
    shown key json json.normalized = json ↔
      json.normalized = json ∧
        (key = versionProperty →
          ∀ s v, json = .string s → Version.parse s = .ok v → v.text = s) := by
  rw [shown]
  cases hversion : json.versionUnder? key with
  | none =>
      refine (and_iff_left ?_).symm
      rintro rfl s v rfl hparse
      have hsome : (string s).versionUnder? versionProperty = some v :=
        versionUnder?_eq_some_iff.mpr ⟨rfl, s, rfl, hparse⟩
      rw [hversion] at hsome
      cases hsome
  | some v =>
      obtain ⟨rfl, s, hwritten, hparse⟩ := versionUnder?_eq_some_iff.mp hversion
      rw [Option.elim_some]
      cases json
      case numeral text =>
        rw [normalized]
        exact iff_of_false (fun h => by cases h) (fun h => by cases h.1)
      case string s' =>
        cases hwritten
        rw [string.injEq]
        constructor
        · intro htext
          refine ⟨by rw [normalized], fun _ s' v' hs hv => ?_⟩
          cases hs
          rw [hparse] at hv
          cases hv
          exact htext
        · exact fun h => h.2 rfl s v rfl hparse
      all_goals cases hwritten

/-- An object is left alone if it names the kind that it gets and each other member is left
alone. -/
theorem insert_normalizedMembers_eq_iff {members : List (String × Json)} (h : Ascending members)
    (kind : Json) :
    Json.insert kindKey kind (normalizedMembers members) = members ↔
      Named.lookup kindKey members = some kind ∧
        ∀ key json, kindKey ≠ key → Named.lookup key members = some json →
          shown key json json.normalized = json := by
  have hlookup := fun key => lookup_insert_normalizedMembers kind key members
  constructor
  · intro heq
    rw [heq] at hlookup
    refine ⟨(hlookup kindKey).trans (if_pos rfl), fun key json hkey hjson => ?_⟩
    have hsame := hlookup key
    rw [if_neg hkey, hjson] at hsame
    exact (Option.some.inj hsame).symm
  · rintro ⟨hkind, hshown⟩
    refine (h.insert_normalizedMembers kind).eq_of_lookup_eq h fun key => ?_
    rw [hlookup]
    by_cases hkey : kindKey = key
    · subst hkey
      rw [if_pos rfl, hkind]
    · rw [if_neg hkey]
      cases hjson : Named.lookup key members with
      | none => rfl
      | some json => exact congrArg some (hshown key json hkey hjson)

/-- **The settled documents are the ones that the normal form leaves alone.** By induction on the
document. -/
theorem normalized_eq_self_iff {json : Json} (h : json.Canonical) :
    json.normalized = json ↔ json.Settled := by
  induction json using inductionOn with
  | null | boolean | integer | string =>
      rw [normalized]
      exact iff_of_true rfl (List.forall_mem_singleton.mpr trivial)
  | numeral text =>
      rw [normalized]
      exact iff_of_false (fun h => by cases h) (fun h => h _ List.mem_cons_self)
  | array items ih =>
      rw [canonical_array] at h
      have hitems : items.map normalized = items ↔ ∀ item ∈ items, item.normalized = item := by
        simpa using List.map_inj_left (l := items) (f := normalized) (g := id)
      rw [normalized, array.injEq, normalizedItems_eq_map, settled_array, hitems]
      exact forall₂_congr fun item hmem => ih item hmem (h item hmem)
  | object members ih =>
      obtain ⟨hascending, hmembers⟩ := canonical_object.mp h
      rw [normalized, object.injEq, insert_normalizedMembers_eq_iff hascending, settled_object,
        IsPlain, kind?]
      simp only [member?_eq_lookup]
      constructor
      · rintro ⟨hkind, hshown⟩
        refine ⟨⟨⟨_, hkind⟩, fun s v hs hparse => ?_⟩, fun member hmem => ?_⟩
        · have hversion := hshown versionProperty _ (by decide) hs
          exact (shown_normalized_eq_self_iff.mp hversion).2 rfl s v rfl hparse
        · have hmember := Named.lookup_of_mem hascending.nodup_keys hmem
          by_cases hkey : kindKey = member.1
          · rw [← hkey, hkind] at hmember
            rw [← Option.some.inj hmember]
            exact settled_string _
          · have hsame := (shown_normalized_eq_self_iff.mp (hshown _ _ hkey hmember)).1
            exact (ih member hmem (hmembers member hmem)).mp hsame
      · rintro ⟨⟨⟨kind, hkind⟩, hversion⟩, hsettled⟩
        refine ⟨by rw [hkind, Option.getD_some], fun key json hkey hjson => ?_⟩
        have hmem := Named.mem_of_lookup hjson
        refine shown_normalized_eq_self_iff.mpr ⟨?_, ?_⟩
        · exact (ih _ hmem (hmembers _ hmem)).mpr (hsettled _ hmem)
        · rintro rfl s v rfl hparse
          exact hversion s v hjson hparse

end Json

/-! ## One member -/

namespace Value

/-- What is written as a text is read as that text. -/
theorem ofJson_of_written? {json : Json} {s : String} (h : json.written? = some s) :
    ofJson json = .string s := by
  cases json
  case numeral text =>
    cases h
    rw [ofJson]
  case string s' =>
    cases h
    rw [ofJson]
  all_goals cases h

/-- What is not written as a text is not read as one. -/
theorem ofJson_ne_string {json : Json} (h : json.written? = none) (s : String) :
    ofJson json ≠ .string s := by
  cases json
  case numeral => cases h
  case string => cases h
  all_goals
    rw [ofJson]
    intro heq
    cases heq

/-- A member is written as the version that it is read as, if it is one, and otherwise as its value
is elsewhere: an identifier is written as its text. -/
theorem toJson_stored_ofJson (name : String) (json : Json) :
    (stored name (ofJson json)).toJson = Json.shown name json (ofJson json).toJson := by
  cases htext : json.written? with
  | none =>
      rw [Record.stored_of_ne_string name (ofJson_ne_string htext), Json.shown, Json.versionUnder?,
        htext]
      split <;> rfl
  | some s =>
      rw [ofJson_of_written? htext, Json.shown, Json.versionUnder?, htext, stored]
      by_cases hid : name = idProperty
      · subst hid
        rw [if_pos rfl, if_neg (by decide), toJson, Option.elim_none, toJson]
      · rw [if_neg hid]
        by_cases hversion : name = versionProperty
        · rw [if_pos hversion, if_pos hversion, Option.bind_some]
          cases Version.parse s with
          | error e => rfl
          | ok v =>
              rw [toJson]
              rfl
        · rw [if_neg hversion, if_neg hversion, Option.elim_none]

/-! ## Whole documents -/

/-- The members that an object is written with stand in ascending order. -/
theorem ascending_toMembers {members : List (String × Json)} (h : Json.Ascending members)
    (done : List String) (properties : List (String × Value)) :
    Json.Ascending (toMembers members done properties) := by
  induction properties generalizing members done with
  | nil =>
      rw [toMembers]
      exact h
  | cons entry rest ih =>
      obtain ⟨name, value⟩ := entry
      rw [toMembers]
      split
      · exact ih h done
      · exact ih (h.insert name value.toJson) (name :: done)

/-- Each element of an array is read by itself. -/
theorem ofItems_eq_map (items : List Json) : ofItems items = items.map ofJson := by
  induction items with
  | nil => rfl
  | cons item rest ih => rw [ofItems, ih, List.map_cons]

/-- Each item of a list is written by itself. -/
theorem toItems_eq_map (items : List Value) : toItems items = items.map toJson := by
  induction items with
  | nil => rfl
  | cons item rest ih => rw [toItems, ih, List.map_cons]

/-- The kind of what is read is the one among the members, or `record`. -/
theorem kindOfMembers_eq (members : List (String × Json)) :
    Record.kindOfMembers members = (Json.kind? members).getD "record" := by
  rw [Record.kindOfMembers, Json.kind?]
  rcases Json.member? kindKey members with _ | json
  · rfl
  · cases json <;> rfl

/-- **Writing undoes reading up to the normal form.** By induction on the document; the members of
an object are compared under each key. -/
theorem toJson_ofJson {json : Json} (h : json.Canonical) :
    (ofJson json).toJson = json.normalized := by
  induction json using Json.inductionOn with
  | null | boolean | integer | numeral | string => rw [ofJson, toJson, Json.normalized]
  | array items ih =>
      rw [Json.canonical_array] at h
      rw [ofJson, toJson, Json.normalized, ofItems_eq_map, toItems_eq_map, List.map_map,
        Json.normalizedItems_eq_map]
      exact congrArg Json.array (List.map_congr_left fun item hmem => ih item hmem (h item hmem))
  | object members ih =>
      obtain ⟨hascending, hmembers⟩ := Json.canonical_object.mp h
      obtain ⟨properties, hread, hlookup⟩ := exists_ofJson_object hascending.nodup_keys
      rw [hread, kindOfMembers_eq, toJson, Json.normalized]
      refine congrArg Json.object (Json.Ascending.eq_of_lookup_eq
        (ascending_toMembers (List.pairwise_singleton _ _) [] properties)
        (hascending.insert_normalizedMembers _) fun name => ?_)
      rw [Record.lookup_toMembers, if_neg List.not_mem_nil, hlookup,
        Json.lookup_insert_normalizedMembers]
      by_cases hkind : kindKey = name
      · rw [if_pos hkind.symm, if_pos hkind, hkind]
        exact Named.lookup_cons_self _ _ _
      · rw [if_neg (Ne.symm hkind), if_neg hkind, Named.lookup_cons_of_ne hkind, Named.lookup_nil,
          Option.or_none, Option.map_map]
        refine Option.map_congr fun json hjson => ?_
        have hmem := Named.mem_of_lookup hjson
        rw [Function.comp_apply, toJson_stored_ofJson, ih _ hmem (hmembers _ hmem)]

/-- **A document that is read and written again is its normal form**, at any depth, and so it is
what it was exactly if it is settled. This holds of every canonical document, and every document
that is read from a text is canonical. -/
theorem toJson_ofJson_eq_normalized :
    (∀ json : Json, json.Canonical →
        (ofJson json).toJson = json.normalized ∧ ((ofJson json).toJson = json ↔ json.Settled)) ∧
      ∀ (text : String) (json : Json), Json.parse? text = some json → json.Canonical := by
  refine ⟨fun json h => ?_, fun _ _ => Json.canonical_of_parse?⟩
  rw [toJson_ofJson h]
  exact ⟨rfl, Json.normalized_eq_self_iff h⟩

/-- At any depth a kind that is a number is lost and a missing one is added, a fraction under
`version` is shown as a version, and an integer that is too large becomes a text. The members of a
document that is read need not be in order. -/
theorem toJson_ofJson_eq_normalized_nested :
    let json : Json := .object [("kind", .integer 7), ("parts", .array
      [.object [("kind", .string "unit"), ("version", .string "01.2")],
        .object [("size", .numeral "9223372036854775808"), ("version", .string "one")]]),
      ("version", .numeral "1.5")]
    let written : Json := .object [("kind", .string "record"), ("parts", .array
      [.object [("kind", .string "unit"), ("version", .string "1.2.0")],
        .object [("kind", .string "record"), ("size", .string "9223372036854775808"),
          ("version", .string "one")]]),
      ("version", .string "1.5.0")]
    let text := "\x7b\"b\":[],\"a\":\"unit\"\x7d"
    let document : Json := .object [("a", .string "unit"), ("b", .array [])]
    json.Canonical ∧ (ofJson json).toJson = written ∧ ¬ json.Settled ∧
      Json.parse? text = some document ∧ document.Canonical := by
  intro json written text document
  have hcanonical : json.Canonical := by decide
  have hnormalized : json.normalized = written := by decide +kernel
  have hparse : Json.parse? text = some document := by decide +kernel
  obtain ⟨hwritten, hsettled⟩ := toJson_ofJson_eq_normalized.1 json hcanonical
  rw [hwritten, hnormalized] at hsettled
  have hne : written ≠ json := by simp [json, written]
  exact ⟨hcanonical, hwritten.trans hnormalized, hsettled.not.mp hne, hparse,
    toJson_ofJson_eq_normalized.2 text document hparse⟩

end Value

end RecordQuery
