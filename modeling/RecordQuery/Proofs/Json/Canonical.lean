import Mathlib.Data.String.Basic
import RecordQuery.Json.Reader
import RecordQuery.Proofs.Json.Members

/-!
# Canonical documents

An object is a list of members, and lists that differ can stand for the same object. In a canonical
document they do not: every object lists its members in ascending order of key, each key once, so
that it is known from what it holds under each key (`Json.Ascending.eq_of_lookup_eq`).

**Main statement** (`Json.canonical_of_parse?`): every document that is read is canonical. Its
objects come about by `Json.insert` alone, which keeps members in ascending order
(`Json.Ascending.insert`).
-/

namespace RecordQuery.Json

/-! ## Nodes of a document -/

mutual

/-- The document and all values in it, outer ones first. -/
def walk (json : Json) : List Json :=
  json ::
    match json with
    | .array items => walkItems items
    | .object members => walkMembers members
    | _ => []

/-- The values in the elements of an array. -/
def walkItems : List Json → List Json
  | [] => []
  | item :: rest => walk item ++ walkItems rest

/-- The values in the members of an object. -/
def walkMembers : List (String × Json) → List Json
  | [] => []
  | (_, json) :: rest => walk json ++ walkMembers rest

end

/-- Induction on documents, the elements of an array and the members of an object at once. -/
@[elab_as_elim]
theorem inductionOn {motive : Json → Prop} (json : Json) (null : motive .null)
    (boolean : ∀ b, motive (.boolean b)) (integer : ∀ i, motive (.integer i))
    (numeral : ∀ text, motive (.numeral text)) (string : ∀ s, motive (.string s))
    (array : ∀ items, (∀ item ∈ items, motive item) → motive (.array items))
    (object : ∀ members : List (String × Json), (∀ member ∈ members, motive member.2) →
      motive (.object members)) : motive json := by
  refine Json.rec (motive_2 := fun items => ∀ item ∈ items, motive item)
    (motive_3 := fun members => ∀ member ∈ members, motive member.2)
    (motive_4 := fun member => motive member.2) null boolean integer numeral string array object
    ?_ ?_ ?_ ?_ ?_ json
  · exact List.forall_mem_nil _
  · exact fun _ _ hitem hrest => List.forall_mem_cons.mpr ⟨hitem, hrest⟩
  · exact List.forall_mem_nil _
  · exact fun _ _ hmember hrest => List.forall_mem_cons.mpr ⟨hmember, hrest⟩
  · exact fun _ _ hjson => hjson

section walk

variable {p : Json → Prop}

/-- A property holds of all values in the elements exactly if it holds of those in each of them. -/
theorem forall_mem_walkItems {items : List Json} :
    (∀ node ∈ walkItems items, p node) ↔ ∀ item ∈ items, ∀ node ∈ item.walk, p node := by
  induction items with
  | nil => simp [walkItems]
  | cons item rest ih => rw [walkItems, List.forall_mem_append, ih, List.forall_mem_cons]

/-- A property holds of all values in the members exactly if it holds of those in each of them. -/
theorem forall_mem_walkMembers {members : List (String × Json)} :
    (∀ node ∈ walkMembers members, p node) ↔
      ∀ member ∈ members, ∀ node ∈ member.2.walk, p node := by
  induction members with
  | nil => simp [walkMembers]
  | cons member rest ih => rw [walkMembers, List.forall_mem_append, ih, List.forall_mem_cons]

/-- The values in an array are the array and those in its elements. -/
theorem forall_mem_walk_array {items : List Json} :
    (∀ node ∈ (array items).walk, p node) ↔
      p (array items) ∧ ∀ item ∈ items, ∀ node ∈ item.walk, p node := by
  rw [walk, List.forall_mem_cons, forall_mem_walkItems]

/-- The values in an object are the object and those in its members. -/
theorem forall_mem_walk_object {members : List (String × Json)} :
    (∀ node ∈ (object members).walk, p node) ↔
      p (object members) ∧ ∀ member ∈ members, ∀ node ∈ member.2.walk, p node := by
  rw [walk, List.forall_mem_cons, forall_mem_walkMembers]

end walk

/-! ## Members in ascending order -/

/-- The members stand in ascending order of key, each key once. -/
def Ascending {α : Type} (members : List (String × α)) : Prop :=
  members.Pairwise fun member other => member.1 < other.1

section Ascending

variable {α : Type} {members : List (String × α)}

instance : Decidable (Ascending members) :=
  inferInstanceAs (Decidable (members.Pairwise fun member other => member.1 < other.1))

/-- Keys that ascend do not recur. -/
theorem Ascending.nodup_keys (h : Ascending members) : (members.map Prod.fst).Nodup :=
  List.pairwise_map.mpr (h.imp fun hlt => ne_of_lt hlt)

/-- The members after a member was put in are that one and those that were there. -/
theorem mem_insert {key : String} {value : α} {member : String × α}
    (h : member ∈ insert key value members) : member = (key, value) ∨ member ∈ members := by
  induction members with
  | nil => exact .inl (List.mem_singleton.mp h)
  | cons first rest ih =>
      obtain ⟨other, old⟩ := first
      rw [insert] at h
      split at h
      · exact List.mem_cons.mp h
      · split at h
        · exact (List.mem_cons.mp h).imp_right (List.mem_cons_of_mem _)
        · rcases List.mem_cons.mp h with rfl | hmem
          · exact .inr List.mem_cons_self
          · exact (ih hmem).imp_right (List.mem_cons_of_mem _)

/-- Putting a member at its place keeps the order. -/
theorem Ascending.insert (h : Ascending members) (key : String) (value : α) :
    Ascending (insert key value members) := by
  induction members with
  | nil => exact List.pairwise_singleton _ _
  | cons first rest ih =>
      obtain ⟨other, old⟩ := first
      obtain ⟨hfirst, hrest⟩ := List.pairwise_cons.mp h
      rw [Json.insert]
      split
      · rename_i hlt
        refine List.pairwise_cons.mpr ⟨?_, h⟩
        rw [List.forall_mem_cons]
        exact ⟨hlt, fun member hmem => hlt.trans (hfirst member hmem)⟩
      · rename_i hle
        split
        · rename_i heq
          subst heq
          exact List.pairwise_cons.mpr ⟨hfirst, hrest⟩
        · rename_i hne
          refine List.pairwise_cons.mpr ⟨fun member hmem => ?_, ih hrest⟩
          rcases mem_insert hmem with rfl | hmem
          · exact lt_of_le_of_ne (not_lt.mp hle) (Ne.symm hne)
          · exact hfirst member hmem

/-- Nothing is found under a key that is smaller than all others. -/
theorem lookup_eq_none_of_lt {key : String} (h : ∀ member ∈ members, key < member.1) :
    Named.lookup key members = none :=
  Named.lookup_eq_none_iff.mpr fun member hmem => ne_of_gt (h member hmem)

/-- Below the first key nothing is found. -/
theorem Ascending.lookup_eq_none_of_lt {key other : String} {value : α}
    (h : Ascending ((other, value) :: members)) (hlt : key < other) :
    Named.lookup key ((other, value) :: members) = none := by
  apply Json.lookup_eq_none_of_lt
  rw [List.forall_mem_cons]
  exact ⟨hlt, fun member hmem => hlt.trans (List.rel_of_pairwise_cons h hmem)⟩

/-- **Members in ascending order are known by what they hold under each key.** By induction on both:
the smaller of two different first keys would be missing on the other side. -/
theorem Ascending.eq_of_lookup_eq {others : List (String × α)} (h : Ascending members)
    (hothers : Ascending others)
    (hlookup : ∀ key, Named.lookup key members = Named.lookup key others) : members = others := by
  induction members generalizing others with
  | nil =>
      rcases others with _ | ⟨⟨key, value⟩, rest⟩
      · rfl
      · have hkey := hlookup key
        rw [Named.lookup_cons_self] at hkey
        cases hkey
  | cons first rest ih =>
      obtain ⟨key, value⟩ := first
      have hkey := hlookup key
      rw [Named.lookup_cons_self] at hkey
      rcases others with _ | ⟨⟨key', value'⟩, rest'⟩
      · cases hkey
      · have hkey' := hlookup key'
        rw [Named.lookup_cons_self] at hkey'
        rcases lt_trichotomy key key' with hlt | rfl | hlt
        · rw [hothers.lookup_eq_none_of_lt hlt] at hkey
          cases hkey
        · rw [Named.lookup_cons_self] at hkey
          obtain rfl : value = value' := Option.some.inj hkey
          obtain ⟨hfirst, hrest⟩ := List.pairwise_cons.mp h
          obtain ⟨hfirst', hrest'⟩ := List.pairwise_cons.mp hothers
          have htail : ∀ other, Named.lookup other rest = Named.lookup other rest' := by
            intro other
            by_cases hother : key = other
            · subst hother
              rw [Json.lookup_eq_none_of_lt hfirst, Json.lookup_eq_none_of_lt hfirst']
            · have hboth := hlookup other
              rwa [Named.lookup_cons_of_ne hother, Named.lookup_cons_of_ne hother] at hboth
          rw [ih hrest hrest' htail]
        · rw [h.lookup_eq_none_of_lt hlt] at hkey'
          cases hkey'

/-- Sorting puts members in ascending order, and adds none. -/
theorem ascending_sorted (members : List (String × α)) :
    Ascending (sorted members) ∧ ∀ member ∈ sorted members, member ∈ members := by
  have hfrom : ∀ (rest done : List (String × α)), Ascending done →
      Ascending (rest.foldl (fun done member => Json.insert member.1 member.2 done) done) ∧
        ∀ member ∈ rest.foldl (fun done member => Json.insert member.1 member.2 done) done,
          member ∈ done ∨ member ∈ rest := by
    intro rest
    induction rest with
    | nil => exact fun done hdone => ⟨hdone, fun member hmem => .inl hmem⟩
    | cons first rest ih =>
        intro done hdone
        obtain ⟨hascending, hmem⟩ := ih _ (hdone.insert first.1 first.2)
        refine ⟨hascending, fun member hmember => ?_⟩
        rcases hmem member hmember with hin | hrest
        · rcases mem_insert hin with rfl | hin
          · exact .inr List.mem_cons_self
          · exact .inl hin
        · exact .inr (List.mem_cons_of_mem _ hrest)
  obtain ⟨hascending, hmem⟩ := hfrom members [] List.Pairwise.nil
  exact ⟨hascending, fun member hmember => (hmem member hmember).resolve_left List.not_mem_nil⟩

end Ascending

/-! ## Canonical documents -/

/-- An object has its members in ascending order. Nothing is asked of other values. -/
def IsOrdered : Json → Prop
  | .object members => Ascending members
  | _ => True

/-- In a canonical document every object lists its members in ascending order of key. -/
def Canonical (json : Json) : Prop :=
  ∀ node ∈ json.walk, node.IsOrdered

instance : DecidablePred IsOrdered
  | .object members => inferInstanceAs (Decidable (Ascending members))
  | .null | .boolean _ | .integer _ | .numeral _ | .string _ | .array _ => .isTrue trivial

instance : DecidablePred Canonical := fun json =>
  inferInstanceAs (Decidable (∀ node ∈ json.walk, node.IsOrdered))

/-- An array is canonical exactly if its elements are. -/
theorem canonical_array {items : List Json} :
    (array items).Canonical ↔ ∀ item ∈ items, item.Canonical := by
  refine forall_mem_walk_array.trans ?_
  exact and_iff_right trivial

/-- An object is canonical exactly if its keys ascend and its members are canonical. -/
theorem canonical_object {members : List (String × Json)} :
    (object members).Canonical ↔ Ascending members ∧ ∀ member ∈ members, member.2.Canonical :=
  forall_mem_walk_object

/-! ## Documents that were read -/

/-- A number has a value of its own, which is no array and no object. -/
theorem canonical_of_value? {literal : NumberLiteral} {json : Json}
    (h : literal.value? = some json) : json.Canonical := by
  have hdouble : ∀ {json}, literal.double? = some json → json.Canonical := by
    intro json h
    obtain ⟨x, -, hx⟩ := Option.bind_eq_some_iff.mp h
    cases hx
    exact List.forall_mem_singleton.mpr trivial
  unfold NumberLiteral.value? at h
  split at h
  · exact hdouble h
  · split at h
    · exact hdouble h
    · split at h
      · cases h
        exact List.forall_mem_singleton.mpr trivial
      · split at h
        · cases h
          exact List.forall_mem_singleton.mpr trivial
        · exact hdouble h

mutual

/-- What a draft settles to is canonical, by recursion on the draft: objects come about by
insertion. -/
theorem canonical_of_settle? : ∀ {depth : Nat} {draft : Draft} {json : Json},
    settle? depth draft = some json → json.Canonical
  | _, .null, _, h | _, .boolean _, _, h => by
    rw [settle?] at h
    cases h
    exact List.forall_mem_singleton.mpr trivial
  | _, .number literal, _, h => by
    rw [settle?] at h
    exact canonical_of_value? h
  | _, .string glyphs, _, h => by
    rw [settle?] at h
    obtain ⟨s, -, rfl⟩ := Option.map_eq_some_iff.mp h
    exact List.forall_mem_singleton.mpr trivial
  | 0, .array _, _, h | 0, .object _, _, h => by
    rw [settle?] at h
    cases h
  | depth + 1, .array items, _, h => by
    rw [settle?] at h
    obtain ⟨items, hitems, rfl⟩ := Option.map_eq_some_iff.mp h
    exact canonical_array.mpr (canonical_of_settleItems? hitems)
  | depth + 1, .object members, _, h => by
    rw [settle?] at h
    obtain ⟨members, hmembers, rfl⟩ := Option.map_eq_some_iff.mp h
    obtain ⟨hascending, hmem⟩ := ascending_sorted members
    refine canonical_object.mpr ⟨hascending, fun member hmember => ?_⟩
    exact canonical_of_settleMembers? hmembers member (hmem member hmember)

/-- So is every element of an array. -/
theorem canonical_of_settleItems? : ∀ {depth : Nat} {drafts : List Draft} {items : List Json},
    settleItems? depth drafts = some items → ∀ item ∈ items, item.Canonical
  | _, [], _, h => by
    rw [settleItems?] at h
    cases h
    exact List.forall_mem_nil _
  | _, draft :: rest, _, h => by
    rw [settleItems?] at h
    obtain ⟨item, hitem, h⟩ := Option.bind_eq_some_iff.mp h
    obtain ⟨items, hitems, h⟩ := Option.bind_eq_some_iff.mp h
    cases h
    exact List.forall_mem_cons.mpr ⟨canonical_of_settle? hitem, canonical_of_settleItems? hitems⟩

/-- So is the value of every member of an object. -/
theorem canonical_of_settleMembers? : ∀ {depth : Nat} {drafts : List (List Glyph × Draft)}
    {members : List (String × Json)}, settleMembers? depth drafts = some members →
      ∀ member ∈ members, member.2.Canonical
  | _, [], _, h => by
    rw [settleMembers?] at h
    cases h
    exact List.forall_mem_nil _
  | _, (key, draft) :: rest, _, h => by
    rw [settleMembers?] at h
    obtain ⟨key, -, h⟩ := Option.bind_eq_some_iff.mp h
    obtain ⟨json, hjson, h⟩ := Option.bind_eq_some_iff.mp h
    obtain ⟨members, hmembers, h⟩ := Option.bind_eq_some_iff.mp h
    cases h
    exact List.forall_mem_cons.mpr
      ⟨canonical_of_settle? hjson, canonical_of_settleMembers? hmembers⟩

end

/-- **A document that is read is canonical**, whatever the order of its members in the text. -/
theorem canonical_of_parse? {text : String} {json : Json} (h : parse? text = some json) :
    json.Canonical := by
  obtain ⟨draft, -, hdraft⟩ := Option.bind_eq_some_iff.mp h
  exact canonical_of_settle? hdraft

end RecordQuery.Json
