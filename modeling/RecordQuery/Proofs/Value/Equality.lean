import Mathlib.Data.List.Perm.Basic
import RecordQuery.Proofs.Value.Fingerprint
import RecordQuery.Value.Equality

/-!
# When values are equal

Equality of records goes through the properties of one and looks each up in the other. Of what is
found it depends on nothing but the first entry of each name, so it can be told from
`Named.lookup` alone.

**Main statements**

* `Value.same_record_iff`: records are equal if they have one kind and every name has equal values
  in both, or none in either, and only then.
* `Value.same_list_iff`: lists are equal if their items are.
* `Value.same_self`, `Value.same_symm` and `Value.same_trans`: equality is reflexive, symmetric and
  transitive, at any depth of lists and records.
-/

namespace RecordQuery

namespace Named

variable {α β : Type}

/-- Lists of named things that hold the same names hold equally many. -/
theorem length_names_eq {xs : List (String × α)} {ys : List (String × β)}
    (h : ∀ name, (lookup name xs).isSome = (lookup name ys).isSome) :
    (names xs).length = (names ys).length := by
  have hperm : (names xs).Perm (names ys) := by
    rw [List.perm_ext_iff_of_nodup (nodup_names xs) (nodup_names ys)]
    intro name
    rw [mem_names_iff, mem_names_iff, h name]
  exact hperm.length_eq

end Named

namespace Value

/-- If every name of the first list has an equal value in the second, then so have those that had no
entry before. By induction over the first list; the entries that are behind another of their name
are not looked at. -/
theorem sameProperties_of_lookup {done : List String} {xs ys : List (String × Value)}
    (h : ∀ name, name ∉ done → ∀ x, Named.lookup name xs = some x →
      ∃ y, Named.lookup name ys = some y ∧ same x y = true) :
    sameProperties done xs ys = true := by
  induction xs generalizing done with
  | nil => rfl
  | cons entry rest ih =>
      obtain ⟨name, value⟩ := entry
      rw [sameProperties, Bool.and_eq_true]
      refine ⟨?_, ih fun other hdone x hx => ?_⟩
      · by_cases hdone : name ∈ done
        · simp [hdone]
        · obtain ⟨y, hy, hsame⟩ := h name hdone value (Named.lookup_cons_self name value rest)
          rw [hy, Bool.or_eq_true]
          exact .inr hsame
      · rw [List.mem_cons, not_or] at hdone
        refine h other hdone.2 x ?_
        rw [Named.lookup_cons_of_ne (Ne.symm hdone.1), hx]

/-- **Records of one kind are equal** if every name has equal values in both, or none in either. -/
theorem same_record_of_lookup {kind : String} {xs ys : List (String × Value)}
    (h : ∀ name, Option.Rel (fun x y => same x y = true) (Named.lookup name xs)
      (Named.lookup name ys)) :
    same (.record kind xs) (.record kind ys) = true := by
  have hlength : (Named.names xs).length = (Named.names ys).length := by
    apply Named.length_names_eq
    intro name
    have hname := h name
    generalize Named.lookup name xs = x, Named.lookup name ys = y at hname ⊢
    cases hname <;> rfl
  have hsame : sameProperties [] xs ys = true := by
    apply sameProperties_of_lookup
    intro name _ x hx
    have hname := h name
    rw [hx] at hname
    generalize Named.lookup name ys = y at hname ⊢
    cases hname with
    | some hxy => exact ⟨_, rfl, hxy⟩
  rw [same, decide_eq_true rfl, hlength, decide_eq_true rfl, hsame]
  rfl

/-- **Records are equal** if they have one kind and every name has equal values in both, or none in
either, and only then. -/
theorem same_record_iff {kind kind' : String} {xs ys : List (String × Value)} :
    same (.record kind xs) (.record kind' ys) = true ↔
      kind = kind' ∧ ∀ name, Option.Rel (fun x y => same x y = true) (Named.lookup name xs)
        (Named.lookup name ys) := by
  constructor
  · intro h
    simp only [same, Bool.and_eq_true, decide_eq_true_eq] at h
    obtain ⟨⟨hkind, hlength⟩, hsame⟩ := h
    refine ⟨hkind, fun name => ?_⟩
    have hsome := lookup_isSome_eq_of_sameProperties hsame hlength name
    rcases hx : Named.lookup name xs with _ | x
    · rw [hx, Option.isSome_none, eq_comm, Option.isSome_eq_false_iff,
        Option.isNone_iff_eq_none] at hsome
      rw [hsome]
      exact .none
    · obtain ⟨y, hy, hxy⟩ := exists_lookup_of_sameProperties hsame List.not_mem_nil hx
      rw [hy]
      exact .some hxy
  · rintro ⟨rfl, h⟩
    exact same_record_of_lookup h

/-- Lists are equal item by item. -/
theorem same_list_iff {xs ys : List Value} :
    same (.list xs) (.list ys) = true ↔ List.Forall₂ (fun x y => same x y = true) xs ys := by
  rw [same]
  induction xs generalizing ys with
  | nil => cases ys <;> simp [sameItems]
  | cons x xs ih => cases ys <;> simp [sameItems, ih]

mutual

/-- **Every value equals itself.** -/
theorem same_self : ∀ value : Value, same value value = true
  | .list items => by
    rw [same]
    exact sameItems_self items
  | .record kind properties => by
    refine same_record_of_lookup fun name => ?_
    rcases hlookup : Named.lookup name properties with _ | value
    · exact .none
    · exact .some (same_self_of_mem properties (Named.mem_of_lookup hlookup))
  | .null => rfl
  | .boolean _ | .integer _ | .string _ | .id _ | .version _ | .range _ | .query _ => by simp [same]

/-- A list is equal to itself, item by item. -/
theorem sameItems_self : ∀ items : List Value, sameItems items items = true
  | [] => rfl
  | item :: rest => by
    rw [sameItems, same_self item, sameItems_self rest]
    rfl

/-- So is the value of every property. -/
theorem same_self_of_mem : ∀ properties : List (String × Value), ∀ {name : String}
    {value : Value}, (name, value) ∈ properties → same value value = true
  | (other, first) :: rest, name, value, h => by
    rcases List.mem_cons.mp h with heq | hmem
    · cases heq
      exact same_self first
    · exact same_self_of_mem rest hmem

end

mutual

/-- **Equality does not depend on which value comes first.** -/
theorem same_symm : ∀ {a b : Value}, same a b = true → same b a = true
  | .list xs, b, h => by
    cases b
    case list ys =>
      rw [same] at h ⊢
      exact sameItems_symm h
    all_goals cases h
  | .record kind xs, b, h => by
    cases b
    case record kind' ys =>
      obtain ⟨rfl, hrel⟩ := same_record_iff.mp h
      refine same_record_iff.mpr ⟨rfl, fun name => ?_⟩
      have hname := hrel name
      generalize hx : Named.lookup name xs = x at hname ⊢
      generalize Named.lookup name ys = y at hname ⊢
      cases hname with
      | none => exact .none
      | some hxy => exact .some (same_symm_of_mem xs (Named.mem_of_lookup hx) hxy)
    all_goals cases h
  | .null, b, h | .boolean _, b, h | .integer _, b, h | .string _, b, h | .id _, b, h
  | .version _, b, h | .range _, b, h | .query _, b, h => by
    cases b <;> first
      | rfl
      | (simp only [same, decide_eq_true_eq] at h ⊢; exact h.symm)
      | cases h

/-- Equality of lists can be turned around. -/
theorem sameItems_symm : ∀ {xs ys : List Value}, sameItems xs ys = true → sameItems ys xs = true
  | [], ys, h => by
    cases ys with
    | nil => rfl
    | cons y ys => cases h
  | x :: xs, ys, h => by
    cases ys with
    | nil => cases h
    | cons y ys =>
        rw [sameItems, Bool.and_eq_true] at h ⊢
        exact ⟨same_symm h.1, sameItems_symm h.2⟩

/-- So can equality with the value of a property. -/
theorem same_symm_of_mem : ∀ properties : List (String × Value), ∀ {name : String} {x y : Value},
    (name, x) ∈ properties → same x y = true → same y x = true
  | (other, first) :: rest, name, x, y, hmem, h => by
    rcases List.mem_cons.mp hmem with heq | hmem
    · cases heq
      exact same_symm h
    · exact same_symm_of_mem rest hmem h

end

mutual

/-- **Values that equal one value are equal.** -/
theorem same_trans : ∀ {a b c : Value}, same a b = true → same b c = true → same a c = true
  | .list xs, b, c, hab, hbc => by
    cases b
    case list ys =>
      cases c
      case list zs =>
        rw [same] at hab hbc ⊢
        exact sameItems_trans hab hbc
      all_goals cases hbc
    all_goals cases hab
  | .record kind xs, b, c, hab, hbc => by
    cases b
    case record kind' ys =>
      cases c
      case record kind'' zs =>
        obtain ⟨rfl, hxy⟩ := same_record_iff.mp hab
        obtain ⟨rfl, hyz⟩ := same_record_iff.mp hbc
        refine same_record_iff.mpr ⟨rfl, fun name => ?_⟩
        have hfirst := hxy name
        have hsecond := hyz name
        generalize hx : Named.lookup name xs = x at hfirst ⊢
        generalize Named.lookup name ys = y at hfirst hsecond
        generalize Named.lookup name zs = z at hsecond ⊢
        cases hfirst with
        | none => exact hsecond
        | some hxy =>
            cases hsecond with
            | some hyz => exact .some (same_trans_of_mem xs (Named.mem_of_lookup hx) hxy hyz)
      all_goals cases hbc
    all_goals cases hab
  | .null, b, c, hab, hbc | .boolean _, b, c, hab, hbc | .integer _, b, c, hab, hbc
  | .string _, b, c, hab, hbc | .id _, b, c, hab, hbc | .version _, b, c, hab, hbc
  | .range _, b, c, hab, hbc | .query _, b, c, hab, hbc => by
    cases b <;> first
      | exact hbc
      | (simp only [same, decide_eq_true_eq] at hab; rw [hab]; exact hbc)
      | cases hab

/-- Equality of lists can be followed from one to the next. -/
theorem sameItems_trans : ∀ {xs ys zs : List Value}, sameItems xs ys = true →
    sameItems ys zs = true → sameItems xs zs = true
  | [], ys, zs, hxy, hyz => by
    cases ys with
    | nil => exact hyz
    | cons y ys => cases hxy
  | x :: xs, ys, zs, hxy, hyz => by
    cases ys with
    | nil => cases hxy
    | cons y ys =>
        cases zs with
        | nil => cases hyz
        | cons z zs =>
            rw [sameItems, Bool.and_eq_true] at hxy hyz ⊢
            exact ⟨same_trans hxy.1 hyz.1, sameItems_trans hxy.2 hyz.2⟩

/-- So can equality with the value of a property. -/
theorem same_trans_of_mem : ∀ properties : List (String × Value), ∀ {name : String}
    {x y z : Value}, (name, x) ∈ properties → same x y = true → same y z = true →
      same x z = true
  | (other, first) :: rest, name, x, y, z, hmem, hxy, hyz => by
    rcases List.mem_cons.mp hmem with heq | hmem
    · cases heq
      exact same_trans hxy hyz
    · exact same_trans_of_mem rest hmem hxy hyz

end

/-- Equality of values is an equivalence. -/
instance : EquivBEq Value where
  rfl := same_self _
  symm := same_symm
  trans := same_trans

/-- Equal values are of one type. -/
theorem typeName_eq_of_same {a b : Value} (h : same a b = true) : a.typeName = b.typeName := by
  have hfingerprint := fingerprint_eq_of_same h
  unfold fingerprint at hfingerprint
  exact Trait.type.inj (List.cons.inj hfingerprint).1

end Value

end RecordQuery
