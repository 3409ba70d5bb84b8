import Mathlib.Data.List.Basic
import Mathlib.Data.List.Perm.Subperm
import RecordQuery.Value.Fingerprint

/-!
# Equal values have equal fingerprints

A set of values compares fingerprints first and values only where these agree. That rules no equal
value out (`Value.fingerprint_eq_of_same`), so a set contains a value exactly if it contains an equal
one (`Value.Seen.contains_eq_any`).

The case with an argument is that of records. A record shows its identifier in its fingerprint, and
equality looks up in the second record what the first one names, not the other way round: that both
name equally many properties is what keeps the second from having an identifier of its own.
-/

namespace RecordQuery

/-! ## Names -/

/-- Duplicates are erased to the last. -/
theorem nodup_eraseDups {α : Type} [DecidableEq α] : ∀ l : List α, l.eraseDups.Nodup
  | [] => by simp
  | a :: rest => by
    rw [List.eraseDups_cons, List.nodup_cons]
    refine ⟨?_, nodup_eraseDups (rest.filter fun b => !b == a)⟩
    simp [List.mem_eraseDups]
termination_by l => l.length
decreasing_by exact Nat.lt_succ_of_le (List.length_filter_le _ _)

namespace Named

variable {α : Type}

/-- The names of a list of entries are those under which something is found. -/
theorem mem_names_iff {name : String} {entries : List (String × α)} :
    name ∈ names entries ↔ (lookup name entries).isSome := by
  rw [names, List.mem_eraseDups, Option.isSome_iff_ne_none, Ne, lookup_eq_none_iff]
  simp

/-- Names are listed once. -/
theorem nodup_names (entries : List (String × α)) : (names entries).Nodup :=
  nodup_eraseDups _

end Named

namespace Value

/-! ## Records -/

/-- Records that are equal have equal values under every name of the first. -/
theorem exists_lookup_of_sameProperties {done : List String} {xs ys : List (String × Value)}
    (h : sameProperties done xs ys = true) {name : String} (hdone : name ∉ done) {x : Value}
    (hx : Named.lookup name xs = some x) :
    ∃ y, Named.lookup name ys = some y ∧ same x y = true := by
  induction xs generalizing done with
  | nil => cases hx
  | cons entry rest ih =>
      obtain ⟨other, value⟩ := entry
      rw [sameProperties, Bool.and_eq_true] at h
      obtain ⟨hfirst, hrest⟩ := h
      by_cases hname : other = name
      · subst hname
        rw [Named.lookup_cons_self] at hx
        obtain rfl := Option.some.inj hx
        have hcontains : done.contains other = false := by simpa using hdone
        rw [hcontains, Bool.false_or] at hfirst
        split at hfirst
        · rename_i y hy
          exact ⟨y, hy, hfirst⟩
        · cases hfirst
      · rw [Named.lookup_cons_of_ne hname] at hx
        refine ih hrest ?_ hx
        simp [hdone, Ne.symm hname]

/-- Records that are equal, and name equally many properties, name the same ones. -/
theorem lookup_isSome_eq_of_sameProperties {xs ys : List (String × Value)}
    (h : sameProperties [] xs ys = true)
    (hlength : (Named.names xs).length = (Named.names ys).length) (name : String) :
    (Named.lookup name xs).isSome = (Named.lookup name ys).isSome := by
  have hsubset : Named.names xs ⊆ Named.names ys := by
    intro other hother
    rw [Named.mem_names_iff, Option.isSome_iff_exists] at hother
    obtain ⟨x, hx⟩ := hother
    obtain ⟨y, hy, -⟩ := exists_lookup_of_sameProperties h List.not_mem_nil hx
    rw [Named.mem_names_iff, hy]
    rfl
  have hperm : (Named.names xs).Perm (Named.names ys) :=
    (List.subperm_of_subset (Named.nodup_names xs) hsubset).perm_of_length_le (Nat.le_of_eq hlength.symm)
  rw [Bool.eq_iff_iff, ← Named.mem_names_iff, ← Named.mem_names_iff]
  exact hperm.mem_iff

/-- A fingerprint of a record shows the identifier, or that there is none. -/
theorem idFingerprint_eq (properties : List (String × Value)) :
    idFingerprint properties =
      match Named.lookup Record.idProperty properties with
      | some value => .flag true :: fingerprint value
      | none => [.flag false] := by
  induction properties with
  | nil => rw [idFingerprint, Named.lookup_nil]
  | cons entry rest ih =>
      obtain ⟨name, value⟩ := entry
      rw [idFingerprint, Named.lookup]
      split
      · rfl
      · exact ih

/-! ## Values -/

/-- Lists that are equal item by item are of one length. -/
theorem length_eq_of_sameItems {xs ys : List Value} (h : sameItems xs ys = true) :
    xs.length = ys.length := by
  induction xs generalizing ys with
  | nil =>
      cases ys with
      | nil => rfl
      | cons y ys => cases h
  | cons x xs ih =>
      cases ys with
      | nil => cases h
      | cons y ys =>
          rw [sameItems, Bool.and_eq_true] at h
          exact congrArg (· + 1) (ih h.2)

mutual

/-- **Equal values have equal fingerprints.** -/
theorem fingerprint_eq_of_same : ∀ {a b : Value}, same a b = true → fingerprint a = fingerprint b
  | .list xs, b, h => by
    cases b
    case list ys =>
      rw [same] at h
      rw [fingerprint, fingerprint, length_eq_of_sameItems h, fingerprints_eq_of_sameItems h]
      rfl
    all_goals cases h
  | .record kind xs, b, h => by
    cases b
    case record kind' ys =>
      simp only [same, Bool.and_eq_true, decide_eq_true_eq] at h
      obtain ⟨⟨rfl, hlength⟩, hsame⟩ := h
      have hid := lookup_isSome_eq_of_sameProperties hsame hlength Record.idProperty
      rw [fingerprint, fingerprint, hlength,
        idFingerprint_eq_of_sameProperties hsame List.not_mem_nil hid]
      rfl
    all_goals cases h
  | .null, b, h | .boolean _, b, h | .integer _, b, h | .string _, b, h | .id _, b, h
  | .version _, b, h | .range _, b, h | .query _, b, h => by
    cases b <;> first
      | rfl
      | (simp only [same, decide_eq_true_eq] at h; rw [h])
      | cases h

/-- Lists that are equal item by item have the same fingerprints. -/
theorem fingerprints_eq_of_sameItems : ∀ {xs ys : List Value}, sameItems xs ys = true →
    fingerprints xs = fingerprints ys
  | [], ys, h => by
    cases ys with
    | nil => rfl
    | cons y ys => cases h
  | x :: xs, ys, h => by
    cases ys with
    | nil => cases h
    | cons y ys =>
        rw [sameItems, Bool.and_eq_true] at h
        rw [fingerprints, fingerprints, fingerprint_eq_of_same h.1,
          fingerprints_eq_of_sameItems h.2]

/-- Records that are equal property by property have identifiers of the same fingerprint: the name
is found in both, with values that are equal. -/
theorem idFingerprint_eq_of_sameProperties : ∀ {done : List String}
    {xs ys : List (String × Value)}, sameProperties done xs ys = true →
    Record.idProperty ∉ done →
    (Named.lookup Record.idProperty xs).isSome = (Named.lookup Record.idProperty ys).isSome →
    idFingerprint xs = idFingerprint ys
  | done, [], ys, h, hdone, hid => by
    rw [Named.lookup_nil, Option.isSome_none, eq_comm, Option.isSome_eq_false_iff,
      Option.isNone_iff_eq_none] at hid
    rw [idFingerprint_eq ys, hid, idFingerprint]
  | done, (name, x) :: rest, ys, h, hdone, hid => by
    by_cases hname : name = Record.idProperty
    · obtain ⟨y, hy, hxy⟩ := exists_lookup_of_sameProperties h hdone
        (by rw [hname]; exact Named.lookup_cons_self Record.idProperty x rest)
      rw [idFingerprint, if_pos hname, idFingerprint_eq ys, hy, fingerprint_eq_of_same hxy]
    · rw [sameProperties, Bool.and_eq_true] at h
      rw [Named.lookup_cons_of_ne hname] at hid
      rw [idFingerprint, if_neg hname]
      refine idFingerprint_eq_of_sameProperties h.2 ?_ hid
      simp [hdone, Ne.symm hname]

end

/-! ## Sets of values -/

namespace Seen

/-- The set holds the values, the latest first, and no others. -/
def Holds (seen : Seen) (values : List Value) : Prop :=
  ∀ value, seen.contains value = values.any (· == value)

/-- The empty set holds no values. -/
theorem holds_empty : empty.Holds [] :=
  fun _ => rfl

/-- **A set contains a value exactly if it contains an equal one**: fingerprints rule out none. -/
theorem Holds.insert {seen : Seen} {values : List Value} (h : seen.Holds values) (value : Value) :
    (seen.insert value).Holds (value :: values) := by
  intro other
  have hfirst : (value.fingerprint == other.fingerprint && value == other) = (value == other) := by
    rcases hsame : value == other with _ | _
    · exact Bool.and_false _
    · rw [fingerprint_eq_of_same hsame]
      simp
  rw [List.any_cons, ← h other, ← hfirst]
  rfl

end Seen

end Value

end RecordQuery
