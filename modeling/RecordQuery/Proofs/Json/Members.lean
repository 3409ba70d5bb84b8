import RecordQuery.Json.Basic
import RecordQuery.Named

/-!
# Members of an object

The members of a JSON object are a list of named things (`Json.member?_eq_lookup`), and putting a
member at its place among them is seen by its key only.

* `Json.lookup_insert`: what is found afterwards.
* `Json.perm_insert`: a member with a new key is added to the others.
-/

namespace RecordQuery.Json

variable {α : Type}

/-- The first member with a key is the first entry of that name. -/
theorem member?_eq_lookup (key : String) (members : List (String × α)) :
    member? key members = Named.lookup key members := by
  induction members with
  | nil => rfl
  | cons member rest ih =>
      obtain ⟨other, value⟩ := member
      unfold member? at ih ⊢
      by_cases h : other = key
      · simp [Named.lookup, h]
      · simp [Named.lookup, h, ih]

/-- A member that was put in is found under its key, and the others are left alone. -/
theorem lookup_insert (key name : String) (value : α) (members : List (String × α)) :
    Named.lookup name (insert key value members) =
      if key = name then some value else Named.lookup name members := by
  induction members with
  | nil => rfl
  | cons member rest ih =>
      obtain ⟨other, old⟩ := member
      rw [insert]
      split
      · rw [Named.lookup]
      · split
        · rename_i hother
          subst hother
          rw [Named.lookup, Named.lookup]
          split <;> rfl
        · rename_i hother
          rw [Named.lookup, ih, Named.lookup]
          by_cases hname : other = name
          · subst hname
            rw [if_pos rfl, if_pos rfl, if_neg hother]
          · rw [if_neg hname, if_neg hname]

/-- A member with a new key is added to the others. -/
theorem perm_insert {key : String} {members : List (String × α)} (h : key ∉ members.map Prod.fst)
    (value : α) : (insert key value members).Perm ((key, value) :: members) := by
  induction members with
  | nil => exact .refl _
  | cons member rest ih =>
      obtain ⟨other, old⟩ := member
      rw [List.map_cons, List.mem_cons, not_or] at h
      rw [insert]
      split
      · exact .refl _
      · rw [if_neg h.1]
        exact ((ih h.2).cons _).trans (.swap _ _ _)

end RecordQuery.Json
