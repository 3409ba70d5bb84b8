import RecordQuery.Json.Basic

/-!
# Equality of JSON values

Whether two JSON values are the same is decidable, so that what a text is read as can be computed
and compared. Numbers that are no integers are compared as they are written, and members of objects
in their order: canonical documents that differ are different objects.
-/

namespace RecordQuery.Json

mutual

/-- Whether two values are the same. -/
def same : Json → Json → Bool
  | .null, .null => true
  | .boolean a, .boolean b => a = b
  | .integer a, .integer b => a = b
  | .numeral a, .numeral b => a = b
  | .string a, .string b => a = b
  | .array as, .array bs => sameItems as bs
  | .object as, .object bs => sameMembers as bs
  | _, _ => false

/-- Whether two arrays have the same items. -/
def sameItems : List Json → List Json → Bool
  | [], [] => true
  | a :: as, b :: bs => same a b && sameItems as bs
  | _, _ => false

/-- Whether two objects list the same members. -/
def sameMembers : List (String × Json) → List (String × Json) → Bool
  | [], [] => true
  | (key, a) :: as, (key', b) :: bs => key = key' && same a b && sameMembers as bs
  | _, _ => false

end

mutual

/-- Values are the same exactly if they are equal. -/
theorem same_iff_eq : ∀ a b : Json, same a b = true ↔ a = b
  | .array as, b => by
      cases b <;> simp [same, sameItems_iff_eq as]
  | .object as, b => by
      cases b <;> simp [same, sameMembers_iff_eq as]
  | .null, b | .boolean _, b | .integer _, b | .numeral _, b | .string _, b => by
      cases b <;> simp [same]

/-- Arrays have the same items exactly if they are equal. -/
theorem sameItems_iff_eq : ∀ as bs : List Json, sameItems as bs = true ↔ as = bs
  | [], bs => by cases bs <;> simp [sameItems]
  | a :: as, bs => by
      cases bs <;> simp [sameItems, same_iff_eq a, sameItems_iff_eq as]

/-- Objects list the same members exactly if they are equal. -/
theorem sameMembers_iff_eq :
    ∀ as bs : List (String × Json), sameMembers as bs = true ↔ as = bs
  | [], bs => by cases bs <;> simp [sameMembers]
  | (key, a) :: as, bs => by
      cases bs <;> simp [sameMembers, same_iff_eq a, sameMembers_iff_eq as, Prod.ext_iff]

end

instance : DecidableEq Json := fun a b =>
  decidable_of_iff (same a b = true) (same_iff_eq a b)

end RecordQuery.Json
