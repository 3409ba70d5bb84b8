import RecordQuery.Value.Record

/-!
# Equality and order of values

Two values are equal when they are of one type and have equal contents. Records are equal when they
have the same kind and give the same names equal values; the order of properties does not matter.

`Value.compare?` is the order of the comparison operators, which is partial and coarser: it crosses
types where one side can be read as the other.
-/

namespace RecordQuery.Value

/-! ## Equality -/

mutual

/-- Whether two values are equal. -/
def same : Value → Value → Bool
  | .null, .null => true
  | .boolean a, .boolean b => a = b
  | .integer a, .integer b => a = b
  | .string a, .string b => a = b
  | .id a, .id b => a = b
  | .version a, .version b => a = b
  | .range a, .range b => a = b
  | .query a, .query b => a = b
  | .list xs, .list ys => sameItems xs ys
  | .record kind xs, .record kind' ys =>
    kind = kind' && (Named.names xs).length = (Named.names ys).length && sameProperties [] xs ys
  | _, _ => false

/-- Whether two lists are equal item by item. -/
def sameItems : List Value → List Value → Bool
  | [], [] => true
  | x :: xs, y :: ys => same x y && sameItems xs ys
  | _, _ => false

/-- Whether the second list of properties gives an equal value to every name of the first. Names in
`done` had their first entry before. -/
def sameProperties (done : List String) : List (String × Value) → List (String × Value) → Bool
  | [], _ => true
  | (name, x) :: rest, ys =>
    (done.contains name ||
      match Named.lookup name ys with
      | some y => same x y
      | none => false) && sameProperties (name :: done) rest ys

end

instance : BEq Value := ⟨same⟩

/-! ## Order -/

/-- How two values compare, where they do. Integers, truth values and versions compare with their
like; a version compares with a text that can be read as a version; texts and identifiers compare
by their characters. -/
def compare? : Value → Value → Option Ordering
  | .integer a, .integer b => some (compare a.toInt b.toInt)
  | .boolean a, .boolean b => some (compare a b)
  | .version a, .version b => some (compare a b)
  | .version a, .string b => (Version.parse b).toOption.map (compare a ·)
  | .string a, .version b => (Version.parse a).toOption.map (compare · b)
  | .string a, .string b => some (compare a b)
  | .string a, .id b => some (compare a b.text)
  | .id a, .string b => some (compare a.text b)
  | .id a, .id b => some (compare a.text b.text)
  | _, _ => none

/-- The equality of the operator `==`: by order where the values compare, else by contents. -/
def matchesValue (a b : Value) : Bool :=
  match compare? a b with
  | some ordering => ordering = .eq
  | none => a == b

end RecordQuery.Value
