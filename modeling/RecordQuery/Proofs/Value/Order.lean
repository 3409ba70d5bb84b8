import RecordQuery.Proofs.Value.Equality
import RecordQuery.Proofs.Version.Order

/-!
# The order of values

A text compares with a text by its characters and with a version as the version that it can be read
as. Therefore the order is not transitive as a whole: the text `"9"` comes before the version
10.0.0, which is the same as the text `"10"`, and `"10"` comes before `"9"`.

It is transitive where every text is taken in one way only. Then values compare as keys do that
stand for them (`Value.Key`): a text stands for itself where there are no versions
(`Value.textKey?`), and for a version where it is the only text (`Value.versionKey?`). As one of the
two is the case for any two values, all that is said of two values follows from what holds of keys.

**Main statements**

* `Value.compare?_swap`: it does not matter which value comes first.
* `Value.compare?_trans`: the order is transitive without versions, and with one text at most.
* `Value.compare?_eq_some_eq_iff`: values of one type that compare are equal in the order exactly if
  they are equal.
* `Value.matchesValue_self`, `Value.matchesValue_symm`, `Value.matchesValue_of_same`: the equality of
  the operator `==` is reflexive, symmetric and coarser than that of values.
-/

namespace RecordQuery.Value

/-! ## Keys -/

/-- What decides about the order of a value. -/
inductive Key where
  /-- The number of an integer. -/
  | number (n : Int)
  /-- A truth value. -/
  | flag (b : Bool)
  /-- A text. -/
  | text (s : String)
  /-- A version. -/
  | version (v : Version)

/-- Two comparisons, of a first value with a second and of the second with a third, and what they
say of the first and the third: it does not come behind, and it comes before if one of the two says
so. -/
def Chains (first second : Ordering) (both : Option Ordering) : Prop :=
  ∃ ordering, both = some ordering ∧ ordering.isLE = true ∧
    (first = .lt ∨ second = .lt → ordering = .lt)

/-- Comparisons in a transitive order chain. -/
theorem chains_compare {α : Type} [Ord α] [Std.TransOrd α] {a b c : α}
    (hab : (compare a b).isLE = true) (hbc : (compare b c).isLE = true) :
    Chains (compare a b) (compare b c) (some (compare a c)) := by
  refine ⟨_, rfl, Std.TransCmp.isLE_trans hab hbc, ?_⟩
  rintro (hlt | hlt)
  · exact Std.TransCmp.lt_of_lt_of_isLE hlt hbc
  · exact Std.TransCmp.lt_of_isLE_of_lt hab hlt

namespace Key

/-- Keys compare with those of their sort. -/
def compare? : Key → Key → Option Ordering
  | .number m, .number n => some (compare m n)
  | .flag a, .flag b => some (compare a b)
  | .text s, .text t => some (compare s t)
  | .version v, .version w => some (compare v w)
  | _, _ => none

/-- Keys compare the other way round in the other order. -/
theorem compare?_swap (k l : Key) : l.compare? k = (k.compare? l).map Ordering.swap := by
  rcases k with k | k | k | k <;> rcases l with l | l | l | l
  all_goals first
    | rfl
    | exact congrArg some Std.OrientedOrd.eq_swap

/-- Comparisons of keys chain. -/
theorem compare?_trans {a b c : Key} {first second : Ordering}
    (hab : a.compare? b = some first) (hbc : b.compare? c = some second)
    (hfirst : first.isLE = true) (hsecond : second.isLE = true) :
    Chains first second (a.compare? c) := by
  cases a <;> cases b <;> cases hab <;> cases c <;> cases hbc <;>
    exact chains_compare hfirst hsecond

end Key

/-- How two values compare by keys that stand for them, if there are any. -/
def compareBy (key : Value → Option Key) (a b : Value) : Option Ordering :=
  (key a).bind fun k => (key b).bind k.compare?

/-- Values compare by their keys the other way round in the other order. -/
theorem compareBy_swap (key : Value → Option Key) (a b : Value) :
    compareBy key b a = (compareBy key a b).map Ordering.swap := by
  rw [compareBy, compareBy]
  rcases key a with _ | k <;> rcases key b with _ | l
  case some.some => exact Key.compare?_swap k l
  all_goals rfl

/-- Comparisons by keys chain. -/
theorem compareBy_trans {key : Value → Option Key} {a b c : Value} {first second : Ordering}
    (hab : compareBy key a b = some first) (hbc : compareBy key b c = some second)
    (hfirst : first.isLE = true) (hsecond : second.isLE = true) :
    Chains first second (compareBy key a c) := by
  obtain ⟨k, hk, hab⟩ := Option.bind_eq_some_iff.mp hab
  obtain ⟨l, hl, hab⟩ := Option.bind_eq_some_iff.mp hab
  obtain ⟨l', hl', hbc⟩ := Option.bind_eq_some_iff.mp hbc
  obtain ⟨m, hm, hbc⟩ := Option.bind_eq_some_iff.mp hbc
  obtain rfl : l = l' := Option.some.inj (hl.symm.trans hl')
  rw [compareBy, hk, hm]
  exact Key.compare?_trans hab hbc hfirst hsecond

/-! ## Values by their keys -/

/-- The key of a value among values of which none is a version. -/
def textKey? : Value → Option Key
  | .integer n => some (.number n.toInt)
  | .boolean b => some (.flag b)
  | .string s => some (.text s)
  | .id item => some (.text item.text)
  | _ => none

/-- The key of a value among values of which one at most is a text. -/
def versionKey? : Value → Option Key
  | .integer n => some (.number n.toInt)
  | .boolean b => some (.flag b)
  | .version v => some (.version v)
  | .string s => (Version.parse s).toOption.map .version
  | _ => none

variable {a b c : Value}

/-- Values of which none is a version compare by their keys as texts. -/
theorem compare?_eq_textKey (ha : ∀ v, a ≠ .version v) (hb : ∀ v, b ≠ .version v) :
    a.compare? b = compareBy textKey? a b := by
  rcases a with _ | a | a | a | a | a | a | _ | a | a
  case version => exact absurd rfl (ha a)
  all_goals
    rcases b with _ | b | b | b | b | b | b | _ | b | b
    case version => exact absurd rfl (hb b)
    all_goals rfl

/-- A text compares with what is no text as the version does that it can be read as. -/
theorem compare?_string_eq_versionKey (s : String) (hb : b.text? = none) :
    (string s).compare? b = compareBy versionKey? (string s) b := by
  rcases b with _ | b | b | b | b | b | b | _ | b | b
  case string | id => cases hb
  all_goals
    rcases hs : Version.parse s with e | v
    all_goals simp [compare?, compareBy, versionKey?, Key.compare?, Except.toOption, hs]

/-- What is no text compares with a text as with the version that it can be read as. -/
theorem compare?_eq_versionKey_string (s : String) (ha : a.text? = none) :
    a.compare? (string s) = compareBy versionKey? a (string s) := by
  rcases a with _ | a | a | a | a | a | a | _ | a | a
  case string | id => cases ha
  all_goals
    rcases hs : Version.parse s with e | v
    all_goals simp [compare?, compareBy, versionKey?, Key.compare?, Except.toOption, hs]

/-- Values of which one at least is no text compare by their keys as versions. -/
theorem compare?_eq_versionKey (h : a.text? = none ∨ b.text? = none) :
    a.compare? b = compareBy versionKey? a b := by
  cases a
  case string s =>
    exact compare?_string_eq_versionKey s (h.resolve_left (Option.some_ne_none s))
  all_goals
    cases b
    case string s =>
      exact compare?_eq_versionKey_string s (h.resolve_right (Option.some_ne_none s))
    all_goals first
      | rfl
      | (rcases h with h | h <;> cases h)

/-- Of two values neither is a version, or one is and hence no text. -/
theorem versionless_or_text?_eq_none (a b : Value) :
    ((∀ v, a ≠ .version v) ∧ ∀ v, b ≠ .version v) ∨ a.text? = none ∨ b.text? = none := by
  by_cases ha : ∃ v, a = .version v
  · obtain ⟨v, rfl⟩ := ha
    exact .inr (.inl rfl)
  · by_cases hb : ∃ v, b = .version v
    · obtain ⟨v, rfl⟩ := hb
      exact .inr (.inr rfl)
    · exact .inl ⟨not_exists.mp ha, not_exists.mp hb⟩

/-! ## The order -/

/-- **Either way around**: two values compare the other way around, or neither way. -/
theorem compare?_swap (a b : Value) : b.compare? a = (a.compare? b).map Ordering.swap := by
  rcases versionless_or_text?_eq_none a b with ⟨ha, hb⟩ | h
  · rw [compare?_eq_textKey ha hb, compare?_eq_textKey hb ha, compareBy_swap]
  · rw [compare?_eq_versionKey h, compare?_eq_versionKey h.symm, compareBy_swap]

/-- **The order is transitive** on values of which none is a version, and on values of which one at
most is a text. -/
theorem compare?_trans {first second : Ordering}
    (h : (∀ value ∈ [a, b, c], ∀ v, value ≠ .version v) ∨
      [a, b, c].countP (fun value => value.text?.isSome) ≤ 1)
    (hab : a.compare? b = some first) (hbc : b.compare? c = some second)
    (hfirst : first.isLE = true) (hsecond : second.isLE = true) :
    Chains first second (a.compare? c) := by
  rcases h with h | h
  · simp only [List.forall_mem_cons] at h
    obtain ⟨ha, hb, hc, -⟩ := h
    rw [compare?_eq_textKey ha hb] at hab
    rw [compare?_eq_textKey hb hc] at hbc
    rw [compare?_eq_textKey ha hc]
    exact compareBy_trans hab hbc hfirst hsecond
  · have hone : ∀ x y : Value, List.Sublist [x, y] [a, b, c] → x.text? = none ∨ y.text? = none := by
      intro x y hxy
      have hle := (hxy.countP_le (p := fun value => value.text?.isSome)).trans h
      rw [← Option.not_isSome_iff_eq_none, ← Option.not_isSome_iff_eq_none]
      by_contra hboth
      push Not at hboth
      simp [hboth] at hle
    rw [compare?_eq_versionKey (hone a b (by simp))] at hab
    rw [compare?_eq_versionKey (hone b c (by simp))] at hbc
    rw [compare?_eq_versionKey (hone a c (by simp))]
    exact compareBy_trans hab hbc hfirst hsecond

/-- A text can stand on either side of a version. -/
example : compare? (.string "9") (.version ⟨10, 0, 0, ""⟩) = some .lt ∧
    compare? (.version ⟨10, 0, 0, ""⟩) (.string "10") = some .eq ∧
    compare? (.string "9") (.string "10") = some .gt := by decide

/-! ## Equality in the order -/

/-- **Values of one type** that compare are equal in the order exactly if they are equal. -/
theorem compare?_eq_some_eq_iff {ordering : Ordering} (htype : a.typeName = b.typeName)
    (h : a.compare? b = some ordering) : ordering = .eq ↔ same a b = true := by
  rw [← Option.some_inj, ← h]
  cases a <;> cases b
  case boolean.boolean | version.version | string.string =>
    rw [compare?, same, decide_eq_true_eq, Option.some_inj, Std.compare_eq_iff_eq]
  case integer.integer =>
    rw [compare?, same, decide_eq_true_eq, Option.some_inj, Std.compare_eq_iff_eq, Int64.toInt_inj]
  case id.id item item' =>
    rw [compare?, same, decide_eq_true_eq, Option.some_inj, Std.compare_eq_iff_eq, ItemId.mk.injEq]
  case string.id | id.string => simp [typeName] at htype
  all_goals first
    | cases h
    | simp [typeName] at htype

/-- A text and an identifier are equal in the order exactly if the identifier has that text. -/
theorem compare?_string_id (s : String) (item : ItemId) :
    compare? (.string s) (.id item) = some .eq ↔ s = item.text := by
  rw [compare?, Option.some_inj, Std.compare_eq_iff_eq]

/-- A text and a version are equal in the order exactly if the text can be read as that version. -/
theorem compare?_string_version (s : String) (v : Version) :
    compare? (.string s) (.version v) = some .eq ↔ Version.parse s = .ok v := by
  rw [compare?]
  rcases Version.parse s with e | w
  · simp [Except.toOption]
  · simp [Except.toOption]

/-! ## The equality of the operator -/

/-- Where two values compare, the operator `==` goes by their order. -/
theorem matchesValue_of_compare? {ordering : Ordering} (h : a.compare? b = some ordering) :
    matchesValue a b = decide (ordering = .eq) := by
  rw [matchesValue, h]

/-- Where two values do not compare, the operator `==` goes by their equality. -/
theorem matchesValue_of_not_compare? (h : a.compare? b = none) : matchesValue a b = same a b := by
  rw [matchesValue, h]
  rfl

/-- **On values of one type** the operator `==` is the equality of values. -/
theorem matchesValue_eq_same (htype : a.typeName = b.typeName) : matchesValue a b = same a b := by
  rcases h : a.compare? b with _ | ordering
  · exact matchesValue_of_not_compare? h
  · rw [matchesValue_of_compare? h, Bool.eq_iff_iff, decide_eq_true_eq]
    exact compare?_eq_some_eq_iff htype h

/-- **Every value equals itself** in the operator `==`. -/
theorem matchesValue_self (a : Value) : matchesValue a a = true := by
  rw [matchesValue_eq_same rfl, same_self]

/-- **Equal values are equal in the operator `==`**, which also calls others equal. -/
theorem matchesValue_of_same (h : same a b = true) : matchesValue a b = true := by
  rw [matchesValue_eq_same (typeName_eq_of_same h), h]

/-- **The operator `==` does not depend on which value comes first.** -/
theorem matchesValue_symm (a b : Value) : matchesValue b a = matchesValue a b := by
  have hswap := compare?_swap a b
  rcases h : a.compare? b with _ | ordering
  · rw [h] at hswap
    rw [matchesValue_of_not_compare? hswap, matchesValue_of_not_compare? h, Bool.eq_iff_iff]
    exact ⟨same_symm, same_symm⟩
  · rw [h] at hswap
    rw [matchesValue_of_compare? hswap, matchesValue_of_compare? h]
    cases ordering <;> rfl

end RecordQuery.Value
