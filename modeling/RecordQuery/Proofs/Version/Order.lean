import Mathlib.Data.List.Lex
import Mathlib.Data.Prod.Lex
import RecordQuery.Proofs.Text.Bytes
import RecordQuery.Version.Basic

/-!
# The order of versions

A version has a rank, made of its three numbers and the bytes of its qualifier. Ranks are ordered
lexicographically, which makes them a linear order, and comparing versions is comparing their ranks
(`Version.compare_eq_lt_iff`). Versions that compare as equal are the same version.
-/

namespace RecordQuery.Version

/-- What decides about the order of versions, the first difference counting: three numbers, then
bytes. -/
abbrev Rank := Nat ×ₗ Nat ×ₗ Nat ×ₗ List Nat

/-- The rank of a version. -/
def rank (v : Version) : Rank :=
  toLex (v.major.toNat, toLex (v.minor.toNat, toLex (v.micro.toNat, Text.bytes v.qualifier)))

/-- Versions of the same rank are the same. -/
theorem rank_inj {v w : Version} : v.rank = w.rank ↔ v = w := by
  refine ⟨fun h => ?_, congrArg rank⟩
  obtain ⟨major, minor, micro, qualifier⟩ := v
  obtain ⟨major', minor', micro', qualifier'⟩ := w
  simp only [rank, EmbeddingLike.apply_eq_iff_eq, Prod.mk.injEq, UInt32.toNat_inj,
    Text.bytes_inj] at h
  obtain ⟨rfl, rfl, rfl, rfl⟩ := h
  rfl

/-- The order is an order of versions, and not only of what it looks at. -/
instance : Std.LawfulEqOrd Version where
  eq_of_compare {v w} h := by
    rw [compare_def, Ordering.then_eq_eq, Ordering.then_eq_eq, Ordering.then_eq_eq] at h
    obtain ⟨hmajor, hminor, hmicro, hqualifier⟩ := h
    obtain ⟨major, minor, micro, qualifier⟩ := v
    obtain rfl := Std.LawfulEqOrd.eq_of_compare hmajor
    obtain rfl := Std.LawfulEqOrd.eq_of_compare hminor
    obtain rfl := Std.LawfulEqOrd.eq_of_compare hmicro
    obtain rfl := Std.LawfulEqOrd.eq_of_compare hqualifier
    rfl

/-- Numbers of thirty-two bits compare as natural numbers do. -/
theorem compare_number_eq_lt_iff {m n : UInt32} : compare m n = .lt ↔ m.toNat < n.toNat := by
  rw [← UInt32.lt_iff_toNat_lt]
  exact Std.compare_eq_lt

/-- They are equal if the natural numbers are. -/
theorem compare_number_eq_eq_iff {m n : UInt32} : compare m n = .eq ↔ m.toNat = n.toNat := by
  rw [UInt32.toNat_inj]
  exact Std.compare_eq_iff_eq

/-- Qualifiers compare as their bytes do. -/
theorem compare_qualifier_eq_lt_iff {s t : String} :
    compare s t = .lt ↔ Text.bytes s < Text.bytes t := by
  rw [Text.bytes_lt_bytes]
  exact compareOfLessAndEq_eq_lt

/-- **Versions compare as their ranks do.** -/
theorem compare_eq_lt_iff {v w : Version} : compare v w = .lt ↔ v.rank < w.rank := by
  unfold rank
  rw [compare_def, Prod.Lex.toLex_lt_toLex, Prod.Lex.toLex_lt_toLex, Prod.Lex.toLex_lt_toLex,
    Ordering.then_eq_lt, Ordering.then_eq_lt, Ordering.then_eq_lt, compare_number_eq_lt_iff,
    compare_number_eq_lt_iff, compare_number_eq_lt_iff, compare_number_eq_eq_iff,
    compare_number_eq_eq_iff, compare_number_eq_eq_iff, compare_qualifier_eq_lt_iff]

/-- A version comes behind another one exactly if its rank does. -/
theorem compare_eq_gt_iff {v w : Version} : compare v w = .gt ↔ w.rank < v.rank := by
  rw [Std.OrientedCmp.gt_iff_lt, compare_eq_lt_iff]

end RecordQuery.Version
