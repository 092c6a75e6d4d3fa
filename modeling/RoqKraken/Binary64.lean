import Mathlib

/-!
# Order facts about IEEE doubles

`Float` is the IEEE `binary64` type with a logical model, but comes with no
lemmas about its order.  `UnpackedFloat.rank` places every double that is a
number in one linear order (NaN has no place in it), and `Float.le_iff_rank` and
`Float.beq_iff_rank` read the comparison operators off it.  The order facts below
are then facts of that linear order.
-/

namespace Float.Model.UnpackedFloat

/-- Position in the IEEE order: class of the value, then exponent, then
mantissa; both zeros share one position and NaN has none. -/
def rank : UnpackedFloat → Option (ℤ ×ₗ ℤ ×ₗ ℤ)
  | .notANumber => none
  | .infinity .negative => some (toLex (-2, toLex (0, 0)))
  | .finite .negative m e _ => some (toLex (-1, toLex (-e, -(m : ℤ))))
  | .zero _ => some (toLex (0, toLex (0, 0)))
  | .finite .positive m e _ => some (toLex (1, toLex (e, (m : ℤ))))
  | .infinity .positive => some (toLex (2, toLex (0, 0)))

/-- Exponents decide before mantissas do. -/
theorem compare_then_isLE (e e' : ℤ) (m m' : ℕ) :
    ((compare e e').then (compare m m')).isLE = true ↔ e < e' ∨ e = e' ∧ m ≤ m' := by
  rcases lt_trichotomy e e' with h | rfl | h
  · simp [compare_lt_iff_lt.mpr h, h]
  · simp [Nat.isLE_compare]
  · simp [compare_gt_iff_gt.mpr h, h.ne', not_lt.mpr h.le]

theorem compare_then_isGE (e e' : ℤ) (m m' : ℕ) :
    ((compare e e').then (compare m m')).isGE = true ↔ e' < e ∨ e = e' ∧ m' ≤ m := by
  rcases lt_trichotomy e e' with h | rfl | h
  · simp [compare_lt_iff_lt.mpr h, h.ne, not_lt.mpr h.le]
  · simp [Nat.isGE_compare]
  · simp [compare_gt_iff_gt.mpr h, h]

theorem le_iff_rank (a b : UnpackedFloat) :
    a.le b = true ↔ ∃ x ∈ a.rank, ∃ y ∈ b.rank, x ≤ y := by
  rcases a with (_ | _) | _ | _ | ⟨_ | _, m, e, hm⟩ <;>
    rcases b with (_ | _) | _ | _ | ⟨_ | _, m', e', hm'⟩ <;>
    simp [rank, UnpackedFloat.le, UnpackedFloat.compare, Prod.Lex.le_iff, compare_then_isLE,
      compare_then_isGE] <;> rfl

theorem beq_iff_rank (a b : UnpackedFloat) :
    a.beq b = true ↔ ∃ x ∈ a.rank, x ∈ b.rank := by
  rcases a with (_ | _) | _ | _ | ⟨_ | _, m, e, hm⟩ <;>
    rcases b with (_ | _) | _ | _ | ⟨_ | _, m', e', hm'⟩ <;>
    simp [rank, UnpackedFloat.beq, UnpackedFloat.compare] <;>
    first | rfl | omega

end Float.Model.UnpackedFloat

namespace Float

/-- Position of a double in the IEEE order. -/
def rank (a : Float) : Option (ℤ ×ₗ ℤ ×ₗ ℤ) := a.toModel.unpack.rank

theorem le_iff_rank (a b : Float) : a ≤ b ↔ ∃ x ∈ a.rank, ∃ y ∈ b.rank, x ≤ y := by
  have unfolded : a ≤ b ↔ a.toModel.unpack.le b.toModel.unpack = true := by
    change decide (a.toModel ≤ b.toModel) = true ↔ _
    rw [decide_eq_true_iff]
    rfl
  rw [unfolded]
  exact Model.UnpackedFloat.le_iff_rank _ _

theorem beq_iff_rank (a b : Float) : (a == b) = true ↔ ∃ x ∈ a.rank, x ∈ b.rank :=
  Model.UnpackedFloat.beq_iff_rank _ _

/-! ## Comparisons of numbers -/

variable {a b c : Float}

theorem le_of_beq (eq : (a == b) = true) : a ≤ b := by
  obtain ⟨x, left, right⟩ := (beq_iff_rank a b).mp eq
  exact (le_iff_rank a b).mpr ⟨x, left, x, right, le_rfl⟩

theorem le_trans (left : a ≤ b) (right : b ≤ c) : a ≤ c := by
  obtain ⟨x, ax, y, bx, xy⟩ := (le_iff_rank a b).mp left
  obtain ⟨y', bx', z, cz, yz⟩ := (le_iff_rank b c).mp right
  cases Option.mem_unique bx bx'
  exact (le_iff_rank a c).mpr ⟨x, ax, z, cz, xy.trans yz⟩

end Float
