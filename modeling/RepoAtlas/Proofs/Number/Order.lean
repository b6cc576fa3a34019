import Mathlib.Algebra.Order.Field.Rat
import Mathlib.Algebra.Order.Field.Power
import Mathlib.Order.WithBot
import Mathlib.Tactic.Ring
import RepoAtlas.Number.Binary64

/-!
The order of floating-point numbers is that of the rationals they stand for,
with the two infinities at its ends.
-/
namespace RepoAtlas.Binary64

/-- The rational that a finite number stands for. -/
def rational (negative : Bool) (significand : ℕ) (exponent : ℤ) : ℚ :=
  (if negative then -(significand : ℚ) else significand) * 2 ^ exponent

/-- The place of a number in the order. What is no number has none, and gets the lowest. -/
def rank : Binary64 → WithBot (WithTop ℚ)
  | nan => ⊥
  | infinite true => ⊥
  | infinite false => ((⊤ : WithTop ℚ) : WithBot (WithTop ℚ))
  | finite s m e => ((rational s m e : WithTop ℚ) : WithBot (WithTop ℚ))

theorem pow_toNat_sub {d least : ℤ} (h : least ≤ d) :
    ((Nat.pow 2 (d - least).toNat : ℕ) : ℚ) * 2 ^ least = 2 ^ d := by
  have hexponent : ((d - least).toNat : ℤ) + least = d := by omega
  rw [Nat.pow_eq, Nat.cast_pow, Nat.cast_ofNat, ← zpow_natCast, ← zpow_add₀ (by norm_num),
    hexponent]

/-- Scaled integers are compared as the rationals they stand for. -/
theorem scaledLt_iff (a d b e : ℤ) :
    scaledLt a d b e = true ↔ (a : ℚ) * 2 ^ d < (b : ℚ) * 2 ^ e := by
  have hleft := pow_toNat_sub (min_le_left d e)
  have hright := pow_toNat_sub (min_le_right d e)
  have hpos : (0 : ℚ) < 2 ^ min d e := zpow_pos (by norm_num) _
  rw [scaledLt, decide_eq_true_iff, ← Int.cast_lt (R := ℚ), ← hleft, ← hright, ← mul_assoc,
    ← mul_assoc, mul_lt_mul_iff_of_pos_right hpos]
  push_cast
  rfl

theorem lt_iff_rank_lt {x y : Binary64} (hx : x ≠ nan) (hy : y ≠ nan) :
    x.lt y = true ↔ x.rank < y.rank := by
  cases x with
  | nan => exact absurd rfl hx
  | infinite s =>
      cases y with
      | nan => exact absurd rfl hy
      | infinite t => cases s <;> cases t <;> simp [lt, rank]
      | finite t n e => cases s <;> simp [lt, rank]
  | finite s m d =>
      cases y with
      | nan => exact absurd rfl hy
      | infinite t =>
          cases t with
          | false => exact iff_of_true rfl (WithBot.coe_lt_coe.mpr (WithTop.coe_lt_top _))
          | true => simp [lt, rank]
      | finite t n e =>
          rw [lt, scaledLt_iff]
          simp only [rank, WithBot.coe_lt_coe, WithTop.coe_lt_coe, rational]
          cases s <;> cases t <;> simp

theorem ne_nan_of_lt {x y : Binary64} (h : x.lt y = true) : x ≠ nan ∧ y ≠ nan := by
  cases x <;> cases y <;> simp_all [lt]

end RepoAtlas.Binary64
