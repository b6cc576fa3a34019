import Mathlib.Algebra.Order.Field.Power
import Mathlib.Data.Nat.Log
import Mathlib.Data.Rat.Cast.Order
import Mathlib.Tactic.FieldSimp
import Mathlib.Tactic.Linarith
import Mathlib.Tactic.NormNum
import Mathlib.Tactic.Positivity
import Mathlib.Tactic.Ring
import RepoAtlas.Number.Binary64

/-!
Rounding a quotient to the nearest floating-point number: which quotients go to
which number.
-/
namespace RepoAtlas.Binary64

/-- Whether `k` is the natural number nearest to `x`, the even one of two. -/
structure NearestEven (x : ℚ) (k : ℕ) : Prop where
  below : (k : ℚ) - 1 / 2 ≤ x
  above : x ≤ k + 1 / 2
  odd_below : k % 2 = 1 → (k : ℚ) - 1 / 2 < x
  odd_above : k % 2 = 1 → x < k + 1 / 2

namespace NearestEven

theorem le {x : ℚ} {j k : ℕ} (hj : NearestEven x j) (hk : NearestEven x k) : j ≤ k := by
  by_contra hlt
  have hgap : (k : ℚ) + 1 ≤ j := by exact_mod_cast Nat.lt_of_not_le hlt
  have hnext : (j : ℚ) ≤ (k + 1 : ℕ) := by
    push_cast
    linarith [hj.below, hk.above]
  have hadjacent : j = k + 1 := by
    have : j ≤ k + 1 := by exact_mod_cast hnext
    omega
  -- `x` lies halfway between the two, and one of them is odd
  subst hadjacent
  push_cast at hj hgap
  rcases Nat.mod_two_eq_zero_or_one k with heven | hodd
  · have := hj.odd_below (by omega)
    push_cast at this
    linarith [hk.above]
  · have := hk.odd_above hodd
    have := hj.below
    push_cast at this
    linarith

theorem unique {x : ℚ} {j k : ℕ} (hj : NearestEven x j) (hk : NearestEven x k) : j = k :=
  le_antisymm (hj.le hk) (hk.le hj)

theorem of_up {q : ℕ} {f : ℚ} (hhalf : 1 / 2 ≤ f) (hone : f < 1)
    (htie : f = 1 / 2 → q % 2 = 1) : NearestEven (q + f) (q + 1) := by
  refine ⟨?_, ?_, fun hodd => ?_, fun hodd => ?_⟩
  · push_cast
    linarith
  · push_cast
    linarith
  · have hstrict : 1 / 2 < f := lt_of_le_of_ne hhalf fun heq => by
      have := htie heq.symm
      omega
    push_cast
    linarith
  · push_cast
    linarith

theorem of_down {q : ℕ} {f : ℚ} (hnonneg : 0 ≤ f) (hhalf : f ≤ 1 / 2)
    (htie : f = 1 / 2 → q % 2 = 0) : NearestEven (q + f) q := by
  refine ⟨by linarith, by linarith, fun hodd => by linarith, fun hodd => ?_⟩
  have hstrict : f < 1 / 2 := lt_of_le_of_ne hhalf fun heq => by
    have := htie heq
    omega
  linarith

end NearestEven

theorem nearestEven_roundDiv (num : ℕ) {den : ℕ} (hden : 0 < den) :
    NearestEven ((num : ℚ) / den) (roundDiv num den) := by
  have hdenq : (0 : ℚ) < den := by exact_mod_cast hden
  have hnum : (num : ℚ) = den * (num / den : ℕ) + (num % den : ℕ) := by
    exact_mod_cast (Nat.div_add_mod num den).symm
  have hmod : ((num % den : ℕ) : ℚ) < den := by exact_mod_cast Nat.mod_lt num hden
  have hquotient : (num : ℚ) / den = (num / den : ℕ) + (num % den : ℕ) / den := by
    rw [hnum]
    field_simp
  rw [hquotient, roundDiv]
  generalize num / den = q at *
  generalize num % den = r at *
  have htwice : (r / den : ℚ) = 1 / 2 → 2 * r = den := by
    intro heq
    rw [div_eq_iff hdenq.ne'] at heq
    have : (2 * r : ℚ) = den := by linarith
    exact_mod_cast this
  split
  · next hup =>
      have hhalf : den < 2 * r ∨ 2 * r = den ∧ q % 2 = 1 := by simpa using hup
      have hle : (den : ℚ) ≤ 2 * r := by
        have : den ≤ 2 * r := by omega
        exact_mod_cast this
      refine .of_up ?_ ((div_lt_one hdenq).mpr hmod) fun heq => ?_
      · rw [le_div_iff₀ hdenq]
        linarith
      · have := htwice heq
        omega
  · next hdown =>
      have hhalf : ¬(den < 2 * r ∨ 2 * r = den ∧ q % 2 = 1) := by simpa using hdown
      have hle : (2 * r : ℚ) ≤ den := by
        have : 2 * r ≤ den := by omega
        exact_mod_cast this
      refine .of_down (by positivity) ?_ fun heq => ?_
      · rw [div_le_iff₀ hdenq]
        linarith
      · have := htwice heq
        omega

/-- Dividing by a power of two, whichever side of the quotient it goes to. -/
theorem nearestEven_scaledDiv (num : ℕ) {den : ℕ} (hden : 0 < den) (e : ℤ) :
    NearestEven ((num : ℚ) / den / 2 ^ e) (scaledDiv num den e) := by
  rw [scaledDiv]
  split
  · next hneg =>
      obtain ⟨n, rfl⟩ : ∃ n : ℕ, e = -n := ⟨(-e).toNat, by omega⟩
      have heq : (num : ℚ) / den / 2 ^ (-n : ℤ) = ((num * Nat.pow 2 n : ℕ) : ℚ) / den := by
        rw [zpow_neg, zpow_natCast, Nat.cast_mul, Nat.pow_eq, Nat.cast_pow]
        field_simp
        norm_cast
      rw [heq, Int.neg_neg, Int.toNat_natCast]
      exact nearestEven_roundDiv _ hden
  · next hnonneg =>
      obtain ⟨n, rfl⟩ : ∃ n : ℕ, e = n := ⟨e.toNat, by omega⟩
      have heq : (num : ℚ) / den / 2 ^ (n : ℤ) = (num : ℚ) / (den * Nat.pow 2 n : ℕ) := by
        rw [zpow_natCast, Nat.cast_mul, Nat.pow_eq, Nat.cast_pow, div_div]
        norm_cast
      rw [heq, Int.toNat_natCast]
      exact nearestEven_roundDiv _ (Nat.mul_pos hden (Nat.pow_pos (by decide)))

theorem scaledDiv_eq {num den k : ℕ} {e : ℤ} (hden : 0 < den)
    (h : NearestEven ((num : ℚ) / den / 2 ^ e) k) : scaledDiv num den e = k :=
  (nearestEven_scaledDiv num hden e).unique h

/-- A significand and an exponent that a floating-point number can have. -/
structure Representable (m : ℕ) (e : ℤ) : Prop where
  fits : m < 2 ^ 53
  least : minExponent ≤ e
  greatest : e ≤ maxExponent
  tight : e = minExponent ∨ 2 ^ 52 ≤ m

instance (m : ℕ) (e : ℤ) : Decidable (Representable m e) :=
  decidable_of_iff
    (m < 2 ^ 53 ∧ minExponent ≤ e ∧ e ≤ maxExponent ∧ (e = minExponent ∨ 2 ^ 52 ≤ m))
    ⟨fun h => ⟨h.1, h.2.1, h.2.2.1, h.2.2.2⟩, fun h => ⟨h.fits, h.least, h.greatest, h.tight⟩⟩

/-- Whether a number is one of the format: its significand is as long as it can be. -/
def Valid : Binary64 → Prop
  | finite _ m e => Representable m e
  | _ => True

instance : DecidablePred Valid
  | finite _ m e => inferInstanceAs (Decidable (Representable m e))
  | nan => isTrue trivial
  | infinite _ => isTrue trivial

theorem Valid.ite {p : Prop} [Decidable p] {x y : Binary64} (hx : x.Valid) (hy : y.Valid) :
    (if p then x else y).Valid := by
  split
  · exact hx
  · exact hy

theorem representable_zero : Representable 0 minExponent :=
  ⟨by decide, le_refl _, by decide, Or.inl rfl⟩

/--
The exponent at which a number is rounded: the least one where its significand
fits.
-/
structure RoundsAt (x : ℚ) (e : ℤ) : Prop where
  least : minExponent ≤ e
  fits : x < 2 ^ (53 + e)
  tight : e = minExponent ∨ 2 ^ (52 + e) ≤ x

namespace RoundsAt

theorem le {x : ℚ} {d e : ℤ} (hd : RoundsAt x d) (he : RoundsAt x e) : d ≤ e := by
  rcases hd.tight with rfl | htight
  · exact he.least
  · have hlt : (2 : ℚ) ^ (52 + d) < 2 ^ (53 + e) := lt_of_le_of_lt htight he.fits
    have := (zpow_lt_zpow_iff_right₀ (by norm_num : (1 : ℚ) < 2)).mp hlt
    omega

theorem unique {x : ℚ} {d e : ℤ} (hd : RoundsAt x d) (he : RoundsAt x e) : d = e :=
  le_antisymm (hd.le he) (he.le hd)

end RoundsAt

/-- A quotient lies within a factor of two of the power that its lengths give. -/
theorem quotient_bounds {num den : ℕ} (hnum : num ≠ 0) (hden : den ≠ 0) :
    (2 : ℚ) ^ ((num.log2 : ℤ) - den.log2 - 1) < num / den ∧
      (num : ℚ) / den < 2 ^ ((num.log2 : ℤ) - den.log2 + 1) := by
  have hdenq : (0 : ℚ) < den := by exact_mod_cast Nat.pos_of_ne_zero hden
  have hnumLow : (2 : ℚ) ^ num.log2 ≤ num := by exact_mod_cast Nat.log2_self_le hnum
  have hnumHigh : (num : ℚ) < 2 ^ (num.log2 + 1) := by exact_mod_cast Nat.lt_log2_self
  have hdenLow : (2 : ℚ) ^ den.log2 ≤ den := by exact_mod_cast Nat.log2_self_le hden
  have hdenHigh : (den : ℚ) < 2 ^ (den.log2 + 1) := by exact_mod_cast Nat.lt_log2_self
  have hsub : (2 : ℚ) ^ ((num.log2 : ℤ) - den.log2 - 1) * 2 ^ (den.log2 + 1) =
      2 ^ num.log2 := by
    rw [← zpow_natCast, ← zpow_natCast, ← zpow_add₀ (by norm_num)]
    congr 1
    push_cast
    ring
  have hadd : (2 : ℚ) ^ ((num.log2 : ℤ) - den.log2 + 1) * 2 ^ den.log2 =
      2 ^ (num.log2 + 1) := by
    rw [← zpow_natCast, ← zpow_natCast, ← zpow_add₀ (by norm_num)]
    congr 1
    push_cast
    ring
  constructor
  · rw [lt_div_iff₀ hdenq]
    calc (2 : ℚ) ^ ((num.log2 : ℤ) - den.log2 - 1) * den
        < 2 ^ ((num.log2 : ℤ) - den.log2 - 1) * 2 ^ (den.log2 + 1) := by gcongr
      _ = 2 ^ num.log2 := hsub
      _ ≤ num := hnumLow
  · rw [div_lt_iff₀ hdenq]
    calc (num : ℚ) < 2 ^ (num.log2 + 1) := hnumHigh
      _ = 2 ^ ((num.log2 : ℤ) - den.log2 + 1) * 2 ^ den.log2 := hadd.symm
      _ ≤ 2 ^ ((num.log2 : ℤ) - den.log2 + 1) * den := by gcongr

/-- Comparing a quotient with a power of two by multiplying out. -/
theorem tooLow_iff {num den : ℕ} (hden : den ≠ 0) (low : ℤ) :
    (if low < 0 then Nat.pow 2 53 * den ≤ num * Nat.pow 2 (-low).toNat
      else Nat.pow 2 53 * (den * Nat.pow 2 low.toNat) ≤ num) ↔
      (2 : ℚ) ^ (53 + low) ≤ num / den := by
  have hdenq : (0 : ℚ) < den := by exact_mod_cast Nat.pos_of_ne_zero hden
  rw [le_div_iff₀ hdenq, zpow_add₀ (by norm_num)]
  split
  · next hneg =>
      obtain ⟨n, rfl⟩ : ∃ n : ℕ, low = -n := ⟨(-low).toNat, by omega⟩
      have hpow : (0 : ℚ) < 2 ^ n := by positivity
      rw [Int.neg_neg, Int.toNat_natCast, zpow_neg, zpow_natCast, ← div_eq_mul_inv,
        div_mul_eq_mul_div, div_le_iff₀ hpow]
      exact_mod_cast Iff.rfl
  · next hnonneg =>
      obtain ⟨n, rfl⟩ : ∃ n : ℕ, low = n := ⟨low.toNat, by omega⟩
      rw [Int.toNat_natCast, zpow_natCast, mul_assoc, mul_comm ((2 : ℚ) ^ n)]
      exact_mod_cast Iff.rfl

/-- A quotient is rounded once, at the exponent of its size. -/
theorem ofRatio_eq (negative : Bool) {num den : ℕ} (hnum : num ≠ 0) (hden : den ≠ 0) :
    ∃ e, RoundsAt ((num : ℚ) / den) e ∧
      ofRatio negative num den = normalized negative (scaledDiv num den e) e := by
  obtain ⟨hlow, hhigh⟩ := quotient_bounds hnum hden
  generalize hgap : (num.log2 : ℤ) - den.log2 = gap at hlow hhigh
  have hone : (1 : ℚ) < 2 := by norm_num
  have hdef : ofRatio negative num den =
      let e := if (2 : ℚ) ^ (53 + max minExponent (gap - 53)) ≤ num / den
        then max minExponent (gap - 53) + 1 else max minExponent (gap - 53)
      normalized negative (scaledDiv num den e) e := by
    rw [ofRatio]
    simp only [beq_iff_eq, hnum, if_false, hgap, ← tooLow_iff hden]
  rw [hdef]
  refine ⟨_, ?_, rfl⟩
  split
  · next htoo =>
      refine ⟨by omega, ?_, Or.inr ?_⟩
      · refine lt_of_lt_of_le hhigh ((zpow_le_zpow_iff_right₀ hone).mpr ?_)
        omega
      · convert htoo using 2
        ring
  · next hfits =>
      refine ⟨by omega, not_le.mp hfits, ?_⟩
      rcases le_total (gap - 53) minExponent with hle | hle
      · exact Or.inl (max_eq_left hle)
      · refine Or.inr (le_trans ?_ hlow.le)
        rw [max_eq_right hle]
        exact (zpow_le_zpow_iff_right₀ hone).mpr (by omega)

theorem valid_normalized {negative : Bool} {m : ℕ} {e : ℤ} (hfits : m ≤ 2 ^ 53)
    (hleast : minExponent ≤ e) (htight : e = minExponent ∨ 2 ^ 52 ≤ m) :
    (normalized negative m e).Valid := by
  rw [normalized]
  by_cases hcarry : m = Nat.pow 2 53
  · simp only [hcarry, beq_self_eq_true, if_true]
    split
    · trivial
    · next hmax => exact ⟨by decide, by omega, not_lt.mp hmax, Or.inr (by decide)⟩
  · simp only [beq_iff_eq, hcarry, if_false]
    split
    · trivial
    · next hmax =>
        have hlt : m < 2 ^ 53 := lt_of_le_of_ne hfits hcarry
        exact ⟨hlt, hleast, not_lt.mp hmax, htight⟩

/-- Rounding gives a number of the format. -/
theorem valid_ofRatio (negative : Bool) (num : ℕ) {den : ℕ} (hden : den ≠ 0) :
    (ofRatio negative num den).Valid := by
  by_cases hnum : num = 0
  · simp only [ofRatio, hnum, beq_self_eq_true, if_true]
    exact representable_zero
  obtain ⟨e, hround, heq⟩ := ofRatio_eq negative hnum hden
  rw [heq]
  have hnear := nearestEven_scaledDiv num (Nat.pos_of_ne_zero hden) e
  generalize scaledDiv num den e = m at hnear
  have hpow : (0 : ℚ) < 2 ^ e := by positivity
  apply valid_normalized
  · have hfits := hround.fits
    rw [zpow_add₀ (by norm_num), ← div_lt_iff₀ hpow, zpow_ofNat] at hfits
    have hlt : (m : ℚ) < 2 ^ 53 + 1 := by linarith [hnear.below]
    have : m < 2 ^ 53 + 1 := by exact_mod_cast hlt
    omega
  · exact hround.least
  · refine hround.tight.imp_right fun htight => ?_
    rw [zpow_add₀ (by norm_num), ← le_div_iff₀ hpow, zpow_ofNat] at htight
    have hlt : (2 ^ 52 : ℚ) < m + 1 := by linarith [hnear.above]
    have : 2 ^ 52 < m + 1 := by exact_mod_cast hlt
    omega

theorem valid_ofScaled (negative : Bool) (num : ℕ) (e : ℤ) :
    (ofScaled negative num e).Valid := by
  rw [ofScaled]
  split
  · exact valid_ofRatio negative num (Nat.pow_pos (by decide)).ne'
  · exact valid_ofRatio negative _ one_ne_zero

theorem valid_ofInt (i : ℤ) : (ofInt i).Valid :=
  valid_ofRatio _ _ one_ne_zero

/-- A sum is a number of the format, whatever is added. -/
theorem valid_add (x y : Binary64) : (add x y).Valid := by
  unfold add
  split
  · trivial
  · trivial
  · split <;> trivial
  · trivial
  · trivial
  · exact Valid.ite representable_zero (valid_ofScaled _ _ _)

theorem normalized_eq_finite {negative : Bool} {m : ℕ} {e : ℤ} (hrep : Representable m e) :
    normalized negative m e = finite negative m e := by
  have hcarry : m ≠ Nat.pow 2 53 := hrep.fits.ne
  simp [normalized, hcarry, not_lt.mpr hrep.greatest]

theorem normalized_carry {negative : Bool} {e : ℤ} (hmax : e ≤ maxExponent) :
    normalized negative (2 ^ 53) (e - 1) = finite negative (2 ^ 52) e := by
  have hcarry : (2 ^ 53 == Nat.pow 2 53) = true := by decide
  rw [normalized]
  simp only [hcarry, if_true, sub_add_cancel, not_lt.mpr hmax, if_false]
  rfl

/-- The part of the gap below a number that rounds to it, in quarters of the gap above. -/
def lowGap (m : ℕ) (e : ℤ) : ℕ :=
  if m = 2 ^ 52 ∧ minExponent < e then 1 else 2

theorem lowGap_le (m : ℕ) (e : ℤ) : lowGap m e ≤ 2 := by
  rw [lowGap]
  split <;> decide

theorem lowGap_pos (m : ℕ) (e : ℤ) : 1 ≤ lowGap m e := by
  rw [lowGap]
  split <;> decide

/--
The quotients that go to a number, measured in the unit of its significand: up
to half a unit away, but only a quarter below a power of two.
-/
structure RoundsTo (m : ℕ) (e : ℤ) (x : ℚ) : Prop where
  below : (m - lowGap m e / 4 : ℚ) ≤ x / 2 ^ e
  above : x / 2 ^ e ≤ m + 1 / 2
  odd_below : m % 2 = 1 → (m - lowGap m e / 4 : ℚ) < x / 2 ^ e
  odd_above : m % 2 = 1 → x / 2 ^ e < m + 1 / 2

namespace RoundsTo

theorem nearestEven {m : ℕ} {e : ℤ} {x : ℚ} (h : RoundsTo m e x) :
    NearestEven (x / 2 ^ e) m := by
  have hgap : (lowGap m e : ℚ) ≤ 2 := by exact_mod_cast lowGap_le m e
  refine ⟨?_, h.above, fun hodd => ?_, h.odd_above⟩
  · linarith [h.below]
  · linarith [h.odd_below hodd]

/-- A quotient that goes to a number is below the powers of two beyond it. -/
theorem lt_zpow {m : ℕ} {e : ℤ} {x : ℚ} (hm : m < 2 ^ 53) (h : RoundsTo m e x) :
    x < 2 ^ (53 + e) := by
  have hpow : (0 : ℚ) < 2 ^ e := by positivity
  have hmq : (m : ℚ) + 1 ≤ 2 ^ 53 := by exact_mod_cast hm
  rw [zpow_add₀ (by norm_num), ← div_lt_iff₀ hpow, zpow_ofNat]
  linarith [h.above]

/-- Below a power of two the gap is half as wide, and rounding there carries. -/
theorem carries {m : ℕ} {e : ℤ} {x : ℚ} (h : RoundsTo m e x) (hrep : Representable m e)
    (hmin : e ≠ minExponent) (hbelow : x < 2 ^ (52 + e)) :
    m = 2 ^ 52 ∧ RoundsAt x (e - 1) ∧ NearestEven (x / 2 ^ (e - 1)) (2 ^ 53) := by
  have hpow : (0 : ℚ) < 2 ^ e := by positivity
  have hlt : x / 2 ^ e < 2 ^ 52 := by
    rw [zpow_add₀ (by norm_num), ← div_lt_iff₀ hpow, zpow_ofNat] at hbelow
    exact hbelow
  have hm : m = 2 ^ 52 := by
    have hge : 2 ^ 52 ≤ m := hrep.tight.resolve_left hmin
    have hgap : (lowGap m e : ℚ) ≤ 2 := by exact_mod_cast lowGap_le m e
    have hle : (m : ℚ) < 2 ^ 52 + 1 := by linarith [h.below]
    have : m < 2 ^ 52 + 1 := by exact_mod_cast hle
    omega
  have hquarter : lowGap m e = 1 := by
    rw [lowGap, if_pos ⟨hm, lt_of_le_of_ne hrep.least (Ne.symm hmin)⟩]
  have hnear : (2 ^ 52 - 1 / 4 : ℚ) ≤ x / 2 ^ e := by
    have := h.below
    rw [hquarter, hm] at this
    push_cast at this
    exact this
  have hdouble : x / 2 ^ (e - 1) = 2 * (x / 2 ^ e) := by
    rw [zpow_sub_one₀ (by norm_num)]
    field_simp
  refine ⟨hm, ⟨by have := hrep.least; omega, ?_, Or.inr ?_⟩, ?_⟩
  · rw [show 53 + (e - 1) = 52 + e by ring]
    exact hbelow
  · rw [zpow_add₀ (by norm_num), ← le_div_iff₀ (by positivity), hdouble, zpow_ofNat]
    linarith
  · rw [hdouble]
    refine ⟨?_, ?_, fun hodd => absurd hodd (by decide), fun hodd => absurd hodd (by decide)⟩
    · push_cast
      linarith
    · push_cast
      linarith

end RoundsTo

/-- Each quotient that goes to a number is rounded to it. -/
theorem ofRatio_eq_finite {negative : Bool} {num den m : ℕ} {e : ℤ}
    (hrep : Representable m e) (hnum : num ≠ 0) (hden : den ≠ 0)
    (hto : RoundsTo m e ((num : ℚ) / den)) :
    ofRatio negative num den = finite negative m e := by
  obtain ⟨d, hround, heq⟩ := ofRatio_eq negative hnum hden
  rw [heq]
  generalize hx : (num : ℚ) / den = x at hround hto
  have hfits : x < 2 ^ (53 + e) := hto.lt_zpow hrep.fits
  by_cases htight : e = minExponent ∨ 2 ^ (52 + e) ≤ x
  · have hsame : d = e := hround.unique ⟨hrep.least, hfits, htight⟩
    subst hsame
    rw [scaledDiv_eq (Nat.pos_of_ne_zero hden) (hx ▸ hto.nearestEven)]
    exact normalized_eq_finite hrep
  · obtain ⟨hmin, hbelow⟩ := not_or.mp htight
    obtain ⟨hm, hprev, hnear⟩ := hto.carries hrep hmin (not_le.mp hbelow)
    obtain rfl := hround.unique hprev
    rw [scaledDiv_eq (Nat.pos_of_ne_zero hden) (hx ▸ hnear), hm]
    exact normalized_carry hrep.greatest

end RepoAtlas.Binary64
