import Mathlib.Data.List.DropRight
import Mathlib.Data.Nat.Cast.Order.Ring
import Mathlib.Tactic.SplitIfs
import RepoAtlas.Number.Shortest
import RepoAtlas.Proofs.Number.Rounding

/-!
Decimal digits of a floating-point number: the fewest that are searched for read
back as the number.
-/
namespace RepoAtlas.Binary64

/-- Whether a point lies between two ends, which count if `closed` is true. -/
structure Within (low high : ℕ) (closed : Bool) (point : ℕ) : Prop where
  below : low ≤ point
  above : point ≤ high
  open_below : closed = false → low < point
  open_above : closed = false → point < high

/-- A point that is checked against the low end only, since it does not exceed the value. -/
theorem Within.of_below {value low high point : ℕ} {closed : Bool} (hhigh : value < high)
    (hvalue : point ≤ value) (hin : if closed then low ≤ point else low < point) :
    Within low high closed point := by
  cases closed with
  | true => exact ⟨hin, by omega, by simp, by simp⟩
  | false =>
      have hlt : low < point := hin
      exact ⟨by omega, by omega, fun _ => hlt, fun _ => by omega⟩

/-- A point that is checked against the high end only, since it exceeds the value. -/
theorem Within.of_above {value low high point : ℕ} {closed : Bool} (hlow : low < value)
    (hvalue : value < point) (hin : if closed then point ≤ high else point < high) :
    Within low high closed point := by
  cases closed with
  | true => exact ⟨by omega, hin, by simp, by simp⟩
  | false =>
      have hlt : point < high := hin
      exact ⟨by omega, by omega, fun _ => by omega, fun _ => hlt⟩

/-- Whichever grid the search ends at, its point lies between the ends. -/
theorem within_firstGrid {value low high : ℕ} {closed : Bool} (hlow : low < value)
    (hhigh : value < high) (length grids n : ℕ) {digits power : ℕ}
    (hfound : firstGrid value low high closed length grids n = (digits, power)) :
    Within low high closed (digits * 10 ^ power) := by
  induction grids generalizing n with
  | zero =>
      obtain ⟨rfl, rfl⟩ := Prod.mk.inj hfound
      refine ⟨?_, ?_, fun _ => ?_, fun _ => ?_⟩ <;> omega
  | succ grids ih =>
      have hbelow : value / 10 ^ (length - n) * 10 ^ (length - n) ≤ value :=
        Nat.div_mul_le_self _ _
      have habove : value < (value / 10 ^ (length - n) + 1) * 10 ^ (length - n) := by
        rw [Nat.add_mul, Nat.one_mul]
        exact Nat.lt_div_mul_add (Nat.pow_pos (by decide))
      simp only [firstGrid, Nat.pow_eq] at hfound
      generalize value / 10 ^ (length - n) = below at *
      by_cases hlowIn : if closed then low ≤ below * 10 ^ (length - n)
        else low < below * 10 ^ (length - n)
      · have hin := Within.of_below hhigh hbelow hlowIn
        by_cases hhighIn : if closed then (below + 1) * 10 ^ (length - n) ≤ high
          else (below + 1) * 10 ^ (length - n) < high
        · have hout := Within.of_above hlow habove hhighIn
          simp only [hlowIn, hhighIn, decide_true, Bool.and_self, if_true] at hfound
          split at hfound <;> obtain ⟨rfl, rfl⟩ := Prod.mk.inj hfound
          · exact hin
          · exact hout
        · simp only [hlowIn, hhighIn, decide_false, Bool.and_false, Bool.false_eq_true, if_false,
            if_true] at hfound
          obtain ⟨rfl, rfl⟩ := Prod.mk.inj hfound
          exact hin
      · by_cases hhighIn : if closed then (below + 1) * 10 ^ (length - n) ≤ high
          else (below + 1) * 10 ^ (length - n) < high
        · simp only [hlowIn, hhighIn, decide_false, Bool.false_and, Bool.false_eq_true, if_false,
            if_true] at hfound
          obtain ⟨rfl, rfl⟩ := Prod.mk.inj hfound
          exact Within.of_above hlow habove hhighIn
        · simp only [hlowIn, hhighIn, decide_false, Bool.false_and, Bool.false_eq_true,
            if_false] at hfound
          exact ih (n + 1) hfound

/-- How many decimal places the unit of the search has. -/
def places (e : ℤ) : ℕ := (-e).toNat + 2

/-- A quarter of `2 ^ e`, in units of so many decimal places. -/
def quarter (e : ℤ) : ℕ :=
  if e < 0 then Nat.pow 5 (places e) else 25 * Nat.pow 2 e.toNat

theorem quarter_pos (e : ℤ) : 0 < quarter e := by
  rw [quarter]
  split
  · exact Nat.pow_pos (by decide)
  · exact Nat.mul_pos (by decide) (Nat.pow_pos (by decide))

theorem four_mul_quarter (e : ℤ) : (4 * quarter e : ℚ) = 10 ^ places e * 2 ^ e := by
  rw [quarter]
  split
  · next hneg =>
      obtain ⟨n, rfl⟩ : ∃ n : ℕ, e = -n := ⟨(-e).toNat, by omega⟩
      have hten : (10 : ℚ) ^ (n + 2) = 5 ^ (n + 2) * 2 ^ (n + 2) := by
        rw [← mul_pow]
        norm_num
      rw [places, Int.neg_neg, Int.toNat_natCast, Nat.pow_eq, Nat.cast_pow, hten, zpow_neg,
        zpow_natCast, pow_add (2 : ℚ) n 2]
      field_simp
      push_cast
      ring
  · next hnonneg =>
      obtain ⟨n, rfl⟩ : ∃ n : ℕ, e = n := ⟨e.toNat, by omega⟩
      have hplaces : places n = 2 := by
        rw [places]
        omega
      rw [hplaces, Int.toNat_natCast, Nat.pow_eq, Nat.cast_mul, Nat.cast_pow, zpow_natCast]
      push_cast
      ring

/-- A point between the ends of the search is a decimal number that goes to the number. -/
theorem roundsTo_of_within {m n : ℕ} {e : ℤ} (hm : 0 < m)
    (hin : Within ((4 * m - lowGap m e) * quarter e) ((4 * m + 2) * quarter e) (m % 2 == 0) n) :
    RoundsTo m e ((n : ℚ) * 10 ^ (-(places e : ℤ))) := by
  have hgap : lowGap m e ≤ 4 * m := le_trans (lowGap_le m e) (by omega)
  have hquarter : (0 : ℚ) < quarter e := by exact_mod_cast quarter_pos e
  have hscale : (n : ℚ) * 10 ^ (-(places e : ℤ)) / 2 ^ e = n / (4 * quarter e) := by
    rw [four_mul_quarter, zpow_neg, zpow_natCast]
    field_simp
  have hlow : ((4 * m - lowGap m e : ℕ) * quarter e : ℚ) =
      (m - lowGap m e / 4) * (4 * quarter e) := by
    rw [Nat.cast_sub hgap]
    push_cast
    ring
  have hhigh : ((4 * m + 2 : ℕ) * quarter e : ℚ) = (m + 1 / 2) * (4 * quarter e) := by
    push_cast
    ring
  have hopen : m % 2 = 1 → (m % 2 == 0) = false := by
    intro hodd
    simp [hodd]
  refine ⟨?_, ?_, fun hodd => ?_, fun hodd => ?_⟩ <;> rw [hscale]
  · rw [le_div_iff₀ (by positivity), ← hlow]
    exact_mod_cast hin.below
  · rw [div_le_iff₀ (by positivity), ← hhigh]
    exact_mod_cast hin.above
  · rw [lt_div_iff₀ (by positivity), ← hlow]
    exact_mod_cast hin.open_below (hopen hodd)
  · rw [div_lt_iff₀ (by positivity), ← hhigh]
    exact_mod_cast hin.open_above (hopen hodd)

/-- The number that some decimal digits stand for. -/
abbrev valueOf (digits : List Char) : ℕ := Nat.ofDigitChars 10 digits 0

theorem dropZeros_append (digits : List Char) :
    ∃ n, digits = dropZeros digits ++ List.replicate n '0' := by
  refine ⟨(digits.rtakeWhile (· == '0')).length, ?_⟩
  have hzeros : digits.rtakeWhile (· == '0') =
      List.replicate (digits.rtakeWhile (· == '0')).length '0' := by
    rw [List.eq_replicate_iff]
    exact ⟨rfl, fun c hmem => by simpa using List.mem_rtakeWhile_imp hmem⟩
  rw [← hzeros]
  exact List.rdropWhile_append_rtakeWhile.symm

theorem head?_digitsOf_ne {n : ℕ} (hn : 0 < n) : (digitsOf n).head? ≠ some '0' := by
  induction n using Nat.strongRecOn with
  | ind n ih =>
      rw [digitsOf, Nat.toDigits_eq_if (by decide)]
      split
      · simp only [List.head?_cons, ne_eq, Option.some.injEq, Nat.digitChar_eq_zero]
        omega
      · have hlead := ih (n / 10) (by omega) (by omega)
        rw [digitsOf] at hlead
        rwa [List.head?_append_of_ne_nil _ Nat.toDigits_ne_nil]

/-- Digits and the place of a point among them that a number can be written with. -/
structure Spells (m : ℕ) (e : ℤ) (digits : List Char) (point : ℤ) : Prop where
  digit : ∀ c ∈ digits, c.isDigit
  ne_nil : digits ≠ []
  leading : digits.head? ≠ some '0'
  rounds : RoundsTo m e ((valueOf digits : ℚ) * 10 ^ (point - digits.length))

/-- Zeros at the end of the digits move into the power of ten. -/
theorem valueOf_append_zeros (digits : List Char) (n : ℕ) :
    valueOf (digits ++ List.replicate n '0') = valueOf digits * 10 ^ n := by
  rw [valueOf, Nat.ofDigitChars_append, Nat.ofDigitChars_replicate_zero, Nat.mul_comm]

theorem valueOf_digitsOf (n : ℕ) : valueOf (digitsOf n) = n :=
  Nat.ofDigitChars_ten_toDigits

theorem isDigit_of_mem_digitsOf {n : ℕ} {c : Char} (hmem : c ∈ digitsOf n) : c.isDigit :=
  Nat.isDigit_of_mem_toDigits (by decide) (by decide) hmem

/-- The digits of a number without the zeros at their end spell the same number. -/
theorem spells_dropZeros {m number : ℕ} {e exponent : ℤ} (hnumber : 0 < number)
    (hrounds : RoundsTo m e ((number : ℚ) * 10 ^ exponent)) :
    Spells m e (dropZeros (digitsOf number)) ((digitsOf number).length + exponent) := by
  obtain ⟨n, hzeros⟩ := dropZeros_append (digitsOf number)
  have hlead := head?_digitsOf_ne hnumber
  have hvalue := valueOf_digitsOf number
  have hdigit := fun c (hmem : c ∈ digitsOf number) => isDigit_of_mem_digitsOf hmem
  generalize digitsOf number = text at *
  generalize dropZeros text = digits at *
  subst hzeros
  have hne : digits ≠ [] := by
    rintro rfl
    cases n with
    | zero => simp [valueOf] at hvalue; omega
    | succ n => exact hlead rfl
  refine ⟨fun c hmem => hdigit c (List.mem_append_left _ hmem), hne, ?_, ?_⟩
  · rwa [List.head?_append_of_ne_nil _ hne] at hlead
  · have hsame : (number : ℚ) * 10 ^ exponent =
        valueOf digits * 10 ^ (((digits ++ List.replicate n '0').length : ℤ) + exponent -
          digits.length) := by
      rw [← hvalue, valueOf_append_zeros, Nat.cast_mul, mul_assoc, Nat.cast_pow,
        ← zpow_natCast, Nat.cast_ofNat, ← zpow_add₀ (by norm_num)]
      congr 2
      rw [List.length_append, List.length_replicate]
      push_cast
      ring
    rwa [← hsame]

theorem shortestDigits_eq (m : ℕ) (e : ℤ) :
    let found := firstGrid (4 * m * quarter e) ((4 * m - lowGap m e) * quarter e)
      ((4 * m + 2) * quarter e) (m % 2 == 0) (digitsOf (4 * m * quarter e)).length 17 1
    shortestDigits m e =
      (dropZeros (digitsOf found.1), ((digitsOf found.1).length : ℤ) + found.2 - places e) := by
  have hgap : (if m == Nat.pow 2 52 && minExponent < e then 1 else 2) = lowGap m e := by
    rw [lowGap]
    congr 1
    simp
  rw [shortestDigits, hgap]
  rfl

/-- The digits that are found spell the number. -/
theorem spells_shortestDigits {m : ℕ} (hm : 0 < m) (e : ℤ) :
    Spells m e (shortestDigits m e).1 (shortestDigits m e).2 := by
  have hgap : lowGap m e ≤ 2 := lowGap_le m e
  have hlow : (4 * m - lowGap m e) * quarter e < 4 * m * quarter e :=
    Nat.mul_lt_mul_of_pos_right (by have := lowGap_pos m e; omega) (quarter_pos e)
  have hhigh : 4 * m * quarter e < (4 * m + 2) * quarter e :=
    Nat.mul_lt_mul_of_pos_right (by omega) (quarter_pos e)
  rw [shortestDigits_eq]
  generalize hfound : firstGrid (4 * m * quarter e) ((4 * m - lowGap m e) * quarter e)
    ((4 * m + 2) * quarter e) (m % 2 == 0) (digitsOf (4 * m * quarter e)).length 17 1 = found
  obtain ⟨number, power⟩ := found
  have hin := within_firstGrid hlow hhigh _ _ _ hfound
  have hnumber : 0 < number := by
    have hpos : 0 < (4 * m - lowGap m e) * quarter e :=
      Nat.mul_pos (by omega) (quarter_pos e)
    exact Nat.pos_of_mul_pos_right (lt_of_lt_of_le hpos hin.below)
  have hrounds := roundsTo_of_within hm hin
  rw [Nat.cast_mul, mul_assoc, Nat.cast_pow, ← zpow_natCast, Nat.cast_ofNat,
    ← zpow_add₀ (by norm_num)] at hrounds
  have hspells := spells_dropZeros hnumber hrounds
  rwa [← add_assoc] at hspells

theorem length_digitsOf_bounds {n : ℕ} (hn : 0 < n) :
    10 ^ ((digitsOf n).length - 1) ≤ n ∧ n < 10 ^ (digitsOf n).length := by
  have hlength : 0 < (digitsOf n).length := Nat.length_toDigits_pos
  constructor
  · by_cases hone : (digitsOf n).length = 1
    · rw [hone]
      exact hn
    · by_contra hlt
      have hle := (Nat.length_toDigits_le_iff (b := 10) (n := n)
        (k := (digitsOf n).length - 1) (by decide) (by omega)).mpr (not_le.mp hlt)
      rw [digitsOf] at *
      omega
  · exact (Nat.length_toDigits_le_iff (by decide) hlength).mp (le_refl _)

theorem two_zpow_le_ten_zpow : (2 : ℚ) ^ (1200 : ℤ) ≤ 10 ^ (400 : ℤ) := by
  rw [show (1200 : ℤ) = 3 * 400 by norm_num, zpow_mul]
  exact zpow_le_zpow_left₀ (by norm_num) (by norm_num) (by norm_num)

namespace RoundsTo

/-- A quotient that goes to a number is far below the size from which reading gives up. -/
theorem lt_ten_zpow {m : ℕ} {e : ℤ} {x : ℚ} (hrep : Representable m e) (h : RoundsTo m e x) :
    x < 10 ^ (400 : ℤ) := by
  have hmax : e ≤ 971 := hrep.greatest
  calc x < 2 ^ (53 + e) := h.lt_zpow hrep.fits
    _ ≤ 2 ^ (1200 : ℤ) := zpow_le_zpow_right₀ (by norm_num) (by omega)
    _ ≤ 10 ^ (400 : ℤ) := two_zpow_le_ten_zpow

/-- A quotient that goes to a number other than zero is not too small to be read. -/
theorem ten_zpow_lt {m : ℕ} {e : ℤ} {x : ℚ} (hm : 0 < m) (hrep : Representable m e)
    (h : RoundsTo m e x) : (10 : ℚ) ^ (-400 : ℤ) < x := by
  have hmin : -1074 ≤ e := hrep.least
  have hgap : (lowGap m e : ℚ) ≤ 2 := by exact_mod_cast lowGap_le m e
  have hmq : (1 : ℚ) ≤ m := by exact_mod_cast hm
  have hpow : (0 : ℚ) < 2 ^ e := by positivity
  have hhalf : (1 / 2 : ℚ) ≤ x / 2 ^ e := by linarith [h.below]
  rw [le_div_iff₀ hpow] at hhalf
  have hhalfPow : (2 : ℚ) ^ (e - 1) = 1 / 2 * 2 ^ e := by
    rw [zpow_sub_one₀ (by norm_num)]
    ring
  calc (10 : ℚ) ^ (-400 : ℤ) ≤ 2 ^ (-1200 : ℤ) := by
        rw [zpow_neg, zpow_neg]
        exact inv_anti₀ (by positivity) two_zpow_le_ten_zpow
    _ < 2 ^ (e - 1) := zpow_lt_zpow_right₀ (by norm_num) (by omega)
    _ = 1 / 2 * 2 ^ e := hhalfPow
    _ ≤ x := hhalf

end RoundsTo

/-- Decimal digits that go to a number are read as it. -/
theorem ofDecimal_eq_finite {negative : Bool} {m n : ℕ} {e exponent : ℤ} (hm : 0 < m)
    (hrep : Representable m e) (hn : 0 < n)
    (hto : RoundsTo m e ((n : ℚ) * 10 ^ exponent)) :
    ofDecimal negative n exponent = finite negative m e := by
  obtain ⟨hlow, hhigh⟩ := length_digitsOf_bounds hn
  have hlength : 0 < (digitsOf n).length := Nat.length_toDigits_pos
  rw [ofDecimal]
  generalize (digitsOf n).length = size at *
  have hpow : (0 : ℚ) < 10 ^ exponent := by positivity
  have hten : (1 : ℚ) < 10 := by norm_num
  have hlarge : ((size : ℤ) - 1 + exponent) < 400 := by
    rw [← zpow_lt_zpow_iff_right₀ hten]
    refine lt_of_le_of_lt ?_ (hto.lt_ten_zpow hrep)
    rw [zpow_add₀ (by norm_num), show (size : ℤ) - 1 = (size - 1 : ℕ) by omega, zpow_natCast]
    gcongr
    exact_mod_cast hlow
  have hsmall : -400 < (size : ℤ) + exponent := by
    rw [← zpow_lt_zpow_iff_right₀ hten]
    refine lt_trans (hto.ten_zpow_lt hm hrep) ?_
    rw [zpow_add₀ (by norm_num), zpow_natCast]
    gcongr
    exact_mod_cast hhigh
  rw [if_neg (by simpa using hn.ne'), if_neg (by omega), if_neg (by omega)]
  split
  · next hneg =>
      obtain ⟨k, rfl⟩ : ∃ k : ℕ, exponent = -k := ⟨(-exponent).toNat, by omega⟩
      rw [Int.neg_neg, Int.toNat_natCast, Nat.pow_eq]
      apply ofRatio_eq_finite hrep hn.ne' (Nat.pow_pos (by decide)).ne'
      rw [zpow_neg, zpow_natCast, ← div_eq_mul_inv] at hto
      exact_mod_cast hto
  · next hnonneg =>
      obtain ⟨k, rfl⟩ : ∃ k : ℕ, exponent = k := ⟨exponent.toNat, by omega⟩
      rw [Int.toNat_natCast, Nat.pow_eq]
      apply ofRatio_eq_finite hrep (Nat.mul_pos hn (Nat.pow_pos (by decide))).ne' one_ne_zero
      rw [zpow_natCast] at hto
      rw [Nat.cast_one, div_one]
      exact_mod_cast hto

theorem valueOf_cons (c : Char) (digits : List Char) :
    valueOf (c :: digits) = 10 ^ digits.length * (c.toNat - 48) + valueOf digits := by
  rw [valueOf, Nat.ofDigitChars_cons, Nat.ofDigitChars_eq_ofDigitChars_zero]
  simp

theorem valueOf_zeros_append (digits : List Char) (n : ℕ) :
    valueOf (List.replicate n '0' ++ digits) = valueOf digits := by
  simp [valueOf, Nat.ofDigitChars_append]

theorem Spells.valueOf_pos {m : ℕ} {e point : ℤ} {digits : List Char}
    (h : Spells m e digits point) : 0 < valueOf digits := by
  cases digits with
  | nil => exact absurd rfl h.ne_nil
  | cons c digits =>
      have hdigit : 48 ≤ c.toNat := by
        have := h.digit c (by simp)
        rw [Char.isDigit_iff_toNat] at this
        exact this.1
      have hlead : c.toNat ≠ 48 := by
        intro heq
        apply h.leading
        rw [List.head?_cons, Char.toNat_inj.mp (heq.trans (by decide : 48 = '0'.toNat))]
      rw [valueOf_cons]
      have : 0 < 10 ^ digits.length * (c.toNat - 48) :=
        Nat.mul_pos (Nat.pow_pos (by decide)) (by omega)
      omega

/-- Digits that spell a number are read as it, also with zeros behind them. -/
theorem Spells.ofDecimal_eq {negative : Bool} {m : ℕ} {e point : ℤ} {digits : List Char}
    (h : Spells m e digits point) (hm : 0 < m) (hrep : Representable m e) (zeros : ℕ) :
    ofDecimal negative (valueOf digits * 10 ^ zeros) (point - digits.length - zeros) =
      finite negative m e := by
  have hvalue := h.valueOf_pos
  apply ofDecimal_eq_finite hm hrep (Nat.mul_pos hvalue (Nat.pow_pos (by decide)))
  have hsame : ((valueOf digits * 10 ^ zeros : ℕ) : ℚ) * 10 ^ (point - digits.length - zeros) =
      valueOf digits * 10 ^ (point - digits.length) := by
    rw [Nat.cast_mul, mul_assoc, Nat.cast_pow, ← zpow_natCast, Nat.cast_ofNat,
      ← zpow_add₀ (by norm_num)]
    congr 2
    ring
  rw [hsame]
  exact h.rounds

end RepoAtlas.Binary64
