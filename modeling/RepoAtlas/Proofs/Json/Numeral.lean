import Mathlib.Data.List.TakeWhile
import RepoAtlas.Json.Reader
import RepoAtlas.Json.Writer
import RepoAtlas.Proofs.Number.Decimal

/-!
Numbers as they stand in a document. What is written for a number is read as the
number, up to the character that follows it.
-/
namespace RepoAtlas.Json

open Binary64 (valueOf)

theorem natOfDigits_eq (digits : List Char) : natOfDigits digits = valueOf digits := by
  rw [valueOf, Nat.ofDigitChars_eq_foldl]
  simp only [natOfDigits, Nat.mul_comm 10]
  rfl

/-- Whether a text goes on with a character that belongs to no number. -/
def Delimited (rest : List Char) : Prop :=
  ∀ c ∈ rest.head?, c.isDigit = false ∧ c ≠ '.' ∧ c ≠ 'e' ∧ c ≠ 'E'

/-- The parts of a number: the digits, and an exponent with its sign. -/
structure Numeral where
  negative : Bool
  whole : List Char
  fraction : List Char := []
  exponent : Option (Bool × List Char) := none

namespace Numeral

/-- The sign of a text and what follows it. -/
def signOf (s : List Char) : Bool × List Char :=
  match s with
  | '-' :: rest => (true, rest)
  | _ => (false, s)

/-- The digits before a point. -/
def wholeOf (body : List Char) : List Char :=
  match body with
  | '0' :: _ => ['0']
  | _ => body.takeWhile Char.isDigit

/-- The digits behind a point. -/
def fractionOf (rest : List Char) : List Char :=
  match rest with
  | '.' :: more => more.takeWhile Char.isDigit
  | _ => []

/-- The exponent at the start of a text, and how many characters it takes. -/
def exponentOf (rest : List Char) : Option (Int × Nat) :=
  match rest with
  | e :: more =>
    if e == 'e' || e == 'E' then
      let (sign, digits, skipped) : Int × List Char × Nat :=
        match more with
        | '-' :: d => (-1, d.takeWhile Char.isDigit, 2)
        | '+' :: d => (1, d.takeWhile Char.isDigit, 2)
        | d => (1, d.takeWhile Char.isDigit, 1)
      if digits.isEmpty then none
      else some (sign * natOfDigits digits, skipped + digits.length)
    else none
  | [] => none

/-- The number that the parts stand for. -/
def valueOfParts (negative : Bool) (whole fraction : List Char) (exponent : Option (Int × Nat))
    (left : List Char) : Option (Except ReadError (Json × List Char)) :=
  if fraction.isEmpty && exponent.isNone then
    if maxIntegerDigits < whole.length then some (.error (.longInteger whole.length))
    else
      let n := natOfDigits whole
      some (.ok (.int (if negative then -(n : Int) else n), left))
  else
    let e : Int := (exponent.map Prod.fst |>.getD 0) - fraction.length
    some (.ok (.real (.ofDecimal negative (natOfDigits (whole ++ fraction)) e), left))

/-- A number is read part by part. -/
theorem readNumber_eq (s : List Char) :
    readNumber s =
      let (negative, body) := signOf s
      let whole := wholeOf body
      if whole.isEmpty then none
      else
        let rest := body.drop whole.length
        let fraction := fractionOf rest
        let rest := if fraction.isEmpty then rest else rest.drop (fraction.length + 1)
        let exponent := exponentOf rest
        valueOfParts negative whole fraction exponent
          (rest.drop (exponent.map Prod.snd |>.getD 0)) :=
  rfl

/-- Whether a text does not go on with a digit. -/
def Undigited (rest : List Char) : Prop :=
  ∀ c ∈ rest.head?, c.isDigit = false

theorem takeWhile_digits_append {digits rest : List Char} (hdigits : ∀ c ∈ digits, c.isDigit)
    (hrest : Undigited rest) : (digits ++ rest).takeWhile Char.isDigit = digits := by
  rw [List.takeWhile_append_of_pos hdigits]
  cases rest with
  | nil => simp
  | cons c more => simp [hrest c rfl]

theorem signOf_digits {digits rest : List Char} (hdigits : ∀ c ∈ digits, c.isDigit)
    (hne : digits ≠ []) : signOf (digits ++ rest) = (false, digits ++ rest) := by
  cases digits with
  | nil => exact absurd rfl hne
  | cons c more =>
      have hc : c ≠ '-' := by
        rintro rfl
        exact absurd (hdigits '-' (by simp)) (by decide)
      rw [signOf]
      intro tail heq
      exact hc (List.cons.inj heq).1

theorem wholeOf_append {digits rest : List Char} (hdigits : ∀ c ∈ digits, c.isDigit)
    (hlead : digits = ['0'] ∨ digits.head? ≠ some '0') (hne : digits ≠ [])
    (hrest : Undigited rest) : wholeOf (digits ++ rest) = digits := by
  unfold wholeOf
  split
  · next more heq =>
      rcases hlead with rfl | hlead
      · rfl
      · cases digits with
        | nil => exact absurd rfl hne
        | cons c digits => exact absurd (congrArg some (List.cons.inj heq).1) hlead
  · exact takeWhile_digits_append hdigits hrest

/-- The point and the digits behind it, if there are any. -/
def fractionText : List Char → List Char
  | [] => []
  | fraction => '.' :: fraction

theorem fractionText_of_ne_nil {fraction : List Char} (hne : fraction ≠ []) :
    fractionText fraction = '.' :: fraction := by
  cases fraction with
  | nil => exact absurd rfl hne
  | cons c more => rfl

theorem fractionOf_append {fraction rest : List Char} (hdigits : ∀ c ∈ fraction, c.isDigit)
    (hrest : Undigited rest) (hpoint : rest.head? ≠ some '.') :
    fractionOf (fractionText fraction ++ rest) = fraction := by
  cases fraction with
  | nil =>
      rw [fractionOf]
      intro more heq
      exact hpoint (congrArg List.head? (show rest = _ from heq))
  | cons c more => exact takeWhile_digits_append hdigits hrest

theorem drop_fractionText (fraction rest : List Char) :
    (if fraction.isEmpty then fractionText fraction ++ rest
      else (fractionText fraction ++ rest).drop (fraction.length + 1)) = rest := by
  cases fraction with
  | nil => rfl
  | cons c more => simp [fractionText]

/-- The exponent with its letter and its sign, if there is one. -/
def exponentText : Option (Bool × List Char) → List Char
  | none => []
  | some (negative, digits) => 'e' :: (if negative then '-' else '+') :: digits

/-- What an exponent stands for, and how many characters it takes. -/
def exponentValue (exponent : Bool × List Char) : Int × Nat :=
  ((if exponent.1 then -1 else 1) * natOfDigits exponent.2, 2 + exponent.2.length)

theorem exponentOf_append {exponent : Option (Bool × List Char)} {rest : List Char}
    (hdigits : ∀ e ∈ exponent, e.2 ≠ [] ∧ ∀ c ∈ e.2, c.isDigit) (hrest : Delimited rest) :
    exponentOf (exponentText exponent ++ rest) = exponent.map exponentValue := by
  cases exponent with
  | none =>
      rw [exponentText, List.nil_append, Option.map_none]
      unfold exponentOf
      split
      · next c more =>
          obtain ⟨_, _, hlower, hupper⟩ := hrest c rfl
          simp [hlower, hupper]
      · rfl
  | some parts =>
      obtain ⟨negative, digits⟩ := parts
      obtain ⟨hne, hdigit⟩ := hdigits _ rfl
      have htake := takeWhile_digits_append hdigit fun c hc => (hrest c hc).1
      have hempty : digits.isEmpty = false := by simpa using hne
      cases negative <;>
        simp [exponentText, exponentOf, exponentValue, htake, hempty]

theorem drop_exponentText (exponent : Option (Bool × List Char)) (rest : List Char) :
    (exponentText exponent ++ rest).drop
      (((exponent.map exponentValue).map Prod.snd).getD 0) = rest := by
  cases exponent with
  | none => rfl
  | some parts => simp [exponentText, exponentValue, Nat.add_comm 2]

/-- The text of the parts of a number. -/
def text (n : Numeral) : List Char :=
  (if n.negative then ['-'] else []) ++ n.whole ++ fractionText n.fraction ++
    exponentText n.exponent

structure WellFormed (n : Numeral) : Prop where
  whole_digit : ∀ c ∈ n.whole, c.isDigit
  whole_ne_nil : n.whole ≠ []
  leading : n.whole = ['0'] ∨ n.whole.head? ≠ some '0'
  fraction_digit : ∀ c ∈ n.fraction, c.isDigit
  exponent_digit : ∀ e ∈ n.exponent, e.2 ≠ [] ∧ ∀ c ∈ e.2, c.isDigit

/-- The text of a number is read as its parts. -/
theorem readNumber_text {n : Numeral} (hn : n.WellFormed) {rest : List Char}
    (hrest : Delimited rest) :
    readNumber (n.text ++ rest) =
      valueOfParts n.negative n.whole n.fraction (n.exponent.map exponentValue) rest := by
  obtain ⟨negative, whole, fraction, exponent⟩ := n
  have hexponentHead : ∀ c ∈ (exponentText exponent ++ rest).head?,
      c.isDigit = false ∧ c ≠ '.' := by
    cases exponent with
    | none => exact fun c hc => ⟨(hrest c hc).1, (hrest c hc).2.1⟩
    | some parts =>
        intro c hc
        obtain rfl : 'e' = c := Option.some.inj hc
        decide
  have hexponentPoint : (exponentText exponent ++ rest).head? ≠ some '.' := by
    intro hpoint
    exact (hexponentHead '.' hpoint).2 rfl
  have hfractionHead : Undigited (fractionText fraction ++ (exponentText exponent ++ rest)) := by
    cases fraction with
    | nil => exact fun c hc => (hexponentHead c hc).1
    | cons d more =>
        intro c hc
        obtain rfl : '.' = c := Option.some.inj hc
        decide
  have hsign : signOf (text ⟨negative, whole, fraction, exponent⟩ ++ rest) =
      (negative, whole ++ (fractionText fraction ++ (exponentText exponent ++ rest))) := by
    cases negative with
    | true => simp [text, signOf]
    | false => simpa [text] using signOf_digits hn.whole_digit hn.whole_ne_nil
  have hempty : whole.isEmpty = false := by simpa using hn.whole_ne_nil
  rw [readNumber_eq, hsign]
  simp only [wholeOf_append hn.whole_digit hn.leading hn.whole_ne_nil hfractionHead, hempty,
    List.drop_left, fractionOf_append hn.fraction_digit (fun c hc => (hexponentHead c hc).1)
      hexponentPoint, drop_fractionText, exponentOf_append hn.exponent_digit hrest,
    drop_exponentText, Bool.false_eq_true, if_false]

theorem valueOfParts_int (negative : Bool) {whole : List Char} (left : List Char)
    (hshort : whole.length ≤ maxIntegerDigits) :
    valueOfParts negative whole [] none left =
      some (.ok (.int (if negative then -(valueOf whole : Int) else valueOf whole), left)) := by
  simp [valueOfParts, Nat.not_lt.mpr hshort, natOfDigits_eq]

theorem valueOfParts_real (negative : Bool) (whole fraction : List Char)
    (exponent : Option (Int × Nat)) (left : List Char)
    (hreal : fraction ≠ [] ∨ exponent.isSome) :
    valueOfParts negative whole fraction exponent left =
      some (.ok (.real (.ofDecimal negative (valueOf (whole ++ fraction))
        ((exponent.map Prod.fst).getD 0 - fraction.length)), left)) := by
  have hnot : (fraction.isEmpty && exponent.isNone) = false := by
    rcases hreal with hne | hsome
    · simp [hne]
    · simp [Option.isNone_eq_false_iff.mpr hsome]
  simp [valueOfParts, hnot, natOfDigits_eq]

end Numeral

open Numeral

theorem toList_toString_int (i : Int) :
    (toString i).toList =
      (if i < 0 then ['-'] else []) ++ Binary64.digitsOf i.natAbs := by
  cases i with
  | ofNat n =>
      have hnonneg : ¬(Int.ofNat n < 0) := by simp
      rw [if_neg hnonneg]
      simp [Binary64.digitsOf, toString, Int.repr]
  | negSucc n =>
      rw [if_pos (Int.negSucc_lt_zero n)]
      simp [Binary64.digitsOf, toString, Int.repr, Int.natAbs_negSucc]

theorem digitsOf_leading (n : ℕ) :
    Binary64.digitsOf n = ['0'] ∨ (Binary64.digitsOf n).head? ≠ some '0' := by
  rcases Nat.eq_zero_or_pos n with rfl | hpos
  · exact Or.inl (Nat.toDigits_zero 10)
  · exact Or.inr (Binary64.head?_digitsOf_ne hpos)

/-- An integer is read back if it has no more digits than are converted. -/
theorem readNumber_int {i : Int} (hshort : i.natAbs < 10 ^ maxIntegerDigits) {rest : List Char}
    (hrest : Delimited rest) :
    readNumber ((toString i).toList ++ rest) = some (.ok (.int i, rest)) := by
  have hn : WellFormed { negative := i < 0, whole := Binary64.digitsOf i.natAbs } :=
    { whole_digit := fun _ hmem => Binary64.isDigit_of_mem_digitsOf hmem
      whole_ne_nil := Nat.toDigits_ne_nil
      leading := digitsOf_leading i.natAbs
      fraction_digit := by simp
      exponent_digit := by simp }
  have hlength : (Binary64.digitsOf i.natAbs).length ≤ maxIntegerDigits :=
    (Nat.length_toDigits_le_iff (by decide) (by decide)).mpr hshort
  have hread := readNumber_text hn hrest
  rw [Option.map_none, valueOfParts_int _ _ hlength, Binary64.valueOf_digitsOf] at hread
  have hvalue : (if (decide (i < 0)) then -(i.natAbs : Int) else i.natAbs) = i := by
    simp only [decide_eq_true_eq]
    split <;> omega
  rw [hvalue] at hread
  rw [toList_toString_int]
  simpa [text, fractionText, exponentText] using hread

/-- The digits of a written exponent, at least two. -/
def exponentDigits (n : ℕ) : List Char :=
  if (Binary64.digitsOf n).length < 2 then '0' :: Binary64.digitsOf n else Binary64.digitsOf n

theorem isDigit_of_mem_exponentDigits {n : ℕ} {c : Char} (hmem : c ∈ exponentDigits n) :
    c.isDigit := by
  rw [exponentDigits] at hmem
  split at hmem
  · rcases List.mem_cons.mp hmem with rfl | hmem
    · decide
    · exact Binary64.isDigit_of_mem_digitsOf hmem
  · exact Binary64.isDigit_of_mem_digitsOf hmem

theorem exponentDigits_ne_nil (n : ℕ) : exponentDigits n ≠ [] := by
  rw [exponentDigits]
  split
  · simp
  · exact Nat.toDigits_ne_nil

theorem valueOf_exponentDigits (n : ℕ) : valueOf (exponentDigits n) = n := by
  rw [exponentDigits]
  split
  · rw [Binary64.valueOf_cons, Binary64.valueOf_digitsOf]
    simp
  · exact Binary64.valueOf_digitsOf n

/-- The exponent of a number as it is written. -/
def writtenExponent (e : Int) : Bool × List Char :=
  (decide (e < 0), exponentDigits e.natAbs)

theorem exponentText_writtenExponent (e : Int) :
    exponentText (some (writtenExponent e)) = 'e' :: Binary64.exponentText e := by
  simp [exponentText, writtenExponent, Binary64.exponentText, exponentDigits]

theorem exponentValue_writtenExponent (e : Int) :
    (exponentValue (writtenExponent e)).1 = e := by
  simp only [exponentValue, writtenExponent, natOfDigits_eq, valueOf_exponentDigits,
    decide_eq_true_eq]
  split <;> omega

/-- The parts of a number that is laid out as digits with a point among them. -/
def laidOut (negative : Bool) (digits : List Char) (point : Int) : Numeral :=
  if point ≤ -4 || 16 < point then
    { negative, whole := digits.take 1, fraction := digits.drop 1
      exponent := some (writtenExponent (point - 1)) }
  else if point ≤ 0 then
    { negative, whole := ['0'], fraction := List.replicate (-point).toNat '0' ++ digits }
  else if digits.length ≤ point.toNat then
    { negative, whole := digits ++ List.replicate (point.toNat - digits.length) '0'
      fraction := ['0'] }
  else
    { negative, whole := digits.take point.toNat, fraction := digits.drop point.toNat }

theorem text_laidOut (negative : Bool) {digits : List Char} (hne : digits ≠ []) (point : Int) :
    (laidOut negative digits point).text =
      (if negative then ['-'] else []) ++ Binary64.layout digits point := by
  unfold laidOut Binary64.layout
  split
  · simp only [text, exponentText_writtenExponent]
    cases digits with
    | nil => exact absurd rfl hne
    | cons c digits =>
        cases digits <;> simp [fractionText]
  · split
    · simp [text, exponentText, fractionText_of_ne_nil, hne]
    · split
      · simp [text, exponentText, fractionText]
      · next hlong =>
          have hdrop : digits.drop point.toNat ≠ [] := by
            rw [ne_eq, List.drop_eq_nil_iff]
            exact hlong
          simp [text, exponentText, fractionText_of_ne_nil hdrop]

theorem wellFormed_laidOut (negative : Bool) {digits : List Char} (hne : digits ≠ [])
    (hdigit : ∀ c ∈ digits, c.isDigit) (hlead : digits.head? ≠ some '0') (point : Int) :
    (laidOut negative digits point).WellFormed := by
  have hexponent : ∀ e ∈ some (writtenExponent (point - 1)), e.2 ≠ [] ∧ ∀ c ∈ e.2, c.isDigit := by
    intro e he
    obtain rfl := Option.some.inj he
    exact ⟨exponentDigits_ne_nil _, fun c => isDigit_of_mem_exponentDigits⟩
  have hzeros : ∀ n, ∀ c ∈ List.replicate n '0', c.isDigit := by
    intro n c hmem
    rw [List.eq_of_mem_replicate hmem]
    decide
  have hnone : ∀ e ∈ (none : Option (Bool × List Char)), e.2 ≠ [] ∧ ∀ c ∈ e.2, c.isDigit := by
    simp
  cases digits with
  | nil => exact absurd rfl hne
  | cons d digits =>
      rw [laidOut]
      split
      · exact ⟨fun c hmem => hdigit c (List.mem_of_mem_take hmem), by simp, Or.inr hlead,
          fun c hmem => hdigit c (List.mem_of_mem_drop hmem), hexponent⟩
      · split
        · refine ⟨by simp, by simp, Or.inl rfl, ?_, hnone⟩
          intro c hmem
          rcases List.mem_append.mp hmem with hmem | hmem
          · exact hzeros _ c hmem
          · exact hdigit c hmem
        · split
          · refine ⟨?_, by simp, Or.inr (by simpa using hlead), by simp, hnone⟩
            intro c hmem
            rcases List.mem_append.mp hmem with hmem | hmem
            · exact hdigit c hmem
            · exact hzeros _ c hmem
          · next hpositive _ =>
              obtain ⟨n, hn⟩ : ∃ n, point.toNat = n + 1 := ⟨point.toNat - 1, by omega⟩
              rw [hn]
              exact ⟨fun c hmem => hdigit c (List.mem_of_mem_take hmem), by simp, Or.inr hlead,
                fun c hmem => hdigit c (List.mem_of_mem_drop hmem), hnone⟩

theorem laidOut_isReal (negative : Bool) {digits : List Char} (hne : digits ≠ [])
    (point : Int) :
    (laidOut negative digits point).fraction ≠ [] ∨
      ((laidOut negative digits point).exponent.map exponentValue).isSome := by
  rw [laidOut]
  split
  · exact Or.inr (by simp)
  · split
    · exact Or.inl (by simp [hne])
    · split
      · exact Or.inl (by simp)
      · next hlong =>
          refine Or.inl ?_
          rw [ne_eq, List.drop_eq_nil_iff]
          exact hlong

/-- The parts stand for the digits and the point, with zeros behind them in one layout. -/
theorem laidOut_value (negative : Bool) {digits : List Char} (hne : digits ≠ [])
    (point : Int) :
    ∃ zeros : ℕ,
      valueOf ((laidOut negative digits point).whole ++
        (laidOut negative digits point).fraction) = valueOf digits * 10 ^ zeros ∧
      (((laidOut negative digits point).exponent.map exponentValue).map Prod.fst).getD 0 -
        (laidOut negative digits point).fraction.length =
          point - digits.length - zeros := by
  have hlength : 0 < digits.length := List.length_pos_iff.mpr hne
  rw [laidOut]
  split
  · refine ⟨0, by rw [List.take_append_drop, pow_zero, mul_one], ?_⟩
    simp only [Option.map_some, Option.getD_some, exponentValue_writtenExponent,
      List.length_drop]
    omega
  · split
    · refine ⟨0, ?_, ?_⟩
      · rw [← List.append_assoc]
        exact (Binary64.valueOf_zeros_append digits _).trans (Nat.mul_one _).symm
      · simp only [Option.map_none, Option.getD_none, List.length_append, List.length_replicate]
        omega
    · split
      · refine ⟨point.toNat - digits.length + 1, ?_, ?_⟩
        · rw [List.append_assoc, ← List.replicate_succ', Binary64.valueOf_append_zeros]
        · simp only [Option.map_none, Option.getD_none, List.length_singleton]
          omega
      · refine ⟨0, by simp, ?_⟩
        simp only [Option.map_none, Option.getD_none, List.length_drop]
        omega

/-- Digits that spell a number are read as the number, however they are laid out. -/
theorem readNumber_layout {negative : Bool} {m : ℕ} {e point : ℤ} {digits : List Char}
    (h : Binary64.Spells m e digits point) (hm : 0 < m) (hrep : Binary64.Representable m e)
    {rest : List Char} (hrest : Delimited rest) :
    readNumber ((if negative then ['-'] else []) ++ Binary64.layout digits point ++ rest) =
      some (.ok (.real (.finite negative m e), rest)) := by
  have hn := wellFormed_laidOut negative h.ne_nil h.digit h.leading point
  obtain ⟨zeros, hdigits, hexponent⟩ := laidOut_value negative h.ne_nil point
  have hnegative : (laidOut negative digits point).negative = negative := by
    simp only [laidOut, apply_ite Numeral.negative, ite_self]
  rw [← text_laidOut negative h.ne_nil, readNumber_text hn hrest,
    valueOfParts_real _ _ _ _ _ (laidOut_isReal negative h.ne_nil point), hdigits, hexponent,
    hnegative, h.ofDecimal_eq hm hrep]

/-- Every finite number is read back as itself, and zero with its sign. -/
theorem readNumber_finite (negative : Bool) {m : ℕ} {e : ℤ}
    (hrep : Binary64.Representable m e) {rest : List Char} (hrest : Delimited rest) :
    readNumber ((Binary64.toText (.finite negative m e)).toList ++ rest) =
      some (.ok (.real (.finite negative m e), rest)) := by
  rcases Nat.eq_zero_or_pos m with rfl | hm
  · have he : e = Binary64.minExponent := hrep.tight.resolve_right (by decide)
    subst he
    have hn : WellFormed { negative, whole := ['0'], fraction := ['0'] } :=
      ⟨by simp, by simp, Or.inl rfl, by simp, by simp⟩
    have hread := readNumber_text hn hrest
    rw [valueOfParts_real _ _ _ _ _ (Or.inl (by simp))] at hread
    have htext : (Binary64.toText (.finite negative 0 Binary64.minExponent)).toList =
        text { negative, whole := ['0'], fraction := ['0'] } := by
      cases negative <;> rfl
    rw [htext, hread]
    rfl
  · have htext : (Binary64.toText (.finite negative m e)).toList =
        (if negative then ['-'] else []) ++
          Binary64.layout (Binary64.shortestDigits m e).1 (Binary64.shortestDigits m e).2 := by
      have hne : (m == 0) = false := by simpa using hm.ne'
      rw [Binary64.toText]
      cases negative <;> simp [hne]
    rw [htext]
    exact readNumber_layout (Binary64.spells_shortestDigits hm e) hm hrep hrest

end RepoAtlas.Json
