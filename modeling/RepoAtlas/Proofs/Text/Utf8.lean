import Mathlib.Algebra.Group.Nat.Defs
import RepoAtlas.Proofs.Text.Loose
import RepoAtlas.Text.Utf8

/-!
Text as bytes and back: what is written for a text is read as the text.
-/
namespace RepoAtlas

/-- No character is half of a pair of units, and none lies beyond the last. -/
theorem toNat_char_cases (c : Char) :
    c.toNat < 55296 ∨ 57343 < c.toNat ∧ c.toNat < 1114112 :=
  c.valid

namespace Utf8

theorem toNat_byte {n : Nat} (hn : n < 256) : (UInt8.ofNat n).toNat = n := by
  rw [UInt8.toNat_ofNat']
  exact Nat.mod_eq_of_lt hn

theorem lengthFrom_eq (b : UInt8) :
    lengthFrom b =
      if b.toNat < 128 then 1
      else if b.toNat < 194 then 0
      else if b.toNat < 224 then 2
      else if b.toNat < 240 then 3
      else if b.toNat < 245 then 4
      else 0 :=
  rfl

theorem isContinuation_eq (b : UInt8) :
    isContinuation b = (decide (128 ≤ b.toNat) && decide (b.toNat < 192)) :=
  rfl

theorem maySecond_of {first second : UInt8} (hsecond : isContinuation second)
    (hshort : first.toNat = 224 → 160 ≤ second.toNat)
    (hhalf : first.toNat = 237 → second.toNat < 160)
    (hlong : first.toNat = 240 → 144 ≤ second.toNat)
    (hlast : first.toNat = 244 → second.toNat < 144) : maySecond first second := by
  simp only [maySecond, hsecond, UInt8.lt_iff_toNat_lt, UInt8.le_iff_toNat_le,
    ← UInt8.toNat_inj, Bool.true_and, Bool.and_eq_true, Bool.not_eq_true', Bool.and_eq_false_iff,
    beq_eq_false_iff_ne, ne_eq, decide_eq_false_iff_not, UInt8.reduceToNat]
  omega

/-- The byte that carries six bits of a number. -/
def more (n i : Nat) : UInt8 :=
  UInt8.ofNat (128 + n / Nat.pow 64 i % 64)

theorem toNat_more (n i : Nat) : (more n i).toNat = 128 + n / 64 ^ i % 64 :=
  toNat_byte (by rw [Nat.pow_eq]; omega)

theorem isContinuation_more (n i : Nat) : isContinuation (more n i) := by
  rw [isContinuation_eq, toNat_more]
  simp only [Bool.and_eq_true, decide_eq_true_eq]
  omega

theorem payload_more (n i : Nat) : payload (more n i) = n / 64 ^ i % 64 := by
  rw [payload, toNat_more]
  omega

section Sequences

variable {first second third fourth : UInt8}

theorem stepAfter_one (hlength : lengthFrom first = 1) (rest : List UInt8) :
    stepAfter first rest = .char (Char.ofNat first.toNat) 1 := by
  simp only [stepAfter, hlength]

theorem stepAfter_two (hlength : lengthFrom first = 2) (hsecond : maySecond first second)
    (rest : List UInt8) :
    stepAfter first (second :: rest) =
      .char (Char.ofNat (first.toNat % 32 * 64 + payload second)) 2 := by
  simp only [stepAfter, hlength, hsecond, Bool.not_true, Bool.false_eq_true, if_false,
    beq_self_eq_true, if_true]

theorem stepAfter_three (hlength : lengthFrom first = 3) (hsecond : maySecond first second)
    (hthird : isContinuation third) (rest : List UInt8) :
    stepAfter first (second :: third :: rest) =
      .char (Char.ofNat ((first.toNat % 16 * 64 + payload second) * 64 + payload third)) 3 := by
  simp only [stepAfter, hlength, hsecond, hthird, Bool.not_true, Bool.false_eq_true, if_false,
    beq_self_eq_true, if_true]
  rfl

theorem stepAfter_four (hlength : lengthFrom first = 4) (hsecond : maySecond first second)
    (hthird : isContinuation third) (hfourth : isContinuation fourth) (rest : List UInt8) :
    stepAfter first (second :: third :: fourth :: rest) =
      .char (Char.ofNat (((first.toNat % 8 * 64 + payload second) * 64 + payload third) * 64 +
        payload fourth)) 4 := by
  simp only [stepAfter, hlength, hsecond, hthird, hfourth, Bool.not_true, Bool.false_eq_true,
    if_false]
  rfl

end Sequences

section Numbers

variable {n : Nat}

theorem stepAfter_below_128 (hn : n < 128) (rest : List UInt8) :
    stepAfter (UInt8.ofNat n) rest = .char (Char.ofNat n) 1 := by
  have hfirst : (UInt8.ofNat n).toNat = n := toNat_byte (by omega)
  have hlength : lengthFrom (UInt8.ofNat n) = 1 := by
    rw [lengthFrom_eq, hfirst, if_pos hn]
  rw [stepAfter_one hlength, hfirst]

theorem stepAfter_below_2048 (hlow : 128 ≤ n) (hn : n < 2048) (rest : List UInt8) :
    stepAfter (UInt8.ofNat (192 + n / 64)) (more n 0 :: rest) = .char (Char.ofNat n) 2 := by
  have hfirst : (UInt8.ofNat (192 + n / 64)).toNat = 192 + n / 64 := toNat_byte (by omega)
  generalize UInt8.ofNat (192 + n / 64) = first at hfirst
  have hlength : lengthFrom first = 2 := by
    rw [lengthFrom_eq, hfirst, if_neg (by omega), if_neg (by omega), if_pos (by omega)]
  have hsecond : maySecond first (more n 0) :=
    maySecond_of (isContinuation_more n 0) (by omega) (by omega) (by omega) (by omega)
  have hvalue : (192 + n / 64) % 32 * 64 + n / 64 ^ 0 % 64 = n := by omega
  rw [stepAfter_two hlength hsecond, hfirst, payload_more, hvalue]

/-- Numbers of halves of pairs aside, which take three bytes as well. -/
theorem stepAfter_below_65536 (hlow : 2048 ≤ n) (hn : n < 65536)
    (hvalid : n < 55296 ∨ 57343 < n) (rest : List UInt8) :
    stepAfter (UInt8.ofNat (224 + n / 4096)) (more n 1 :: more n 0 :: rest) =
      .char (Char.ofNat n) 3 := by
  have hfirst : (UInt8.ofNat (224 + n / 4096)).toNat = 224 + n / 4096 := toNat_byte (by omega)
  generalize UInt8.ofNat (224 + n / 4096) = first at hfirst
  have hlength : lengthFrom first = 3 := by
    rw [lengthFrom_eq, hfirst, if_neg (by omega), if_neg (by omega), if_neg (by omega),
      if_pos (by omega)]
  have hsecond : maySecond first (more n 1) := by
    have htail := toNat_more n 1
    exact maySecond_of (isContinuation_more n 1) (by omega) (by omega) (by omega) (by omega)
  have hvalue : ((224 + n / 4096) % 16 * 64 + n / 64 ^ 1 % 64) * 64 + n / 64 ^ 0 % 64 = n := by
    omega
  rw [stepAfter_three hlength hsecond (isContinuation_more n 0), hfirst, payload_more,
    payload_more, hvalue]

theorem stepAfter_below_1114112 (hlow : 65536 ≤ n) (hn : n < 1114112) (rest : List UInt8) :
    stepAfter (UInt8.ofNat (240 + n / 262144)) (more n 2 :: more n 1 :: more n 0 :: rest) =
      .char (Char.ofNat n) 4 := by
  have hfirst : (UInt8.ofNat (240 + n / 262144)).toNat = 240 + n / 262144 :=
    toNat_byte (by omega)
  generalize UInt8.ofNat (240 + n / 262144) = first at hfirst
  have hlength : lengthFrom first = 4 := by
    rw [lengthFrom_eq, hfirst, if_neg (by omega), if_neg (by omega), if_neg (by omega),
      if_neg (by omega), if_pos (by omega)]
  have hsecond : maySecond first (more n 2) := by
    have htail := toNat_more n 2
    exact maySecond_of (isContinuation_more n 2) (by omega) (by omega) (by omega) (by omega)
  have hvalue : (((240 + n / 262144) % 8 * 64 + n / 64 ^ 2 % 64) * 64 + n / 64 ^ 1 % 64) * 64 +
      n / 64 ^ 0 % 64 = n := by
    omega
  rw [stepAfter_four hlength hsecond (isContinuation_more n 1) (isContinuation_more n 0), hfirst,
    payload_more, payload_more, payload_more, hvalue]

end Numbers

/-- What is written for a character begins with the character. -/
theorem stepAfter_encodeChar (c : Char) :
    ∃ b tail, encodeChar c = b :: tail ∧
      ∀ rest, stepAfter b (tail ++ rest) = .char c (tail.length + 1) := by
  have hvalid := toNat_char_cases c
  have hc : Char.ofNat c.toNat = c := Char.ofNat_toNat c
  generalize hn : c.toNat = n at hvalid hc
  rw [encodeChar, hn, ← hc]
  by_cases hone : n < 128
  · exact ⟨_, _, if_pos hone, stepAfter_below_128 hone⟩
  rw [if_neg hone]
  by_cases htwo : n < 2048
  · exact ⟨_, _, if_pos htwo, stepAfter_below_2048 (by omega) htwo⟩
  rw [if_neg htwo]
  by_cases hthree : n < 65536
  · exact ⟨_, _, if_pos hthree, stepAfter_below_65536 (by omega) hthree (by omega)⟩
  · exact ⟨_, _, if_neg hthree, stepAfter_below_1114112 (by omega) (by omega)⟩

theorem decodeFrom_skip (offset : Nat) (bytes rest : List UInt8) :
    decodeFrom offset bytes.length (bytes ++ rest) = decodeFrom (offset + bytes.length) 0 rest := by
  induction bytes generalizing offset with
  | nil => rfl
  | cons b bytes ih =>
      rw [List.length_cons, List.cons_append, decodeFrom, ih]
      congr 1
      omega

/-- Reading bytes inverts writing a text, wherever the bytes stand. -/
theorem decodeFrom_flatMap (offset : Nat) (s : List Char) :
    decodeFrom offset 0 (s.flatMap encodeChar) = .ok s := by
  induction s generalizing offset with
  | nil => rfl
  | cons c s ih =>
      obtain ⟨b, tail, hencode, hstep⟩ := stepAfter_encodeChar c
      rw [List.flatMap_cons, hencode, List.cons_append, decodeFrom, hstep]
      simp only [Nat.add_sub_cancel, decodeFrom_skip, ih]

theorem decode_encode (s : String) : decode (encode s) = .ok s.toList :=
  decodeFrom_flatMap 0 s.toList

/-- Bytes that are read begin with a character, behind which the rest is read. -/
theorem exists_char_of_decodeFrom {b : UInt8} {bytes : List UInt8} {offset : Nat}
    {chars : List Char} (h : decodeFrom offset 0 (b :: bytes) = .ok chars) :
    ∃ c length more, stepAfter b bytes = .char c length ∧
      decodeFrom (offset + 1) (length - 1) bytes = .ok more ∧ chars = c :: more := by
  rw [decodeFrom] at h
  cases hstep : stepAfter b bytes with
  | fault kind length =>
      rw [hstep] at h
      cases h
  | char c length =>
      rw [hstep] at h
      simp only at h
      cases hrest : decodeFrom (offset + 1) (length - 1) bytes with
      | error fault =>
          rw [hrest] at h
          cases h
      | ok more =>
          rw [hrest] at h
          exact ⟨c, length, more, rfl, hrest, (Except.ok.inj h).symm⟩

/-- What is no text shows as a mark, so what is one is read without any. -/
theorem decodeLossyFrom_of_decodeFrom {bytes : List UInt8} {offset skip : Nat}
    {chars : List Char} (h : decodeFrom offset skip bytes = .ok chars) :
    decodeLossyFrom skip bytes = chars := by
  induction bytes generalizing offset skip chars with
  | nil =>
      cases skip <;> exact Except.ok.inj h
  | cons b bytes ih =>
      cases skip with
      | succ skip => exact ih h
      | zero =>
          obtain ⟨c, length, more, hstep, hrest, rfl⟩ := exists_char_of_decodeFrom h
          rw [decodeLossyFrom, hstep]
          simp only [ih hrest]

/-- What can be read strictly is read loosely as the same. -/
theorem decodeLooseFrom?_of_decodeFrom {bytes : List UInt8} {offset skip : Nat}
    {chars : List Char} (h : decodeFrom offset skip bytes = .ok chars) :
    decodeLooseFrom? skip bytes = some (.ofChars chars) := by
  induction bytes generalizing offset skip chars with
  | nil =>
      cases skip <;> exact congrArg (some ∘ LooseText.ofChars) (Except.ok.inj h)
  | cons b bytes ih =>
      cases skip with
      | succ skip => exact ih h
      | zero =>
          obtain ⟨c, length, more, hstep, hrest, rfl⟩ := exists_char_of_decodeFrom h
          rw [decodeLooseFrom?, hstep]
          simp only [ih hrest]
          rfl

theorem decodeLoose?_encode (s : String) : decodeLoose? (encode s) = some (.ofString s) :=
  decodeLooseFrom?_of_decodeFrom (decode_encode s)

end Utf8

end RepoAtlas
