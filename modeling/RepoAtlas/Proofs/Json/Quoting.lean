import RepoAtlas.Json.Reader
import RepoAtlas.Json.Writer
import RepoAtlas.Proofs.Text.Loose
import RepoAtlas.Proofs.Text.Utf8

/-!
Strings of a document. Whatever characters a string has, what is written for it
is read as the string.
-/
namespace RepoAtlas.Json

open LooseText (ofChars ofString)

theorem hexValue?_digitChar : ∀ n < 16, hexValue? (Nat.digitChar n) = some n := by
  decide

theorem hexValue?_hexDigit (n : Nat) : hexValue? (hexDigit n) = some (n % 16) :=
  hexValue?_digitChar _ (Nat.mod_lt n (by decide))

/-- Four hexadecimal digits are read as the unit they were written for. -/
theorem unit?_hexDigits {n : Nat} (hn : n < 65536) (rest : LooseText) :
    unit? (.char (hexDigit (n / 4096)) :: .char (hexDigit (n / 256)) ::
      .char (hexDigit (n / 16)) :: .char (hexDigit n) :: rest) = some (n, rest) := by
  simp only [unit?, hexValue?_hexDigit]
  congr 2
  omega

/-- A unit that stands for a character alone. -/
theorem pointOfUnit_toNat (c : Char) (rest : LooseText) :
    pointOfUnit c.toNat rest = (.char c, rest) := by
  have hvalid := toNat_char_cases c
  have hfirst : (decide (55296 ≤ c.toNat) && decide (c.toNat < 56320)) = false := by
    simp only [Bool.and_eq_false_iff, decide_eq_false_iff_not]
    omega
  have hsurrogate : ¬(0xd800 ≤ c.toNat ∧ c.toNat < 0xe000) := by omega
  unfold pointOfUnit
  rw [hfirst, CodePoint.ofNat, dif_neg hsurrogate, Char.ofNat_toNat]
  rfl

/-- A pair of units stands for one character beyond the others. -/
theorem pointOfUnit_pair {n : Nat} (hn : n < 1048576) (rest : LooseText) :
    pointOfUnit (55296 + n / 1024) (ofChars (unitEscape (56320 + n % 1024)) ++ rest) =
      (.char (Char.ofNat (65536 + n)), rest) := by
  have hfirst : (decide (55296 ≤ 55296 + n / 1024) && decide (55296 + n / 1024 < 56320)) =
      true := by
    simp only [Bool.and_eq_true, decide_eq_true_eq]
    omega
  have hsecond : (decide (56320 ≤ 56320 + n % 1024) && decide (56320 + n % 1024 < 57344)) =
      true := by
    simp only [Bool.and_eq_true, decide_eq_true_eq]
    omega
  have hsum : 65536 + (55296 + n / 1024 - 55296) * 1024 + (56320 + n % 1024 - 56320) =
      65536 + n := by
    omega
  simp only [pointOfUnit, unitEscape, LooseText.ofChars_cons, LooseText.ofChars_nil,
    List.cons_append, List.nil_append, hfirst, if_true,
    unit?_hexDigits (show 56320 + n % 1024 < 65536 by omega), hsecond, hsum]

/-- A step of reading that goes past one code point. -/
def prepend (point : CodePoint) : Read LooseText → Read LooseText
  | .error err => .error err
  | .ok (points, left) => .ok (point :: points, left)

theorem readPoints_simple {opened fuel : Nat} {e c : Char} {rest : LooseText}
    (hunit : e ≠ 'u') (hescape : simpleEscape? e = some c) :
    readPoints opened (fuel + 1) (.char '\\' :: .char e :: rest) =
      prepend (.char c) (readPoints opened fuel rest) := by
  rw [readPoints]
  simp only [beq_iff_eq, hunit, hescape, if_false, if_true, Char.reduceEq]
  rfl

theorem readPoints_unit {opened fuel n : Nat} (hn : n < 65536) (rest : LooseText) :
    readPoints opened (fuel + 1) (ofChars (unitEscape n) ++ rest) =
      prepend (pointOfUnit n rest).1 (readPoints opened fuel (pointOfUnit n rest).2) := by
  rw [unitEscape]
  simp only [LooseText.ofChars_cons, LooseText.ofChars_nil, List.cons_append, List.nil_append,
    readPoints, unit?_hexDigits hn]
  rfl

/-- One character is read in one step, also where two escapes were written for it. -/
theorem readPoints_escapeChar (opened fuel : Nat) (c : Char) (rest : LooseText) :
    readPoints opened (fuel + 1) (ofChars (escapeChar c) ++ rest) =
      prepend (.char c) (readPoints opened fuel rest) := by
  rw [escapeChar]
  by_cases hquote : c == '"'
  · obtain rfl := beq_iff_eq.mp hquote
    exact readPoints_simple (by decide) rfl
  rw [if_neg hquote]
  by_cases hslash : c == '\\'
  · obtain rfl := beq_iff_eq.mp hslash
    exact readPoints_simple (by decide) rfl
  rw [if_neg hslash]
  by_cases hfeed : c == '\n'
  · obtain rfl := beq_iff_eq.mp hfeed
    exact readPoints_simple (by decide) rfl
  rw [if_neg hfeed]
  by_cases hreturn : c == '\r'
  · obtain rfl := beq_iff_eq.mp hreturn
    exact readPoints_simple (by decide) rfl
  rw [if_neg hreturn]
  by_cases htab : c == '\t'
  · obtain rfl := beq_iff_eq.mp htab
    exact readPoints_simple (by decide) rfl
  rw [if_neg htab]
  by_cases hform : c.toNat == 12
  · obtain rfl : c = Char.ofNat 12 := Char.toNat_inj.mp (beq_iff_eq.mp hform)
    exact readPoints_simple (by decide) rfl
  rw [if_neg hform]
  by_cases hback : c.toNat == 8
  · obtain rfl : c = Char.ofNat 8 := Char.toNat_inj.mp (beq_iff_eq.mp hback)
    exact readPoints_simple (by decide) rfl
  rw [if_neg hback]
  by_cases hplain : 32 ≤ c.toNat && c.toNat ≤ 126
  · have hspace : ¬c.toNat < 32 := by
      simp only [Bool.and_eq_true, decide_eq_true_eq] at hplain
      omega
    rw [if_pos hplain]
    simp only [LooseText.ofChars_cons, LooseText.ofChars_nil, List.singleton_append, readPoints,
      hquote, hslash, hspace, if_false, Bool.false_eq_true]
    rfl
  rw [if_neg hplain]
  by_cases hbmp : c.toNat < 65536
  · rw [if_pos hbmp, readPoints_unit hbmp, pointOfUnit_toNat]
  · have hvalid := toNat_char_cases c
    have hsum : 65536 + (c.toNat - 65536) = c.toNat := by omega
    rw [if_neg hbmp, LooseText.ofChars_append, List.append_assoc, readPoints_unit (by omega),
      pointOfUnit_pair (by omega), hsum, Char.ofNat_toNat]

/-- What is written for a character is not empty: reading it moves on. -/
theorem escapeChar_ne_nil (c : Char) : escapeChar c ≠ [] := by
  intro hnil
  have hread := readPoints_escapeChar 0 1 c [.char '"']
  rw [hnil] at hread
  cases hread

theorem length_le_length_escape (s : List Char) : s.length ≤ (s.flatMap escapeChar).length := by
  induction s with
  | nil => exact Nat.le_refl _
  | cons c s ih =>
      have hpos : 0 < (escapeChar c).length := List.length_pos_iff.mpr (escapeChar_ne_nil c)
      rw [List.flatMap_cons, List.length_append, List.length_cons]
      omega

/-- Reading a string inverts writing it, up to the closing quote. -/
theorem readPoints_escape (opened : Nat) {fuel : Nat} (s : List Char) (rest : LooseText)
    (hfuel : s.length < fuel) :
    readPoints opened fuel (ofChars (s.flatMap escapeChar) ++ .char '"' :: rest) =
      .ok (ofChars s, rest) := by
  induction s generalizing fuel with
  | nil =>
      obtain ⟨fuel, rfl⟩ : ∃ k, fuel = k + 1 := ⟨fuel - 1, by simp at hfuel; omega⟩
      rfl
  | cons c s ih =>
      rw [List.length_cons] at hfuel
      obtain ⟨fuel, rfl⟩ : ∃ k, fuel = k + 1 := ⟨fuel - 1, by omega⟩
      rw [List.flatMap_cons, LooseText.ofChars_append, List.append_assoc, readPoints_escapeChar,
        ih (by omega)]
      rfl

theorem readString_escape (s : String) (rest : LooseText) :
    readString (ofChars (s.toList.flatMap escapeChar) ++ .char '"' :: rest) =
      .ok (ofString s, rest) := by
  rw [readString, readPoints_escape]
  · rfl
  · have := length_le_length_escape s.toList
    rw [List.length_append, LooseText.length_ofChars, List.length_cons]
    omega

theorem escapeString_append (s : String) (rest : LooseText) :
    ofChars (escapeString s.toList) ++ rest =
      .char '"' :: (ofChars (s.toList.flatMap escapeChar) ++ .char '"' :: rest) := by
  simp [escapeString]

end RepoAtlas.Json
