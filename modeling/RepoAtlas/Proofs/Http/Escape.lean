import RepoAtlas.Http.Address
import RepoAtlas.Proofs.Hash.Digest
import RepoAtlas.Proofs.Text.Ends

/-!
Percent signs and the steps of a path: writing a text with percent signs, once
for its path and once for the address, makes no step and takes none away.
-/
namespace RepoAtlas

open Text (splitAt splitAt_append_cons splitAt_of_none splitAt_ne_nil splitOnChar)

namespace Percent

theorem isHexDigit_toUpper : ∀ n < 16, (Nat.digitChar n).toUpper.isAlphanum = true ∧
    Address.isHexDigit (Nat.digitChar n).toUpper = true := by
  decide

/-- A byte is written with a percent sign and two digits. -/
theorem escapeByte_eq (b : UInt8) :
    ∃ x y, escapeByte b = ['%', x, y] ∧ (x.isAlphanum = true ∧ y.isAlphanum = true) ∧
      Address.isHexDigit x = true ∧ Address.isHexDigit y = true := by
  have hlength : (Text.hexText 2 b.toNat).length = 2 := Text.length_hexText (by decide) b.toNat_lt
  have hdigits := fun c (hmem : c ∈ Text.hexText 2 b.toNat) => Text.isHexDigit_of_mem_hexText hmem
  rw [escapeByte]
  generalize Text.hexText 2 b.toNat = digits at hlength hdigits
  match digits, hlength with
  | [x, y], _ =>
      obtain ⟨m, hm, rfl⟩ := hdigits x (by simp)
      obtain ⟨n, hn, rfl⟩ := hdigits y (by simp)
      have hx := isHexDigit_toUpper m hm
      have hy := isHexDigit_toUpper n hn
      exact ⟨_, _, rfl, ⟨hx.1, hy.1⟩, hx.2, hy.2⟩

/-- What a character becomes: itself, or bytes with percent signs. -/
theorem escapeChar_cases (safe : List Char) (c : Char) :
    ((isUnreserved c = true ∨ c ∈ safe) ∧ escapeChar safe c = [c]) ∨
      (isUnreserved c = false ∧ escapeChar safe c = (Utf8.encodeChar c).flatMap escapeByte) := by
  cases hc : isUnreserved c with
  | true => simp [escapeChar, hc]
  | false =>
      by_cases hsafe : c ∈ safe
      · simp [escapeChar, hsafe]
      · simp [escapeChar, hc, hsafe]

theorem mem_escapeChar {safe : List Char} {c d : Char} (h : d ∈ escapeChar safe c) :
    (isUnreserved d = true ∨ d ∈ safe) ∨ d = '%' := by
  rcases escapeChar_cases safe c with ⟨hc, heq⟩ | ⟨-, heq⟩
  · rw [heq, List.mem_singleton] at h
    exact .inl (h ▸ hc)
  · rw [heq] at h
    obtain ⟨b, -, hb⟩ := List.mem_flatMap.mp h
    obtain ⟨x, y, hbyte, ⟨hx, hy⟩, -⟩ := escapeByte_eq b
    rw [hbyte] at hb
    simp only [List.mem_cons, List.not_mem_nil, or_false] at hb
    rcases hb with rfl | rfl | rfl
    · exact .inr rfl
    · exact .inl (.inl (by simp [isUnreserved, hx]))
    · exact .inl (.inl (by simp [isUnreserved, hy]))

theorem mem_quote {safe : List Char} {s : String} {d : Char} (h : d ∈ (quote safe s).toList) :
    (isUnreserved d = true ∨ d ∈ safe) ∨ d = '%' := by
  rw [quote, String.toList_ofList] at h
  obtain ⟨c, -, hd⟩ := List.mem_flatMap.mp h
  exact mem_escapeChar hd

theorem not_slash_of_mem_escapeChar {c d : Char} (h : d ∈ escapeChar [] c) :
    (d == '/') = false := by
  rw [beq_eq_false_iff_ne]
  rintro rfl
  rcases mem_escapeChar h with hkept | heq
  · exact absurd hkept (by decide)
  · exact absurd heq (by decide)

/-- The parts of a path are written one by one. -/
theorem splitAt_flatMap_escapeChar (s : List Char) :
    splitAt (· == '/') (s.flatMap (escapeChar ['/'])) =
      (splitAt (· == '/') s).map fun part => part.flatMap (escapeChar []) := by
  induction s with
  | nil => rfl
  | cons c s ih =>
      rw [List.flatMap_cons]
      by_cases hc : c = '/'
      · subst hc
        have hslash : escapeChar ['/'] '/' = ['/'] := by decide
        rw [hslash, List.singleton_append]
        simp [splitAt, ih]
      · have hword : escapeChar ['/'] c = escapeChar [] c := by simp [escapeChar, hc]
        obtain ⟨part, parts, hs, happend⟩ :=
          Text.splitAt_append fun d (hd : d ∈ escapeChar [] c) => not_slash_of_mem_escapeChar hd
        rw [hword, happend]
        cases hparts : splitAt (· == '/') s with
        | nil => exact absurd hparts (splitAt_ne_nil _ _)
        | cons first rest =>
            rw [ih, hparts, List.map_cons] at hs
            obtain ⟨rfl, rfl⟩ := List.cons.inj hs
            simp [splitAt, hparts, hc]

theorem splitOnChar_quotePath (s : String) :
    splitOnChar '/' (quotePath s) = (splitOnChar '/' s).map (quote []) := by
  rw [splitOnChar, splitOnChar, quotePath, quote, String.toList_ofList,
    splitAt_flatMap_escapeChar, List.map_map, List.map_map]
  refine List.map_congr_left fun part _ => ?_
  simp [quote]

theorem flatMap_escapeByte_ne_nil (c : Char) :
    ∃ rest, (Utf8.encodeChar c).flatMap escapeByte = '%' :: rest := by
  obtain ⟨b, bytes, hbytes⟩ : ∃ b bytes, Utf8.encodeChar c = b :: bytes := by
    unfold Utf8.encodeChar
    simp only
    repeat' split
    all_goals exact ⟨_, _, rfl⟩
  obtain ⟨x, y, hb, -⟩ := escapeByte_eq b
  rw [hbytes, List.flatMap_cons, hb]
  exact ⟨_, rfl⟩

/-- A text that is written without percent signs is written as it is. -/
theorem quote_eq_self {s : String} (h : '%' ∉ (quote [] s).toList) : quote [] s = s := by
  rw [quote, String.toList_ofList] at h
  have hsame : s.toList.flatMap (escapeChar []) = s.toList := by
    generalize s.toList = chars at h
    induction chars with
    | nil => rfl
    | cons c chars ih =>
        rw [List.flatMap_cons, List.mem_append, not_or] at h
        rw [List.flatMap_cons, ih h.2]
        rcases escapeChar_cases [] c with ⟨-, heq⟩ | ⟨-, heq⟩
        · rw [heq, List.singleton_append]
        · obtain ⟨rest, hrest⟩ := flatMap_escapeByte_ne_nil c
          rw [heq, hrest] at h
          exact absurd List.mem_cons_self h.1
  rw [quote, hsame, String.ofList_toList]

/-- No text but a step is written as that step. -/
theorem quote_eq_iff {s step : String} (hplain : quote [] step = step)
    (hpercent : '%' ∉ step.toList) : quote [] s = step ↔ s = step := by
  constructor
  · intro hquote
    have hsame : quote [] s = s := quote_eq_self (hquote ▸ hpercent)
    rw [← hsame, hquote]
  · rintro rfl
    exact hplain

end Percent

namespace Address

variable {special : List Char}

/-- Only a percent sign with two digits behind it stays as it is. -/
theorem escape_cons {c : Char} {rest : List Char}
    (h : c = '%' → ∀ a b more, rest = a :: b :: more → (isHexDigit a && isHexDigit b) = false) :
    escape special (c :: rest) = escape.escapeChar special c ++ escape special rest := by
  by_cases hc : c = '%'
  · subst hc
    match rest with
    | [] => rfl
    | [a] => rfl
    | a :: b :: more => rw [escape, h rfl a b more rfl, if_neg Bool.false_ne_true]
  · rw [escape]
    intro a b more heq
    exact absurd heq hc

theorem escapeChar_cases (special : List Char) (c : Char) :
    escape.escapeChar special c = [c] ∧ isPlain special c = true ∨
      escape.escapeChar special c = (Utf8.encodeChar c).flatMap Percent.escapeByte := by
  cases hc : isPlain special c <;> simp [escape.escapeChar, hc]

theorem mem_escapeChar {c d : Char} (h : d ∈ escape.escapeChar special c) :
    d = c ∨ d = '%' ∨ d.isAlphanum = true := by
  rcases escapeChar_cases special c with ⟨heq, -⟩ | heq
  · rw [heq, List.mem_singleton] at h
    exact .inl h
  · rw [heq] at h
    obtain ⟨b, -, hb⟩ := List.mem_flatMap.mp h
    obtain ⟨x, y, hbyte, ⟨hx, hy⟩, -⟩ := Percent.escapeByte_eq b
    rw [hbyte] at hb
    simp only [List.mem_cons, List.not_mem_nil, or_false] at hb
    rcases hb with rfl | rfl | rfl
    · exact .inr (.inl rfl)
    · exact .inr (.inr hx)
    · exact .inr (.inr hy)

/-- A slash cuts what is escaped: no percent sign reaches over it. -/
theorem escape_append_slash (hslash : isPlain special '/' = true) (front rest : List Char) :
    escape special (front ++ '/' :: rest) =
      escape special front ++ '/' :: escape special rest := by
  have hdigit : isHexDigit '/' = false := by decide
  fun_induction escape special front with
  | case1 =>
      rw [List.nil_append, escape_cons (by simp)]
      simp [escape.escapeChar, hslash]
  | case2 a b more hhex ih => simp [escape, hhex, ih]
  | case3 a b more hhex ih =>
      rw [List.cons_append, escape_cons, ih, List.append_assoc]
      intro _ x y others heq
      simp only [List.cons_append, List.cons.injEq] at heq
      obtain ⟨rfl, rfl, -⟩ := heq
      simpa using hhex
  | case4 c more hnot ih =>
      rw [List.cons_append, escape_cons, ih, List.append_assoc]
      intro hc x y others heq
      match more with
      | [] =>
          obtain ⟨rfl, -⟩ := List.cons.inj heq
          simp [hdigit]
      | [a] =>
          simp only [List.cons_append, List.nil_append, List.cons.injEq] at heq
          simp [← heq.2.1, hdigit]
      | a :: b :: others => exact absurd rfl (hnot a b others hc)

theorem mem_escape {s : List Char} {d : Char} (h : d ∈ escape special s) :
    d ∈ s ∨ d = '%' ∨ d.isAlphanum = true := by
  fun_induction escape special s with
  | case1 => cases h
  | case2 a b more hhex ih =>
      simp only [List.mem_cons] at h ⊢
      rcases h with rfl | rfl | rfl | h
      · simp
      · simp
      · simp
      · rcases ih h with hmem | hother
        · simp [hmem]
        · exact .inr hother
  | case3 a b more hhex ih =>
      rcases List.mem_append.mp h with h | h
      · rcases mem_escapeChar h with rfl | hother
        · exact .inl List.mem_cons_self
        · exact .inr hother
      · exact (ih h).imp_left (List.mem_cons_of_mem _)
  | case4 c more hnot ih =>
      rcases List.mem_append.mp h with h | h
      · rcases mem_escapeChar h with rfl | hother
        · exact .inl List.mem_cons_self
        · exact .inr hother
      · exact (ih h).imp_left (List.mem_cons_of_mem _)

/-- A text that is escaped without percent signs stays as it is. -/
theorem escape_eq_self {s : List Char} (h : '%' ∉ escape special s) : escape special s = s := by
  fun_induction escape special s with
  | case1 => rfl
  | case2 a b more hhex ih => exact absurd List.mem_cons_self h
  | case3 a b more hhex ih =>
      have hmem : '%' ∈ escape.escapeChar special '%' := by
        rcases escapeChar_cases special '%' with ⟨heq, -⟩ | heq
        · rw [heq]
          exact List.mem_cons_self
        · obtain ⟨rest, hrest⟩ := Percent.flatMap_escapeByte_ne_nil '%'
          rw [heq, hrest]
          exact List.mem_cons_self
      exact absurd (List.mem_append_left _ hmem) h
  | case4 c more hnot ih =>
      rw [List.mem_append, not_or] at h
      rw [ih h.2]
      rcases escapeChar_cases special c with ⟨heq, -⟩ | heq
      · rw [heq, List.singleton_append]
      · obtain ⟨rest, hrest⟩ := Percent.flatMap_escapeByte_ne_nil c
        rw [heq, hrest] at h
        exact absurd List.mem_cons_self h.1

/-- What may stand in a path before it is escaped once more may stand there after. -/
theorem isPlain_of_isUnreserved {c : Char} (h : Percent.isUnreserved c = true) :
    isPlain pathSpecial c = true := by
  have hspecial : c ∉ pathSpecial := by
    have hnone : pathSpecial.all (fun d => !Percent.isUnreserved d) = true := by decide
    intro hmem
    have hc := List.all_eq_true.mp hnone c hmem
    rw [h] at hc
    cases hc
  have hbounds : 33 ≤ c.toNat ∧ c.toNat < 127 := by
    simp only [Percent.isUnreserved, Bool.or_eq_true, beq_iff_eq] at h
    rcases h with (((hletter | rfl) | rfl) | rfl) | rfl
    · exact Text.bounds_of_isAlphanum hletter
    all_goals decide
  simp [isPlain, hbounds, hspecial]

theorem escape_bytes (bytes : List UInt8) (rest : List Char) :
    escape special (bytes.flatMap Percent.escapeByte ++ rest) =
      bytes.flatMap Percent.escapeByte ++ escape special rest := by
  induction bytes with
  | nil => rfl
  | cons b bytes ih =>
      obtain ⟨x, y, hb, -, hx, hy⟩ := Percent.escapeByte_eq b
      rw [List.flatMap_cons, hb, List.append_assoc]
      simp [escape, hx, hy, ih]

/-- What has been written with percent signs is not written so again. -/
theorem escape_flatMap_escapeChar (s : List Char) :
    escape pathSpecial (s.flatMap (Percent.escapeChar [])) =
      s.flatMap (Percent.escapeChar []) := by
  induction s with
  | nil => rfl
  | cons c s ih =>
      rw [List.flatMap_cons]
      rcases Percent.escapeChar_cases [] c with ⟨hkept, heq⟩ | ⟨-, heq⟩
      · have hc : Percent.isUnreserved c = true := by simpa using hkept
        have hnot : c ≠ '%' := by
          rintro rfl
          exact absurd hc (by decide)
        rw [heq, List.singleton_append, escape_cons fun hpercent => absurd hpercent hnot, ih]
        simp [escape.escapeChar, isPlain_of_isUnreserved hc]
      · rw [heq, escape_bytes, ih]

theorem escapeText_quote (s : String) :
    escapeText pathSpecial (Percent.quote [] s) = Percent.quote [] s := by
  rw [escapeText, Percent.quote, String.toList_ofList, escape_flatMap_escapeChar]

theorem escapeText_append_slash (a b : String) :
    escapeText pathSpecial (a ++ "/" ++ b) =
      escapeText pathSpecial a ++ "/" ++ escapeText pathSpecial b := by
  rw [escapeText, Text.toList_append_slash, escape_append_slash (by decide),
    Text.ofList_append_slash]
  rfl

theorem escapeText_intercalate (parts : List String) :
    escapeText pathSpecial ("/".intercalate parts) =
      "/".intercalate (parts.map (escapeText pathSpecial)) := by
  induction parts with
  | nil => rfl
  | cons part parts ih =>
      cases parts with
      | nil => rw [String.intercalate_singleton, List.map_singleton, String.intercalate_singleton]
      | cons next parts =>
          rw [String.intercalate_cons_cons, escapeText_append_slash, ih]
          simp only [List.map_cons, String.intercalate_cons_cons]

theorem not_slash_mem_escapeText {s : String} (h : '/' ∉ s.toList) :
    '/' ∉ (escapeText special s).toList := by
  rw [escapeText, String.toList_ofList]
  intro hmem
  rcases mem_escape hmem with hs | heq | halpha
  · exact h hs
  · exact absurd heq (by decide)
  · exact absurd halpha (by decide)

/-- No name but a step is escaped as that step. -/
theorem eq_of_escapeText {s step : String} (hpercent : '%' ∉ step.toList)
    (h : escapeText special s = step) : s = step := by
  have hsame : escapeText special s = s := by
    rw [← h, escapeText, String.toList_ofList] at hpercent
    rw [escapeText, escape_eq_self hpercent, String.ofList_toList]
  rw [← hsame, h]

end Address

end RepoAtlas
