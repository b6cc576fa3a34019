import RepoAtlas.Proofs.Text.Parts

/-!
Lower case and the signs between words: signs stay where they are, no letter
becomes one, and what stands on the two sides of a slash has nothing to do with each
other. Only for a capital sigma do the letters around it count.
-/
namespace RepoAtlas.Unicode

/-- Whether a character is a sign of ASCII that stands before the letters. -/
def IsSign (c : Char) : Prop :=
  0 < c.toNat ∧ c.toNat < 65

instance (c : Char) : Decidable (IsSign c) :=
  inferInstanceAs (Decidable (0 < c.toNat ∧ c.toNat < 65))

theorem toLower_of_isSign {c : Char} (hascii : c.toNat < 128) (hsign : IsSign c.toLower) :
    c.toLower = c := by
  have hall : ∀ n < 128, (Char.ofNat n).toLower.toNat < 65 →
      (Char.ofNat n).toLower = Char.ofNat n := by
    decide +kernel
  rw [← Char.ofNat_toNat c] at hsign ⊢
  exact hall c.toNat hascii hsign.2

theorem lt_of_isSign_ofNat {n : Nat} (h : IsSign (Char.ofNat n)) : n < 65 := by
  by_cases hvalid : n.isValidChar
  · rw [Char.ofNat, dif_pos hvalid] at h
    exact h.2
  · rw [Char.ofNat, dif_neg hvalid] at h
    exact absurd h.1 (Nat.lt_irrefl 0)

/-- No capital letter becomes a sign. -/
theorem shifted_of_isSign {c : Char} (hsign : IsSign (shifted lowerRuns c)) :
    shifted lowerRuns c = c := by
  have hruns : ∀ r ∈ lowerRuns.toList, 65 ≤ (r.first : Int) + r.shift := by
    decide +kernel
  rw [shifted] at hsign ⊢
  cases hrun : runOf? lowerRuns c.toNat with
  | none => rfl
  | some r =>
      rw [hrun] at hsign
      have hlow := hruns r (Array.mem_def.mp (Array.mem_of_find?_eq_some hrun))
      have hrange := Array.find?_some hrun
      simp only [Bool.and_eq_true, decide_eq_true_eq] at hrange
      have hlt := lt_of_isSign_ofNat hsign
      omega

theorem eq_of_mem_lowerChars {c d : Char} (hd : IsSign d) (hmem : d ∈ lowerChars c) : d = c := by
  rw [lowerChars] at hmem
  split at hmem
  · next hascii =>
      rw [List.mem_singleton] at hmem
      rw [hmem] at hd ⊢
      exact toLower_of_isSign hascii hd
  · split at hmem
    · simp only [List.mem_cons, List.not_mem_nil, or_false] at hmem
      rcases hmem with rfl | rfl
      · exact absurd hd.2 (by decide)
      · exact absurd hd.2 (by decide)
    · rw [List.mem_singleton] at hmem
      rw [hmem] at hd ⊢
      exact shifted_of_isSign hd

/-- A sign in a text in lower case stood in the text before. -/
theorem mem_of_mem_lowerFrom {d : Char} (hd : IsSign d) {before s : List Char}
    (hmem : d ∈ lowerFrom before s) : d ∈ s := by
  induction s generalizing before with
  | nil => cases hmem
  | cons c s ih =>
      rw [lowerFrom, List.mem_append] at hmem
      rcases hmem with hhere | hlater
      · have hsigma : d ≠ Char.ofNat 962 ∧ d ≠ Char.ofNat 963 := by
          constructor
          · rintro rfl
            exact absurd hd.2 (by decide)
          · rintro rfl
            exact absurd hd.2 (by decide)
        split at hhere
        · split at hhere
          · exact absurd (List.mem_singleton.mp hhere) hsigma.1
          · exact absurd (List.mem_singleton.mp hhere) hsigma.2
        · rw [eq_of_mem_lowerChars hd hhere]
          exact List.mem_cons_self
      · exact List.mem_cons_of_mem c (ih hlater)

theorem lowerFrom_ne_nil {before s : List Char} (hs : s ≠ []) : lowerFrom before s ≠ [] := by
  cases s with
  | nil => exact absurd rfl hs
  | cons c s =>
      rw [lowerFrom]
      intro hnil
      have hhere := (List.append_eq_nil_iff.mp hnil).1
      split at hhere
      · split at hhere
        · cases hhere
        · cases hhere
      · rw [lowerChars] at hhere
        split at hhere
        · cases hhere
        · split at hhere
          · cases hhere
          · cases hhere

/-- Letters behind a slash do not count. -/
theorem meetsCased_append_slash (s t : List Char) : meetsCased (s ++ '/' :: t) = meetsCased s := by
  induction s with
  | nil =>
      have hslash : (inRanges caseIgnorableRanges '/' || '/'.isAlpha || inRanges casedRanges '/') =
          false := by
        decide +kernel
      rw [Bool.or_eq_false_iff, Bool.or_eq_false_iff] at hslash
      change (if inRanges caseIgnorableRanges '/' = true then meetsCased t
        else '/'.isAlpha || inRanges casedRanges '/') = false
      rw [hslash.1.1, hslash.1.2, hslash.2]
      rfl
  | cons c s ih => rw [List.cons_append, meetsCased, meetsCased, ih]

theorem lowerFrom_append_slash_before (near far s : List Char) :
    lowerFrom (near ++ '/' :: far) s = lowerFrom near s := by
  induction s generalizing near with
  | nil => rfl
  | cons c s ih =>
      rw [lowerFrom, lowerFrom, meetsCased_append_slash, ← List.cons_append, ih]

theorem lowerFrom_append_slash (before s t : List Char) :
    lowerFrom before (s ++ '/' :: t) = lowerFrom before s ++ '/' :: lowerFrom [] t := by
  induction s generalizing before with
  | nil =>
      have hslash : lowerChars '/' = ['/'] := by decide
      have hbefore := lowerFrom_append_slash_before [] before t
      change lowerChars '/' ++ lowerFrom ('/' :: before) t = '/' :: lowerFrom [] t
      rw [hslash, ← hbefore]
      rfl
  | cons c s ih =>
      rw [List.cons_append, lowerFrom, lowerFrom, ih, meetsCased_append_slash, List.append_assoc]

/-- The lower case of two texts with a slash between them is that of each. -/
theorem lowercase_append_slash (a b : String) :
    lowercase (a ++ "/" ++ b) = lowercase a ++ "/" ++ lowercase b := by
  rw [lowercase, Text.toList_append_slash, lowerFrom_append_slash, Text.ofList_append_slash]
  rfl

theorem mem_of_mem_lowercase {d : Char} (hd : IsSign d) {s : String}
    (hmem : d ∈ (lowercase s).toList) : d ∈ s.toList := by
  rw [lowercase, String.toList_ofList] at hmem
  exact mem_of_mem_lowerFrom hd hmem

/-- What ASCII characters at the end of a text become does not depend on what is before them. -/
theorem lowerFrom_append_ascii (before s : List Char) {t : List Char}
    (ht : ∀ c ∈ t, c.toNat < 128) :
    ∃ front, lowerFrom before (s ++ t) = front ++ t.map Char.toLower := by
  induction s generalizing before with
  | nil =>
      refine ⟨[], ?_⟩
      rw [List.nil_append, List.nil_append]
      induction t generalizing before with
      | nil => rfl
      | cons c t ih =>
          rw [List.forall_mem_cons] at ht
          have hsigma : (c.toNat == 931) = false := by
            rw [beq_eq_false_iff_ne]
            omega
          rw [lowerFrom, hsigma, lowerChars, if_pos ht.1, ih ht.2]
          rfl
  | cons c s ih =>
      obtain ⟨front, hfront⟩ := ih (c :: before)
      rw [List.cons_append, lowerFrom, hfront]
      exact ⟨_, (List.append_assoc ..).symm⟩

theorem suffix_lowercase {s : String} {t : List Char} (h : t <:+ s.toList)
    (ht : ∀ c ∈ t, c.toNat < 128) : t.map Char.toLower <:+ (lowercase s).toList := by
  obtain ⟨front, hfront⟩ := h
  obtain ⟨lowered, hlowered⟩ := lowerFrom_append_ascii [] front ht
  rw [lowercase, String.toList_ofList, ← hfront, hlowered]
  exact List.suffix_append _ _

end RepoAtlas.Unicode
