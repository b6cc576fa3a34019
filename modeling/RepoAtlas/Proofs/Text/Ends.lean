import RepoAtlas.Proofs.Text.Parts

/-!
What stands at the ends of a text, and what is left when it is taken off.
-/
namespace RepoAtlas.Text

variable {α : Type}

/-- A run of characters goes as far as the first that does not belong to it. -/
theorem takeWhile_append_end {p : α → Bool} {word rest : List α} (hword : ∀ c ∈ word, p c = true)
    (hrest : ∀ c ∈ rest.head?, p c = false) : (word ++ rest).takeWhile p = word := by
  rw [List.takeWhile_append_of_pos hword]
  cases rest with
  | nil => rw [List.takeWhile_nil, List.append_nil]
  | cons c rest =>
      have hc : ¬ p c = true := by
        rw [hrest c rfl]
        exact Bool.false_ne_true
      rw [List.takeWhile_cons_of_neg hc, List.append_nil]

/-- Letters and digits stand among the characters of ASCII that can be seen. -/
theorem bounds_of_isAlphanum {c : Char} (h : c.isAlphanum = true) :
    33 ≤ c.toNat ∧ c.toNat < 127 := by
  unfold Char.isAlphanum Char.isAlpha Char.isUpper Char.isLower Char.isDigit at h
  simp only [Bool.or_eq_true, Bool.and_eq_true, decide_eq_true_eq, UInt32.le_iff_toNat_le,
    ge_iff_le] at h
  have hends : 33 ≤ 'A'.val.toNat ∧ 'Z'.val.toNat < 127 ∧ 33 ≤ 'a'.val.toNat ∧
      'z'.val.toNat < 127 ∧ 33 ≤ '0'.val.toNat ∧ '9'.val.toNat < 127 := by
    decide
  rw [Char.toNat]
  omega

theorem afterStart?_eq_some_iff {start s rest : List Char} :
    afterStart? start s = some rest ↔ s = start ++ rest := by
  rw [afterStart?, beginsWith]
  constructor
  · intro h
    split at h
    · next hstart =>
        obtain ⟨behind, rfl⟩ := List.isPrefixOf_iff_prefix.mp hstart
        rw [List.drop_left, Option.some.injEq] at h
        rw [h]
    · cases h
  · rintro rfl
    have hstart : start.isPrefixOf (start ++ rest) = true :=
      List.isPrefixOf_iff_prefix.mpr (List.prefix_append start rest)
    rw [if_pos hstart, List.drop_left]

theorem beforeEnd?_eq_some_iff {ending s rest : List Char} :
    beforeEnd? ending s = some rest ↔ s = rest ++ ending := by
  rw [beforeEnd?, endsIn]
  constructor
  · intro h
    split at h
    · next hend =>
        obtain ⟨front, rfl⟩ := List.isSuffixOf_iff_suffix.mp hend
        rw [List.length_append, Nat.add_sub_cancel, List.take_left, Option.some.injEq] at h
        rw [h]
    · cases h
  · rintro rfl
    have hend : ending.isSuffixOf (rest ++ ending) = true :=
      List.isSuffixOf_iff_suffix.mpr (List.suffix_append rest ending)
    rw [if_pos hend, List.length_append, Nat.add_sub_cancel, List.take_left]

/-- What ends a text and holds no `x` ends the part behind an `x`. -/
theorem suffix_append_cons_iff {x : α} {ending front rest : List α} (h : x ∉ ending) :
    ending <:+ front ++ x :: rest ↔ ending <:+ rest := by
  constructor
  · intro hend
    have hnot : ¬ x :: rest <:+ ending := by
      intro hmore
      exact h (hmore.subset List.mem_cons_self)
    rcases List.suffix_or_suffix_of_suffix hend (List.suffix_append front (x :: rest)) with
      hshort | hlong
    · rcases List.suffix_cons_iff.mp hshort with rfl | hrest
      · exact absurd List.mem_cons_self h
      · exact hrest
    · exact absurd hlong hnot
  · intro hend
    exact hend.trans ((List.suffix_cons x rest).trans (List.suffix_append front (x :: rest)))

/-- Nothing is dropped at the end of a text whose last characters are to stay. -/
theorem dropEndWhile_append {p : Char → Bool} {word : List Char} (hne : word ≠ [])
    (hword : ∀ c ∈ word, p c = false) (front : List Char) :
    dropEndWhile p (front ++ word) = front ++ word := by
  have hlast : ¬ p (word.getLast hne) = true := by
    rw [hword _ (List.getLast_mem hne)]
    exact Bool.false_ne_true
  have hreverse : (front ++ word).reverse =
      word.getLast hne :: (word.dropLast.reverse ++ front.reverse) := by
    conv => lhs; rw [← List.dropLast_concat_getLast hne]
    simp
  rw [dropEndWhile, hreverse, List.dropWhile_cons_of_neg hlast, ← hreverse, List.reverse_reverse]

theorem dropEndWhile_append_cons {p : Char → Bool} {word : List Char} (hne : word ≠ [])
    (hword : ∀ c ∈ word, p c = false) (front : List Char) (c : Char) :
    dropEndWhile p (front ++ c :: word) = front ++ c :: word := by
  have happend := dropEndWhile_append hne hword (front ++ [c])
  rwa [List.append_assoc, List.singleton_append] at happend

/-- Nothing is left of a text just if all of it is to be dropped. -/
theorem trimWhile_eq_nil_iff {p : Char → Bool} {s : List Char} :
    trimWhile p s = [] ↔ ∀ c ∈ s, p c = true := by
  rw [trimWhile, dropEndWhile, List.reverse_eq_nil_iff, List.dropWhile_eq_nil_iff]
  simp only [List.mem_reverse]
  constructor
  · intro h c hmem
    rw [← List.takeWhile_append_dropWhile (p := p) (l := s), List.mem_append] at hmem
    rcases hmem with htake | hdrop
    · exact List.mem_takeWhile_imp htake
    · exact h c hdrop
  · intro h c hmem
    exact h c ((List.dropWhile_sublist p).subset hmem)

theorem trim_ne_empty {s : String} {c : Char} (hmem : c ∈ s.toList)
    (hblank : Unicode.isBlank c = false) : trim s ≠ "" := by
  intro hempty
  have hnil := congrArg String.toList hempty
  rw [trim, String.toList_ofList] at hnil
  have hall := trimWhile_eq_nil_iff.mp hnil c hmem
  rw [hblank] at hall
  cases hall

/-- Only carriage returns are lost where line ends are written anew. -/
theorem mem_universalNewlines {c : Char} {s : List Char} (hmem : c ∈ s) (hc : c ≠ '\r') :
    c ∈ universalNewlines s := by
  fun_induction universalNewlines s with
  | case1 => cases hmem
  | case2 rest ih =>
      simp only [List.mem_cons, hc, false_or] at hmem ⊢
      exact hmem.imp_right ih
  | case3 rest _ ih =>
      simp only [List.mem_cons, hc, false_or] at hmem ⊢
      exact .inr (ih hmem)
  | case4 d rest _ _ ih =>
      rw [List.mem_cons] at hmem ⊢
      exact hmem.imp_right ih

/-- Two texts that go on behind their first `x` are the same in both parts or not at all. -/
theorem append_cons_inj {x : α} {front front' rest rest' : List α} (h : x ∉ front)
    (h' : x ∉ front') :
    front ++ x :: rest = front' ++ x :: rest' ↔ front = front' ∧ rest = rest' := by
  induction front generalizing front' with
  | nil =>
      cases front' with
      | nil => simp
      | cons y front' =>
          rw [List.mem_cons, not_or] at h'
          simp [h'.1]
  | cons y front ih =>
      rw [List.mem_cons, not_or] at h
      cases front' with
      | nil => simp [Ne.symm h.1]
      | cons z front' =>
          rw [List.mem_cons, not_or] at h'
          rw [List.cons_append, List.cons_append, List.cons.injEq, List.cons.injEq,
            ih h.2 h'.2, and_assoc]

end RepoAtlas.Text
