import RepoAtlas.Json.Value

/-!
Loose text and text. A text of characters is the loose text of its characters, and
these are the only ones that can be written in UTF-8.
-/
namespace RepoAtlas

namespace LooseText

@[simp] theorem ofChars_nil : ofChars [] = [] := rfl

@[simp] theorem ofChars_cons (c : Char) (s : List Char) :
    ofChars (c :: s) = .char c :: ofChars s := rfl

@[simp] theorem ofChars_append (s t : List Char) : ofChars (s ++ t) = ofChars s ++ ofChars t :=
  List.map_append

@[simp] theorem length_ofChars (s : List Char) : (ofChars s).length = s.length :=
  List.length_map _

theorem ofString_ofList (s : List Char) : ofString (String.ofList s) = ofChars s := by
  rw [ofString, String.toList_ofList]

/-- A text shows as it is. -/
@[simp] theorem shown_ofString (s : String) : (ofString s).shown = s := by
  rw [shown, ofString, ofChars, List.map_map]
  exact (congrArg String.ofList (List.map_id s.toList)).trans String.ofList_toList

theorem leading_append (s : List Char) (rest : LooseText) :
    (ofChars s ++ rest).leading = s ++ rest.leading := by
  induction s with
  | nil => rfl
  | cons c s ih => exact congrArg (c :: ·) ih

theorem leading_eq_cons_iff {t : LooseText} {c : Char} {s : List Char} :
    t.leading = c :: s ↔ ∃ rest : LooseText, t = .char c :: rest ∧ rest.leading = s := by
  cases t with
  | nil => simp [leading]
  | cons point t => cases point <;> simp [leading, and_assoc, eq_comm]

/-- A loose text is a text up to its first surrogate. -/
theorem eq_leading_append (t : LooseText) :
    t = ofChars t.leading ∨ ∃ place rest, t = ofChars t.leading ++ .surrogate place :: rest := by
  induction t with
  | nil => exact .inl rfl
  | cons point t ih =>
      cases point with
      | surrogate place => exact .inr ⟨place, t, rfl⟩
      | char c =>
          rcases ih with ih | ⟨place, rest, ih⟩
          · exact .inl (congrArg (CodePoint.char c :: ·) ih)
          · exact .inr ⟨place, rest, congrArg (CodePoint.char c :: ·) ih⟩

/-- Whether a half of a surrogate pair stands in a text on its own. -/
def IsBroken (t : LooseText) : Prop :=
  ∃ place, .surrogate place ∈ t

theorem not_isBroken_ofString (s : String) : ¬(ofString s).IsBroken := by
  rintro ⟨place, hmem⟩
  obtain ⟨c, -, hc⟩ := List.mem_map.mp hmem
  cases hc

/-- Texts of characters can be written. -/
@[simp] theorem strict_ofString (s : String) : (ofString s).strict = .ok s := by
  have hleading : (ofString s).leading = s.toList := by
    simpa [ofString, leading] using leading_append s.toList []
  have hdrop : (ofString s).drop s.toList.length = [] :=
    List.drop_eq_nil_of_le (by simp [ofString])
  simp only [strict, fault?, hleading, hdrop, List.takeWhile_nil, shown_ofString]

/-- What stands behind the characters in front of a surrogate is told as the reason. -/
theorem strict_of_surrogate (s : List Char) (place : Fin 2048) (rest : LooseText) :
    ∃ place', (ofChars s ++ .surrogate place :: rest).strict =
      .error (fault?.unencodable place') := by
  have hleading : (ofChars s ++ .surrogate place :: rest).leading = s := by
    rw [leading_append, leading, List.append_nil]
    rintro c rest' heq
    cases heq
  have hdrop : (ofChars s ++ .surrogate place :: rest).drop s.length =
      .surrogate place :: rest :=
    List.drop_left' (length_ofChars s)
  simp only [strict, fault?, hleading, hdrop, List.takeWhile_cons, CodePoint.isSurrogate, if_true]
  cases rest.takeWhile CodePoint.isSurrogate with
  | nil => exact ⟨_, rfl⟩
  | cons point run => exact ⟨_, rfl⟩

/-- A loose text is a text, or it is broken and cannot be written. -/
theorem cases (t : LooseText) : (∃ s, t = ofString s) ∨
    (t.IsBroken ∧ ∃ place, t.strict = .error (fault?.unencodable place)) := by
  rcases t.eq_leading_append with h | ⟨place, rest, h⟩
  · exact .inl ⟨String.ofList t.leading, by rwa [ofString_ofList]⟩
  · refine .inr ⟨⟨place, ?_⟩, ?_⟩
    · rw [h]
      simp
    · rw [h]
      exact strict_of_surrogate _ _ _

/-- Writing fails where a text is broken, and only there. -/
theorem strict_fails_iff {t : LooseText} :
    (∃ failure, t.strict = .error failure) ↔ t.IsBroken := by
  rcases t.cases with ⟨s, rfl⟩ | ⟨hbroken, place, hfails⟩
  · exact iff_of_false (by simp) (not_isBroken_ofString s)
  · exact iff_of_true ⟨_, hfails⟩ hbroken

theorem fault?_eq_none_iff {t : LooseText} : t.fault? = none ↔ ¬t.IsBroken := by
  rw [← strict_fails_iff, strict]
  cases t.fault? <;> simp

theorem isBroken_append {s t : LooseText} : IsBroken (s ++ t) ↔ s.IsBroken ∨ t.IsBroken := by
  simp [IsBroken, exists_or]

theorem isBroken_cons_char {c : Char} {t : LooseText} : IsBroken (.char c :: t) ↔ t.IsBroken := by
  simp [IsBroken]

theorem not_isBroken_ofChars (s : List Char) : ¬(ofChars s).IsBroken := by
  rw [← ofString_ofList]
  exact not_isBroken_ofString _

end LooseText

namespace Json

@[simp] theorem ofText_ofString (s : String) : ofText (.ofString s) = .str s := by
  rw [ofText, LooseText.strict_ofString]

/-- The text of a string is what is taken of it otherwise, but for the marks. -/
theorem map_shown_text? (v : Json) : v.text?.map LooseText.shown = v.string? := by
  cases v with
  | str s => exact congrArg some (LooseText.shown_ofString s)
  | _ => rfl

theorem shown_getD_text? (v : Option Json) :
    ((v.bind text?).getD []).shown = (v.bind string?).getD "" := by
  cases v with
  | none => rfl
  | some v =>
      rw [Option.bind_some, Option.bind_some, ← map_shown_text?]
      cases v.text? <;> rfl

end Json

end RepoAtlas
