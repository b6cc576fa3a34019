import RepoAtlas.Pattern

/-!
What patterns mean. The words that a pattern passes are told by its structure, and the
search through a text finds a pattern exactly where it passes a word of the text.
-/
namespace RepoAtlas.Pattern

/-- The character before what follows a word. -/
def lastOr (before : Option Char) (word : List Char) : Option Char :=
  word.getLast?.or before

theorem lastOr_cons (before : Option Char) (c : Char) (word : List Char) :
    lastOr before (c :: word) = lastOr (some c) word := by
  rw [lastOr, lastOr, List.getLast?_cons]
  cases word.getLast? <;> rfl

theorem lastOr_append (before : Option Char) (first last : List Char) :
    lastOr before (first ++ last) = lastOr (lastOr before first) last := by
  rw [lastOr, lastOr, lastOr, List.getLast?_append, Option.or_assoc]

/-- Whether a pattern passes a word that stands between `before` and `rest`. -/
def Passes : Pattern → (before : Option Char) → (word rest : List Char) → Prop
  | nothing, _, word, _ => word = []
  | one accepts, _, word, _ => ∃ c, accepts c = true ∧ word = [c]
  | many accepts, _, word, _ => ∀ c ∈ word, accepts c = true
  | both first second, before, word, rest =>
    ∃ front back, word = front ++ back ∧ first.Passes before front (back ++ rest) ∧
      second.Passes (lastOr before front) back rest
  | either first second, before, word, rest =>
    first.Passes before word rest ∨ second.Passes before word rest
  | textStart, before, word, _ => word = [] ∧ before = none
  | textEnd, _, word, rest => word = [] ∧ (rest = [] ∨ rest = ['\n'])
  | wordEdge, before, word, rest =>
    word = [] ∧ before.any Unicode.isWordChar ≠ rest.head?.any Unicode.isWordChar

theorem mem_placesThrough_iff {accepts : Char → Bool} {before : Option Char} {s : List Char}
    {place : Place} :
    place ∈ placesThrough accepts before s ↔
      ∃ word, s = word ++ place.rest ∧ place.before = lastOr before word ∧
        ∀ c ∈ word, accepts c = true := by
  obtain ⟨near, rest⟩ := place
  induction s generalizing before with
  | nil =>
      rw [placesThrough, List.mem_singleton, Place.mk.injEq]
      constructor
      · rintro ⟨rfl, rfl⟩
        exact ⟨[], rfl, rfl, by simp⟩
      · rintro ⟨word, hword, hnear, -⟩
        obtain ⟨rfl, rfl⟩ := List.append_eq_nil_iff.mp hword.symm
        exact ⟨hnear, rfl⟩
  | cons c s ih =>
      have hhere : (⟨near, rest⟩ : Place) = ⟨before, c :: s⟩ ↔
          near = before ∧ rest = c :: s := by
        rw [Place.mk.injEq]
      rw [placesThrough, List.mem_cons, hhere]
      constructor
      · rintro (⟨rfl, rfl⟩ | hlater)
        · exact ⟨[], rfl, rfl, by simp⟩
        · by_cases hc : accepts c = true
          · rw [if_pos hc] at hlater
            obtain ⟨word, rfl, hnear, hword⟩ := ih.mp hlater
            exact ⟨c :: word, rfl, by rw [hnear, lastOr_cons],
              List.forall_mem_cons.mpr ⟨hc, hword⟩⟩
          · rw [if_neg hc] at hlater
            cases hlater
      · rintro ⟨word, hs, hnear, hword⟩
        cases word with
        | nil => exact .inl ⟨hnear, hs.symm⟩
        | cons d word =>
            obtain ⟨rfl, rfl⟩ := List.cons.inj hs
            rw [List.forall_mem_cons] at hword
            rw [if_pos hword.1]
            exact .inr (ih.mpr ⟨word, rfl, by rw [hnear, lastOr_cons], hword.2⟩)

/-- A pattern that passes nothing ends where it starts, if it matches there. -/
theorem mem_stay_iff (holds : Option Char → List Char → Prop) {before : Option Char}
    {s : List Char} {place : Place} :
    place = ⟨before, s⟩ ∧ holds before s ↔
      ∃ word, s = word ++ place.rest ∧ place.before = lastOr before word ∧
        word = [] ∧ holds before place.rest := by
  obtain ⟨near, rest⟩ := place
  rw [Place.mk.injEq]
  constructor
  · rintro ⟨⟨rfl, rfl⟩, hholds⟩
    exact ⟨[], rfl, rfl, rfl, hholds⟩
  · rintro ⟨-, rfl, hnear, rfl, hholds⟩
    exact ⟨⟨hnear, rfl⟩, hholds⟩

theorem mem_ite_singleton_iff {holds : Prop} [Decidable holds] {place start : Place} :
    (place ∈ if holds then [start] else []) ↔ place = start ∧ holds := by
  by_cases h : holds <;> simp [h]

/-- A pattern ends at the places behind the words that it passes. -/
theorem mem_ends_iff {p : Pattern} {before : Option Char} {s : List Char} {place : Place} :
    place ∈ p.ends ⟨before, s⟩ ↔
      ∃ word, s = word ++ place.rest ∧ place.before = lastOr before word ∧
        p.Passes before word place.rest := by
  induction p generalizing before s place with
  | nothing =>
      have hstay : place = ⟨before, s⟩ ∧ True ↔ _ := mem_stay_iff fun _ _ => True
      simp only [and_true] at hstay
      rw [ends, List.mem_singleton, hstay]
      rfl
  | one accepts =>
      obtain ⟨near, rest⟩ := place
      cases s with
      | nil => simp [ends, Passes]
      | cons c s =>
          rw [ends]
          simp only
          rw [mem_ite_singleton_iff, Place.mk.injEq]
          constructor
          · rintro ⟨⟨rfl, rfl⟩, hc⟩
            exact ⟨[c], rfl, rfl, c, hc, rfl⟩
          · rintro ⟨-, hs, hnear, d, hd, rfl⟩
            obtain ⟨rfl, rfl⟩ := List.cons.inj hs
            exact ⟨⟨hnear, rfl⟩, hd⟩
  | many accepts => exact mem_placesThrough_iff
  | both first second hfirst hsecond =>
      rw [ends, List.mem_flatMap]
      constructor
      · rintro ⟨⟨near, middle⟩, hmiddle, hplace⟩
        obtain ⟨front, rfl, hnear, hfront⟩ := hfirst.mp hmiddle
        simp only at hnear hfront
        subst hnear
        obtain ⟨back, rfl, hbefore, hback⟩ := hsecond.mp hplace
        exact ⟨front ++ back, (List.append_assoc ..).symm, by rw [hbefore, lastOr_append],
          front, back, rfl, hfront, hback⟩
      · rintro ⟨-, rfl, hbefore, front, back, rfl, hfront, hback⟩
        refine ⟨⟨lastOr before front, back ++ place.rest⟩, hfirst.mpr ?_, hsecond.mpr ?_⟩
        · exact ⟨front, List.append_assoc .., rfl, hfront⟩
        · exact ⟨back, rfl, by rw [hbefore, lastOr_append], hback⟩
  | either first second hfirst hsecond =>
      rw [ends, List.mem_append, hfirst, hsecond, ← exists_or]
      simp only [Passes, and_or_left]
  | textStart =>
      rw [ends, mem_ite_singleton_iff, Option.isNone_iff_eq_none]
      exact mem_stay_iff fun before _ => before = none
  | textEnd =>
      rw [ends, mem_ite_singleton_iff, Bool.or_eq_true, List.isEmpty_iff, beq_iff_eq]
      exact mem_stay_iff fun _ rest => rest = [] ∨ rest = ['\n']
  | wordEdge =>
      rw [ends, mem_ite_singleton_iff, bne_iff_ne]
      exact mem_stay_iff fun before rest =>
        before.any Unicode.isWordChar ≠ rest.head?.any Unicode.isWordChar

theorem matchesAt_iff {p : Pattern} {before : Option Char} {s : List Char} :
    p.matchesAt ⟨before, s⟩ = true ↔
      ∃ word rest, s = word ++ rest ∧ p.Passes before word rest := by
  rw [matchesAt, Bool.not_eq_true', List.isEmpty_eq_false_iff_exists_mem]
  constructor
  · rintro ⟨place, hplace⟩
    obtain ⟨word, hs, -, hpasses⟩ := mem_ends_iff.mp hplace
    exact ⟨word, place.rest, hs, hpasses⟩
  · rintro ⟨word, rest, rfl, hpasses⟩
    exact ⟨⟨lastOr before word, rest⟩, mem_ends_iff.mpr ⟨word, rfl, rfl, hpasses⟩⟩

theorem occursFrom_iff {p : Pattern} {before : Option Char} {s : List Char} :
    p.occursFrom before s = true ↔
      ∃ front word rest, s = front ++ (word ++ rest) ∧ p.Passes (lastOr before front) word rest := by
  induction s generalizing before with
  | nil =>
      rw [occursFrom, matchesAt_iff]
      constructor
      · rintro ⟨word, rest, hs, hpasses⟩
        exact ⟨[], word, rest, hs, hpasses⟩
      · rintro ⟨front, word, rest, hs, hpasses⟩
        obtain ⟨rfl, hnil⟩ := List.append_eq_nil_iff.mp hs.symm
        exact ⟨word, rest, hnil.symm, hpasses⟩
  | cons c s ih =>
      rw [occursFrom, Bool.or_eq_true, matchesAt_iff, ih]
      constructor
      · rintro (⟨word, rest, hs, hpasses⟩ | ⟨front, word, rest, rfl, hpasses⟩)
        · exact ⟨[], word, rest, hs, hpasses⟩
        · exact ⟨c :: front, word, rest, rfl, by rwa [lastOr_cons]⟩
      · rintro ⟨front, word, rest, hs, hpasses⟩
        cases front with
        | nil => exact .inl ⟨word, rest, hs, hpasses⟩
        | cons d front =>
            obtain ⟨rfl, rfl⟩ := List.cons.inj hs
            rw [lastOr_cons] at hpasses
            exact .inr ⟨front, word, rest, rfl, hpasses⟩

/-- A pattern occurs in a text exactly if it passes some word of the text. -/
theorem occursIn_iff {p : Pattern} {s : String} :
    p.occursIn s = true ↔
      ∃ front word rest, s.toList = front ++ (word ++ rest) ∧
        p.Passes (lastOr none front) word rest :=
  occursFrom_iff

section Parts

variable {p q : Pattern} {before : Option Char} {word rest : List Char}

theorem passes_both :
    (both p q).Passes before word rest ↔
      ∃ front back, word = front ++ back ∧ p.Passes before front (back ++ rest) ∧
        q.Passes (lastOr before front) back rest := Iff.rfl

theorem passes_chars {cs : List Char} : (chars cs).Passes before word rest ↔ word = cs := by
  induction cs generalizing before word with
  | nil => rfl
  | cons c cs ih =>
      cases cs with
      | nil => simp [chars, Passes]
      | cons d cs =>
          rw [chars, passes_both]
          · simp only [ih]
            simp [Passes]
          · exact List.cons_ne_nil d cs

/-- A text passes itself and nothing else. -/
theorem passes_text {s : String} : (text s).Passes before word rest ↔ word = s.toList :=
  passes_chars

theorem passes_possibly : (possibly p).Passes before word rest ↔
    p.Passes before word rest ∨ word = [] := Iff.rfl

theorem passes_choice {others : List Pattern} :
    (choice p others).Passes before word rest ↔
      ∃ q ∈ p :: others, q.Passes before word rest := by
  induction others generalizing p with
  | nil => simp [choice]
  | cons q others ih =>
      have hchoice : choice p (q :: others) = choice (either p q) others := rfl
      rw [hchoice, ih]
      simp [Passes, or_assoc]

end Parts

end RepoAtlas.Pattern
