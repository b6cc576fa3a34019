import RepoAtlas.Proofs.Text.Ends

/-!
Texts that are cut at their ends, told by what is cut off: all characters of a
class that stand there, and no others.
-/
namespace RepoAtlas.Text

variable {p : Char → Bool} {s core : List Char}

/-- Whether `core` is left when the characters of a class are cut off in front. -/
def CutInFront (p : Char → Bool) (s core : List Char) : Prop :=
  ∃ run, s = run ++ core ∧ (∀ c ∈ run, p c = true) ∧ ∀ c ∈ core.head?, p c = false

/-- Whether `core` is left when the characters of a class are cut off behind. -/
def CutBehind (p : Char → Bool) (s core : List Char) : Prop :=
  ∃ run, s = core ++ run ∧ (∀ c ∈ run, p c = true) ∧ ∀ c ∈ core.getLast?, p c = false

/-- Whether `core` is left when the characters of a class are cut off at both ends. -/
def CutAround (p : Char → Bool) (s core : List Char) : Prop :=
  ∃ left right, s = left ++ core ++ right ∧ (∀ c ∈ left, p c = true) ∧
    (∀ c ∈ right, p c = true) ∧ (∀ c ∈ core.head?, p c = false) ∧ ∀ c ∈ core.getLast?, p c = false

theorem dropWhile_append_end {run : List Char} (hrun : ∀ c ∈ run, p c = true)
    (hcore : ∀ c ∈ core.head?, p c = false) : (run ++ core).dropWhile p = core := by
  rw [List.dropWhile_append_of_pos hrun]
  cases core with
  | nil => rfl
  | cons c core =>
      refine List.dropWhile_cons_of_neg ?_
      rw [hcore c rfl]
      exact Bool.false_ne_true

theorem dropWhile_eq_iff : s.dropWhile p = core ↔ CutInFront p s core := by
  constructor
  · rintro rfl
    refine ⟨s.takeWhile p, List.takeWhile_append_dropWhile.symm,
      fun c => List.mem_takeWhile_imp, fun c hc => ?_⟩
    have hhead := List.head?_dropWhile_not p s
    rw [Option.mem_def.mp hc] at hhead
    exact hhead
  · rintro ⟨run, rfl, hrun, hcore⟩
    exact dropWhile_append_end hrun hcore

theorem dropEndWhile_eq_iff : dropEndWhile p s = core ↔ CutBehind p s core := by
  rw [dropEndWhile, List.reverse_eq_iff, dropWhile_eq_iff]
  constructor
  · rintro ⟨run, hs, hrun, hcore⟩
    refine ⟨run.reverse, ?_, by simpa using hrun, by simpa using hcore⟩
    rw [← List.reverse_reverse s, hs, List.reverse_append, List.reverse_reverse]
  · rintro ⟨run, rfl, hrun, hcore⟩
    exact ⟨run.reverse, List.reverse_append, by simpa using hrun, by simpa using hcore⟩

theorem trimWhile_eq_iff : trimWhile p s = core ↔ CutAround p s core := by
  rw [trimWhile, dropEndWhile_eq_iff]
  constructor
  · rintro ⟨right, hright, hall, hlast⟩
    obtain ⟨left, hleft, hleftAll, hhead⟩ := dropWhile_eq_iff.mp hright
    refine ⟨left, right, by rw [hleft, List.append_assoc], hleftAll, hall, ?_, hlast⟩
    cases core with
    | nil => simp
    | cons c core => exact hhead
  · rintro ⟨left, right, rfl, hleft, hright, hhead, hlast⟩
    cases core with
    | nil =>
        refine ⟨[], ?_, by simp, by simp⟩
        simpa using fun c hc => hc.elim (hleft c) (hright c)
    | cons c core =>
        refine ⟨right, ?_, hright, hlast⟩
        rw [List.append_assoc]
        exact dropWhile_append_end hleft hhead

end RepoAtlas.Text
