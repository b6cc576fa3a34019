import RepoAtlas.Analysis.Analyzer

/-!
Which of the listed files are selected, and which of them can hold an entity.
-/
namespace RepoAtlas

theorem mem_of_mem_limited {α : Type u} {limit : Option Int} {items : List α} {a : α}
    (h : a ∈ limited limit items) : a ∈ items := by
  unfold limited at h
  split at h
  · split at h
    · exact List.mem_of_mem_take h
    · exact h
  · exact h

/-- What is selected is listed and may be selected. -/
theorem mem_of_mem_selectCandidates {limit : Option Int} {allFiles : Bool}
    {files : List FileRecord} {file : FileRecord}
    (h : file ∈ selectCandidates limit allFiles files) :
    file ∈ files ∧ isSelectable allFiles file = true := by
  have hsorted := mem_of_mem_limited h
  rw [List.mem_mergeSort] at hsorted
  exact List.mem_filter.mp hsorted

theorem type_of_isSelectable {allFiles : Bool} {file : FileRecord}
    (h : isSelectable allFiles file = true) : file.type = .blob := by
  simp only [isSelectable, Bool.and_eq_true, beq_iff_eq] at h
  exact h.1.1

section Sorting

variable {α : Type u} {le : α → α → Bool}

/-- An item in front of some others is sorted in between those that it need not come before
and those that it may. -/
theorem mergeSort_cons_eq (htrans : ∀ a b c, le a b → le b c → le a c)
    (htotal : ∀ a b, le a b || le b a) (a : α) (items : List α) :
    (a :: items).mergeSort le =
        (items.mergeSort le).filter (fun b => !le a b) ++
          a :: (items.mergeSort le).filter (le a) ∧
      items.mergeSort le =
        (items.mergeSort le).filter (fun b => !le a b) ++ (items.mergeSort le).filter (le a) := by
  obtain ⟨before, behind, hcons, hitems, hbefore⟩ := List.mergeSort_cons htrans htotal a items
  have hsorted := List.pairwise_mergeSort htrans htotal (a :: items)
  rw [hcons, List.pairwise_append, List.pairwise_cons] at hsorted
  have hbehind : ∀ b ∈ behind, le a b := hsorted.2.1.1
  have hfirst : (before ++ behind).filter (fun b => !le a b) = before := by
    rw [List.filter_append, List.filter_eq_self.mpr hbefore,
      List.filter_eq_nil_iff.mpr fun b hmem => by simp [hbehind b hmem], List.append_nil]
  have hlast : (before ++ behind).filter (le a) = behind := by
    rw [List.filter_append, List.filter_eq_self.mpr hbehind,
      List.filter_eq_nil_iff.mpr fun b hmem => by simpa using hbefore b hmem, List.nil_append]
  rw [hcons, hitems, hfirst, hlast]
  exact ⟨rfl, rfl⟩

theorem mergeSort_pair (a b : α) : [a, b].mergeSort le = if le a b then [a, b] else [b, a] := by
  simp [List.mergeSort, List.merge]

/-- Items can be dropped before or after a list is sorted, to the same effect. -/
theorem filter_mergeSort (htrans : ∀ a b c, le a b → le b c → le a c)
    (htotal : ∀ a b, le a b || le b a) (p : α → Bool) (items : List α) :
    (items.mergeSort le).filter p = (items.filter p).mergeSort le := by
  induction items with
  | nil => simp
  | cons a items ih =>
      have hswap (q : α → Bool) : ((items.mergeSort le).filter q).filter p =
          ((items.filter p).mergeSort le).filter q := by
        rw [← ih, List.filter_filter, List.filter_filter]
        simp only [Bool.and_comm]
      rw [(mergeSort_cons_eq htrans htotal a items).1, List.filter_append, List.filter_cons,
        hswap, hswap]
      by_cases ha : p a
      · rw [if_pos ha, List.filter_cons_of_pos ha]
        exact (mergeSort_cons_eq htrans htotal a _).1.symm
      · rw [if_neg ha, List.filter_cons_of_neg ha]
        exact (mergeSort_cons_eq htrans htotal a _).2.symm

end Sorting

theorem ranksBefore_trans (a b c : FileRecord) (hab : ranksBefore a b) (hbc : ranksBefore b c) :
    ranksBefore a c := by
  simp only [ranksBefore, decide_eq_true_eq] at *
  omega

theorem ranksBefore_total (a b : FileRecord) : ranksBefore a b || ranksBefore b a := by
  simp only [ranksBefore, Bool.or_eq_true, decide_eq_true_eq]
  omega

theorem map_limited {α β : Type} (f : α → β) (limit : Option Int) (items : List α) :
    (limited limit items).map f = limited limit (items.map f) := by
  unfold limited
  split
  · split
    · exact List.map_take
    · rfl
  · rfl

/-- Whether a limit lets some number of items through. -/
def LetsThrough (limit : Option Int) (count : Nat) : Prop :=
  ∀ n ∈ limit, 0 < n → (count : Int) ≤ n

theorem limited_of_letsThrough {limit : Option Int} {items : List α}
    (h : LetsThrough limit items.length) : limited limit items = items := by
  unfold limited
  split
  · next n =>
      split
      · next hpos =>
          have hcount := h n rfl hpos
          exact List.take_of_length_le (by omega)
      · rfl
  · rfl

/-- Whether a limit lets all items through. -/
def Unlimited (limit : Option Int) : Prop :=
  ∀ n ∈ limit, n ≤ 0

theorem limited_of_unlimited {limit : Option Int} (h : Unlimited limit) (items : List α) :
    limited limit items = items :=
  limited_of_letsThrough fun n hn hpos => absurd hpos (Int.not_lt.mpr (h n hn))

/-- Without a limit, all that may be selected is. -/
theorem mem_selectCandidates_iff {limit : Option Int} (h : Unlimited limit) {allFiles : Bool}
    {files : List FileRecord} {file : FileRecord} :
    file ∈ selectCandidates limit allFiles files ↔
      file ∈ files ∧ isSelectable allFiles file = true := by
  rw [selectCandidates, limited_of_unlimited h, List.mem_mergeSort, List.mem_filter]

/-- Without a limit, the source files that are selected are the same, whether others are or not. -/
theorem filter_selectCandidates {limit : Option Int} (h : Unlimited limit) (allFiles : Bool)
    (files : List FileRecord) :
    (selectCandidates limit allFiles files).filter (fun file => isSourceFile file.path) =
      selectCandidates limit false files := by
  rw [selectCandidates, selectCandidates, limited_of_unlimited h, limited_of_unlimited h,
    filter_mergeSort ranksBefore_trans ranksBefore_total, List.filter_filter]
  refine congrArg (List.mergeSort · ranksBefore) (List.filter_congr fun file _ => ?_)
  cases hsource : isSourceFile file.path <;> simp [isSelectable, hsource]

/-- Only source files hold entities. -/
theorem isSourceFile_of_ofFile {path content : String} {e : Entity}
    (h : (Entity.ofFile path content).value = some e) : isSourceFile path = true := by
  cases hsource : isSourceFile path with
  | true => rfl
  | false =>
      have hcandidate : isCandidate path content = false := by simp [isCandidate, hsource]
      rw [Entity.ofFile, hcandidate] at h
      cases h

end RepoAtlas
