import RepoAtlas.Proofs.Analysis.Selection

/-!
Which files are selected for an analysis, and in which order. There is just one way to put
the files in question in the order of their ranks without changing the order of files of
one rank, and the first of these are selected, as many as the limit lets through.
-/
namespace RepoAtlas

section Order

variable {α : Type u} {rank : α → Nat} {items ordered others : List α}

/-- Whether a list holds some items in the order of their ranks, and those of one rank in
the order in which they were. -/
structure OrderedByRank (rank : α → Nat) (items ordered : List α) : Prop where
  perm : ordered.Perm items
  rising : ordered.Pairwise fun a b => rank a ≤ rank b
  level : ∀ k, ordered.filter (fun a => rank a == k) = items.filter fun a => rank a == k

/-- The first of a list in the order of ranks ranks before no item of a list that holds it. -/
theorem rank_head_le {a b : α} (hmem : b ∈ a :: items)
    (hrising : (a :: items).Pairwise fun a b => rank a ≤ rank b) : rank a ≤ rank b := by
  rcases List.mem_cons.mp hmem with rfl | hrest
  · exact Nat.le_refl _
  · exact (List.pairwise_cons.mp hrising).1 b hrest

theorem mem_iff_of_level (hlevel : ∀ k, ordered.filter (fun a => rank a == k) =
    others.filter fun a => rank a == k) (a : α) : a ∈ ordered ↔ a ∈ others := by
  have hfilter := congrArg (a ∈ ·) (hlevel (rank a))
  simpa using hfilter

/-- Lists in the order of ranks that agree rank by rank are the same. -/
theorem eq_of_level (hordered : ordered.Pairwise fun a b => rank a ≤ rank b)
    (hothers : others.Pairwise fun a b => rank a ≤ rank b)
    (hlevel : ∀ k, ordered.filter (fun a => rank a == k) =
      others.filter fun a => rank a == k) : ordered = others := by
  have hmem := mem_iff_of_level hlevel
  induction ordered generalizing others with
  | nil =>
      cases others with
      | nil => rfl
      | cons b others => exact absurd ((hmem b).mpr List.mem_cons_self) List.not_mem_nil
  | cons a ordered ih =>
      cases others with
      | nil => exact absurd ((hmem a).mp List.mem_cons_self) List.not_mem_nil
      | cons b others =>
          -- Each of the two heads is in the other list, so neither ranks before the other.
          have hab : rank a ≤ rank b := rank_head_le ((hmem b).mpr List.mem_cons_self) hordered
          have hba : rank b ≤ rank a := rank_head_le ((hmem a).mp List.mem_cons_self) hothers
          have hrank : rank a = rank b := Nat.le_antisymm hab hba
          have hheads := hlevel (rank a)
          rw [List.filter_cons_of_pos (by simp), List.filter_cons_of_pos (by simp [hrank]),
            List.cons.injEq] at hheads
          obtain ⟨rfl, htails⟩ := hheads
          have hrest : ∀ k, ordered.filter (fun a => rank a == k) =
              others.filter fun a => rank a == k := by
            intro k
            by_cases hk : rank a = k
            · rw [← hk]
              exact htails
            · have hskip := hlevel k
              rwa [List.filter_cons_of_neg (by simpa using hk),
                List.filter_cons_of_neg (by simpa using hk)] at hskip
          rw [ih hordered.of_cons hothers.of_cons hrest (mem_iff_of_level hrest)]

/-- Items are ordered by rank in one way only. -/
theorem OrderedByRank.unique (hordered : OrderedByRank rank items ordered)
    (hothers : OrderedByRank rank items others) : others = ordered :=
  eq_of_level hothers.rising hordered.rising fun k =>
    (hothers.level k).trans (hordered.level k).symm

/-- Of items in the order of their ranks, the first ones leave none that ranks before them. -/
theorem OrderedByRank.take (hordered : OrderedByRank rank items ordered) (count : Nat) :
    ∃ left, (ordered.take count ++ left).Perm items ∧
      ∀ a ∈ ordered.take count, ∀ b ∈ left, rank a ≤ rank b := by
  have hparts : ordered.take count ++ ordered.drop count = ordered :=
    List.take_append_drop count ordered
  have hrising := hordered.rising
  rw [← hparts, List.pairwise_append] at hrising
  refine ⟨ordered.drop count, ?_, hrising.2.2⟩
  rw [hparts]
  exact hordered.perm

end Order

/-- The rank of a record's file. -/
def FileRecord.rank (r : FileRecord) : Nat :=
  candidateRank r.path

theorem ranksBefore_iff {a b : FileRecord} : ranksBefore a b = true ↔ a.rank ≤ b.rank :=
  decide_eq_true_iff

/-- Sorting records by rank orders them by rank. -/
theorem orderedByRank_mergeSort (items : List FileRecord) :
    OrderedByRank FileRecord.rank items (items.mergeSort ranksBefore) where
  perm := List.mergeSort_perm items ranksBefore
  rising := by
    have hsorted := List.pairwise_mergeSort ranksBefore_trans ranksBefore_total items
    exact hsorted.imp ranksBefore_iff.mp
  level k := by
    rw [filter_mergeSort ranksBefore_trans ranksBefore_total]
    refine List.mergeSort_of_pairwise (List.pairwise_of_forall_mem_list fun a ha b hb => ?_)
    have hrankA : a.rank = k := by simpa using (List.mem_filter.mp ha).2
    have hrankB : b.rank = k := by simpa using (List.mem_filter.mp hb).2
    exact ranksBefore_iff.mpr (Nat.le_of_eq (hrankA.trans hrankB.symm))

/-- Whether a record is in question: a file with no excluded folder among the parts of its
path, and a source file unless all files are wanted. -/
def Eligible (allFiles : Bool) (r : FileRecord) : Prop :=
  r.type = .blob ∧ (∀ part ∈ Text.splitOnChar '/' r.path, part ∉ excludedFolders) ∧
    (allFiles = true ∨ isSourceFile r.path = true)

instance (allFiles : Bool) (r : FileRecord) : Decidable (Eligible allFiles r) :=
  inferInstanceAs (Decidable (_ ∧ (∀ part ∈ Text.splitOnChar '/' r.path, part ∉ excludedFolders) ∧
    (_ ∨ _)))

theorem isSelectable_iff {allFiles : Bool} {r : FileRecord} :
    isSelectable allFiles r = true ↔ Eligible allFiles r := by
  simp [isSelectable, Eligible, isExcluded, and_assoc]

/-- How many of some items a limit lets through; a limit below one is none. -/
def allowance (limit : Option Int) (count : Nat) : Nat :=
  match limit with
  | some n => if 0 < n then min count n.toNat else count
  | none => count

theorem allowance_le (limit : Option Int) (count : Nat) : allowance limit count ≤ count := by
  unfold allowance
  split
  · split
    · exact Nat.min_le_left _ _
    · exact Nat.le_refl _
  · exact Nat.le_refl _

theorem limited_eq_take {α : Type u} (limit : Option Int) (items : List α) :
    limited limit items = items.take (allowance limit items.length) := by
  cases limit with
  | none => simp [limited, allowance]
  | some n =>
      by_cases hn : 0 < n
      · simp [limited, allowance, hn, Nat.min_comm, ← List.take_eq_take_min]
      · simp [limited, allowance, hn]

/-- The files in question are put in the order of their ranks, those of one rank staying as
they are listed, and the first ones are selected, as many as the limit lets through. So what
is left out ranks before nothing that is selected, and without a limit the source files
among all files that are selected are what is selected if only source files are wanted. -/
theorem selectCandidates_keeps_best (limit : Option Int) (allFiles : Bool)
    (files : List FileRecord) :
    let eligible := files.filter fun r => decide (Eligible allFiles r)
    let selected := selectCandidates limit allFiles files
    (∃ ordered, OrderedByRank FileRecord.rank eligible ordered ∧
      (∀ other, OrderedByRank FileRecord.rank eligible other → other = ordered) ∧
      selected = ordered.take (allowance limit eligible.length)) ∧
    selected.length = allowance limit eligible.length ∧
    (∃ left, (selected ++ left).Perm eligible ∧ ∀ r ∈ selected, ∀ s ∈ left, r.rank ≤ s.rank) ∧
    (Unlimited limit →
      (selectCandidates limit true files).filter (fun r => isSourceFile r.path) =
        selectCandidates limit false files) := by
  intro eligible selected
  have heligible : files.filter (isSelectable allFiles) = eligible := by
    refine List.filter_congr fun r _ => ?_
    rw [Bool.eq_iff_iff, isSelectable_iff, decide_eq_true_eq]
  have hordered := orderedByRank_mergeSort eligible
  have hselected : selected =
      (eligible.mergeSort ranksBefore).take (allowance limit eligible.length) := by
    rw [← List.length_mergeSort, ← limited_eq_take, ← heligible]
    rfl
  refine ⟨⟨_, hordered, fun other hother => hordered.unique hother, hselected⟩, ?_, ?_,
    fun hlimit => filter_selectCandidates hlimit true files⟩
  · rw [hselected, List.length_take, List.length_mergeSort, Nat.min_eq_left (allowance_le _ _)]
  · rw [hselected]
    exact hordered.take _

namespace SampleListing

def source (path : String) : FileRecord where
  path := path
  type := .blob
  url := ""

/-- Files of the last rank around a page, a page in an excluded folder, a text and a folder. -/
def files : List FileRecord :=
  [source "z.ts", source "dist/app/page.tsx", source "README.md", source "app/page.tsx",
    { path := "app", type := .tree, url := "" }, source "a.ts", source "ui/components/b.tsx"]

def ordered : List FileRecord :=
  [source "app/page.tsx", source "ui/components/b.tsx", source "z.ts", source "README.md",
    source "a.ts"]

theorem eligible_files : (files.filter fun r => decide (Eligible true r)) =
    [source "z.ts", source "README.md", source "app/page.tsx", source "a.ts",
      source "ui/components/b.tsx"] := by
  decide +kernel

theorem orderedByRank_ordered :
    OrderedByRank FileRecord.rank (files.filter fun r => decide (Eligible true r)) ordered where
  perm := by
    rw [eligible_files]
    decide
  rising := by decide +kernel
  level k := by
    have hranks : ordered.map FileRecord.rank = [0, 5, 10, 10, 10] := by decide +kernel
    simp only [ordered, List.map_cons, List.map_nil, List.cons.injEq, and_true] at hranks
    obtain ⟨hpage, hpart, hlast, htext, hfirst⟩ := hranks
    simp only [eligible_files, ordered, List.filter_cons, List.filter_nil, hpage, hpart, hlast,
      htext, hfirst]
    -- The files of the last rank go behind the others, which stand in order already.
    by_cases hk : k = 10
    · subst hk
      rfl
    · have hten : (10 == k) = false := by simpa using Ne.symm hk
      simp only [hten, Bool.false_eq_true, if_false]

/-- The page and the component are the first two, and the text comes in its place. -/
theorem selectCandidates_keeps_best_sample :
    selectCandidates (some 2) true files = [source "app/page.tsx", source "ui/components/b.tsx"] ∧
      selectCandidates (some 4) true files = ordered.take 4 ∧
      Unlimited (some 0) ∧
      (selectCandidates (some 0) true files).filter (fun r => isSourceFile r.path) =
        selectCandidates (some 0) false files := by
  have hselected (limit : Option Int) :
      selectCandidates limit true files = ordered.take (allowance limit 5) := by
    obtain ⟨⟨_, _, hunique, hselected⟩, -⟩ := selectCandidates_keeps_best limit true files
    rw [hselected, ← hunique ordered orderedByRank_ordered, eligible_files]
    rfl
  have hunlimited : Unlimited (some 0) := by
    intro n hn
    rw [Option.mem_some_iff] at hn
    omega
  exact ⟨hselected (some 2), hselected (some 4), hunlimited,
    (selectCandidates_keeps_best (some 0) true files).2.2.2 hunlimited⟩

end SampleListing

end RepoAtlas
