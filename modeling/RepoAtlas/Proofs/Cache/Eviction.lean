import Mathlib.Algebra.BigOperators.Group.List.Basic
import Mathlib.Data.List.Nodup
import RepoAtlas.Cache.Eviction
import RepoAtlas.Proofs.Number.Order
import RepoAtlas.Proofs.Table

/-!
Which records are chosen to go: all that are not valid, and of the others the
first ones in the order of their times, until what is kept fits.
-/
namespace RepoAtlas

theorem totalSize_eq_of_perm {first second : List RecordSummary} (h : first.Perm second) :
    totalSize first = totalSize second :=
  (h.map RecordSummary.size).sum_eq

/-- Whether a number of records is the least after which the others fit under a ceiling. -/
structure LeastCut (maxBytes : Int) (sorted : List RecordSummary) (count : Nat) : Prop where
  fits : totalSize (sorted.drop count) ≤ maxBytes
  least : ∀ fewer < count, maxBytes < totalSize (sorted.drop fewer)

/-- What is cut off is a first part of the records, the least after which the others fit. -/
theorem cutOldest_eq_take {maxBytes : Int} (hmax : 0 ≤ maxBytes) (sorted : List RecordSummary) :
    ∃ count, cutOldest maxBytes (totalSize sorted) sorted =
        (sorted.take count).map RecordSummary.key ∧ LeastCut maxBytes sorted count := by
  induction sorted with
  | nil => exact ⟨0, rfl, hmax, fun _ hfewer => absurd hfewer (Nat.not_lt_zero _)⟩
  | cons s rest ih =>
      by_cases hfits : totalSize (s :: rest) ≤ maxBytes
      · refine ⟨0, by simp [cutOldest, hfits], hfits, ?_⟩
        exact fun _ hfewer => absurd hfewer (Nat.not_lt_zero _)
      · obtain ⟨count, hcut, hkept, hleast⟩ := ih
        have hrest : totalSize (s :: rest) - s.size = totalSize rest := by
          simp only [totalSize, List.map_cons, List.foldr_cons]
          omega
        refine ⟨count + 1, ?_, hkept, fun fewer hfewer => ?_⟩
        · rw [cutOldest, if_neg hfits, hrest, hcut]
          rfl
        · cases fewer with
          | zero => exact not_le.mp hfits
          | succ fewer => exact hleast fewer (Nat.lt_of_succ_lt_succ hfewer)

/-- Where keys are distinct, the records without the first keys are the last ones. -/
theorem filter_not_firstKeys {sorted : List RecordSummary}
    (hkeys : (sorted.map RecordSummary.key).Nodup) (count : Nat) :
    sorted.filter (fun s => !((sorted.take count).map RecordSummary.key).contains s.key) =
      sorted.drop count := by
  have hsplit := List.take_append_drop count sorted
  rw [← hsplit, List.map_append, List.nodup_append] at hkeys
  conv => lhs; arg 2; rw [← hsplit]
  rw [List.filter_append, List.filter_eq_nil_iff.mpr, List.filter_eq_self.mpr, List.nil_append]
  · intro s hmem
    simp only [Bool.not_eq_true', List.contains_eq_mem, decide_eq_false_iff_not]
    intro hfront
    exact hkeys.2.2 _ hfront _ (List.mem_map_of_mem hmem) rfl
  · intro s hmem
    simpa [← List.map_take] using ⟨s, hmem, rfl⟩

theorem exists_of_mem_cutOldest {maxBytes total : Int} {sorted : List RecordSummary}
    {key : String} (hmem : key ∈ cutOldest maxBytes total sorted) :
    ∃ s ∈ sorted, s.key = key := by
  induction sorted generalizing total with
  | nil => cases hmem
  | cons s rest ih =>
      rw [cutOldest] at hmem
      split at hmem
      · cases hmem
      · rcases List.mem_cons.mp hmem with rfl | hrest
        · exact ⟨s, List.mem_cons_self, rfl⟩
        · obtain ⟨other, hother, hkey⟩ := ih hrest
          exact ⟨other, List.mem_cons_of_mem _ hother, hkey⟩

section Plan

variable {maxBytes : Int} {summaries : List RecordSummary}

/-- The records that count, in the order in which they go. -/
def inOrderOfGoing (summaries : List RecordSummary) : List RecordSummary :=
  (summaries.filter RecordSummary.valid).mergeSort RecordSummary.notAfter

theorem mem_inOrderOfGoing {s : RecordSummary} :
    s ∈ inOrderOfGoing summaries ↔ s ∈ summaries ∧ s.valid = true := by
  rw [inOrderOfGoing, List.mem_mergeSort, List.mem_filter]

theorem inOrderOfGoing_perm (summaries : List RecordSummary) :
    (inOrderOfGoing summaries).Perm (summaries.filter RecordSummary.valid) :=
  List.mergeSort_perm _ _

theorem nodup_inOrderOfGoing (hkeys : (summaries.map RecordSummary.key).Nodup) :
    ((inOrderOfGoing summaries).map RecordSummary.key).Nodup := by
  apply ((inOrderOfGoing_perm summaries).map RecordSummary.key).nodup_iff.mpr
  exact hkeys.sublist (List.filter_sublist.map _)

theorem mem_planEvictions {key : String} :
    key ∈ planEvictions maxBytes summaries ↔
      (∃ s ∈ summaries, s.valid = false ∧ s.key = key) ∨
        key ∈ cutOldest maxBytes (totalSize (inOrderOfGoing summaries))
          (inOrderOfGoing summaries) := by
  rw [planEvictions, Text.mem_distinct, List.mem_append,
    totalSize_eq_of_perm (inOrderOfGoing_perm summaries)]
  simp [inOrderOfGoing, and_assoc]

/-- Only keys of records are chosen. -/
theorem exists_of_mem_planEvictions {key : String}
    (hmem : key ∈ planEvictions maxBytes summaries) :
    ∃ s ∈ summaries, s.key = key := by
  rcases mem_planEvictions.mp hmem with ⟨s, hs, -, hkey⟩ | hcut
  · exact ⟨s, hs, hkey⟩
  · obtain ⟨s, hs, hkey⟩ := exists_of_mem_cutOldest hcut
    exact ⟨s, (mem_inOrderOfGoing.mp hs).1, hkey⟩

theorem cutOldest_of_fits {total : Int} (hfits : total ≤ maxBytes) :
    cutOldest maxBytes total summaries = [] := by
  cases summaries with
  | nil => rfl
  | cons s rest => rw [cutOldest, if_pos hfits]

/-- No record has to go where all count and fit together. -/
theorem planEvictions_eq_nil (hvalid : ∀ s ∈ summaries, s.valid = true)
    (hfits : totalSize summaries ≤ maxBytes) : planEvictions maxBytes summaries = [] := by
  rw [List.eq_nil_iff_forall_not_mem]
  intro key hmem
  have hall : summaries.filter RecordSummary.valid = summaries := List.filter_eq_self.mpr hvalid
  rw [mem_planEvictions, totalSize_eq_of_perm (inOrderOfGoing_perm summaries), hall,
    cutOldest_of_fits hfits] at hmem
  rcases hmem with ⟨s, hs, hinvalid, -⟩ | hcut
  · exact absurd ((hvalid s hs).symm.trans hinvalid) (by simp)
  · cases hcut

theorem valid_of_not_mem_planEvictions {s : RecordSummary} (hmem : s ∈ summaries)
    (hkept : s.key ∉ planEvictions maxBytes summaries) : s.valid = true := by
  by_contra hinvalid
  rw [Bool.not_eq_true] at hinvalid
  exact hkept (mem_planEvictions.mpr (.inl ⟨s, hmem, hinvalid, rfl⟩))

/-- A record that counts is chosen only as one of those that are cut off. -/
theorem mem_planEvictions_of_valid (hkeys : (summaries.map RecordSummary.key).Nodup)
    {s : RecordSummary} (hmem : s ∈ summaries) (hvalid : s.valid = true) :
    s.key ∈ planEvictions maxBytes summaries ↔
      s.key ∈ cutOldest maxBytes (totalSize (inOrderOfGoing summaries))
        (inOrderOfGoing summaries) := by
  rw [mem_planEvictions, or_iff_right]
  rintro ⟨other, hother, hinvalid, hkey⟩
  obtain rfl := List.inj_on_of_nodup_map hkeys hother hmem hkey
  exact absurd (hvalid.symm.trans hinvalid) (by simp)

/-- What is kept is what counts, without what is cut off. -/
theorem filter_kept (hkeys : (summaries.map RecordSummary.key).Nodup) :
    summaries.filter (fun s => !(planEvictions maxBytes summaries).contains s.key) =
      (summaries.filter RecordSummary.valid).filter fun s =>
        !(cutOldest maxBytes (totalSize (inOrderOfGoing summaries))
          (inOrderOfGoing summaries)).contains s.key := by
  rw [List.filter_filter]
  refine List.filter_congr fun s hmem => ?_
  rw [Bool.eq_iff_iff, Bool.and_eq_true]
  simp only [Bool.not_eq_true', List.contains_eq_mem, decide_eq_false_iff_not]
  constructor
  · intro hnot
    have hvalid := valid_of_not_mem_planEvictions hmem hnot
    rw [mem_planEvictions_of_valid hkeys hmem hvalid] at hnot
    exact ⟨hnot, hvalid⟩
  · rintro ⟨hnot, hvalid⟩
    rwa [mem_planEvictions_of_valid hkeys hmem hvalid]

/-- What is kept fits under the ceiling. -/
theorem totalSize_kept_le (hmax : 0 ≤ maxBytes)
    (hkeys : (summaries.map RecordSummary.key).Nodup) :
    totalSize (summaries.filter fun s => !(planEvictions maxBytes summaries).contains s.key) ≤
      maxBytes := by
  obtain ⟨count, hcut, hfits, -⟩ := cutOldest_eq_take hmax (inOrderOfGoing summaries)
  rw [filter_kept hkeys, hcut,
    ← totalSize_eq_of_perm ((inOrderOfGoing_perm summaries).filter _),
    filter_not_firstKeys (nodup_inOrderOfGoing hkeys)]
  exact hfits

end Plan

namespace RecordSummary

/-- Whether a record comes no later than another, by the order of the rationals. -/
def ranksNotAfter (a b : RecordSummary) : Bool :=
  a.modified.rank < b.modified.rank ||
    (a.modified.rank == b.modified.rank && a.key ≤ b.key)

theorem ranksNotAfter_iff {a b : RecordSummary} :
    a.ranksNotAfter b = true ↔ a.modified.rank < b.modified.rank ∨
      a.modified.rank = b.modified.rank ∧ a.key ≤ b.key := by
  simp [ranksNotAfter]

theorem ranksNotAfter_trans (a b c : RecordSummary) (hab : a.ranksNotAfter b = true)
    (hbc : b.ranksNotAfter c = true) : a.ranksNotAfter c = true := by
  rw [ranksNotAfter_iff] at *
  rcases hab with hab | ⟨hab, hkab⟩
  · rcases hbc with hbc | ⟨hbc, -⟩
    · exact .inl (hab.trans hbc)
    · exact .inl (hbc ▸ hab)
  · rcases hbc with hbc | ⟨hbc, hkbc⟩
    · exact .inl (hab ▸ hbc)
    · exact .inr ⟨hab.trans hbc, String.le_trans hkab hkbc⟩

theorem ranksNotAfter_total (a b : RecordSummary) :
    (a.ranksNotAfter b || b.ranksNotAfter a) = true := by
  rw [Bool.or_eq_true, ranksNotAfter_iff, ranksNotAfter_iff]
  rcases lt_trichotomy a.modified.rank b.modified.rank with hlt | heq | hgt
  · exact .inl (.inl hlt)
  · exact (String.le_total a.key b.key).imp (fun hkey => .inr ⟨heq, hkey⟩)
      fun hkey => .inr ⟨heq.symm, hkey⟩
  · exact .inr (.inl hgt)

theorem notAfter_eq {a b : RecordSummary} (ha : a.modified ≠ .nan) (hb : b.modified ≠ .nan) :
    a.notAfter b = a.ranksNotAfter b := by
  rw [Bool.eq_iff_iff, ranksNotAfter_iff, notAfter]
  simp only [Bool.or_eq_true, Bool.and_eq_true, Bool.not_eq_true', ← Bool.not_eq_true,
    Binary64.lt_iff_rank_lt ha hb, Binary64.lt_iff_rank_lt hb ha, decide_eq_true_eq, not_lt]
  constructor
  · rintro (hlt | ⟨hle, hkey⟩)
    · exact .inl hlt
    · exact hle.lt_or_eq.imp_right fun heq => ⟨heq, hkey⟩
  · exact Or.imp_right fun h => ⟨h.1.le, h.2⟩

/-- Where all times are numbers, no record goes before one that comes earlier. -/
theorem pairwise_mergeSort_notAfter {summaries : List RecordSummary}
    (htimes : ∀ s ∈ summaries, s.modified ≠ .nan) :
    (summaries.mergeSort notAfter).Pairwise fun a b => a.notAfter b = true := by
  have hsame : summaries.mergeSort notAfter = summaries.mergeSort ranksNotAfter := by
    have hmap := List.map_mergeSort (r := notAfter) (s := ranksNotAfter) (f := id)
      fun a ha b hb => notAfter_eq (htimes a ha) (htimes b hb)
    rwa [List.map_id, List.map_id] at hmap
  have hranks := List.pairwise_mergeSort ranksNotAfter_trans ranksNotAfter_total summaries
  rw [hsame]
  refine hranks.imp_of_mem fun {a b} ha hb hab => ?_
  rw [List.mem_mergeSort] at ha hb
  rwa [notAfter_eq (htimes a ha) (htimes b hb)]

end RecordSummary

/-- Whether a record comes later than all others that count. -/
def IsNewest (s : RecordSummary) (summaries : List RecordSummary) : Prop :=
  ∀ other ∈ summaries, other.valid = true → other.key ≠ s.key →
    other.modified.lt s.modified = true

/-- The times of records that count are numbers if the newest comes later than some other. -/
theorem IsNewest.ne_nan {s later other : RecordSummary} {summaries : List RecordSummary}
    (hnewest : IsNewest s summaries) (hkeys : (summaries.map RecordSummary.key).Nodup)
    (hmem : s ∈ summaries) (hlt : later.modified.lt s.modified = true)
    (hother : other ∈ summaries.filter RecordSummary.valid) : other.modified ≠ .nan := by
  obtain ⟨hin, hcounts⟩ := List.mem_filter.mp hother
  by_cases hkey : other.key = s.key
  · obtain rfl := List.inj_on_of_nodup_map hkeys hin hmem hkey
    exact (Binary64.ne_nan_of_lt hlt).2
  · exact (Binary64.ne_nan_of_lt (hnewest other hin hcounts hkey)).1

/-- No other record goes right after the newest one. -/
theorem IsNewest.key_eq_of_after {s later : RecordSummary} {summaries : List RecordSummary}
    (hnewest : IsNewest s summaries) (hkeys : (summaries.map RecordSummary.key).Nodup)
    (hmem : s ∈ summaries) {before rest : List RecordSummary}
    (hsorted : inOrderOfGoing summaries = before ++ s :: later :: rest) : later.key = s.key := by
  by_contra hne
  obtain ⟨hin, hcounts⟩ := mem_inOrderOfGoing.mp
    (by simp [hsorted] : later ∈ inOrderOfGoing summaries)
  have hlt := hnewest later hin hcounts hne
  have hpairwise := RecordSummary.pairwise_mergeSort_notAfter
    fun other hother => hnewest.ne_nan hkeys hmem hlt hother
  change (inOrderOfGoing summaries).Pairwise _ at hpairwise
  rw [hsorted, List.pairwise_append, List.pairwise_cons] at hpairwise
  have hnotAfter := hpairwise.2.1.1 later List.mem_cons_self
  rw [RecordSummary.notAfter, hlt] at hnotAfter
  have hback : s.modified.lt later.modified = true := by simpa using hnotAfter
  obtain ⟨hlater, hself⟩ := Binary64.ne_nan_of_lt hlt
  rw [Binary64.lt_iff_rank_lt hself hlater] at hback
  rw [Binary64.lt_iff_rank_lt hlater hself] at hlt
  exact absurd hback hlt.asymm

/-- The newest record is the last to go. -/
theorem dropWhile_inOrderOfGoing {s : RecordSummary} {summaries : List RecordSummary}
    (hkeys : (summaries.map RecordSummary.key).Nodup) (hmem : s ∈ summaries)
    (hvalid : s.valid = true) (hnewest : IsNewest s summaries) :
    (inOrderOfGoing summaries).dropWhile (fun other => other.key != s.key) = [s] := by
  obtain ⟨before, behind, hsorted⟩ :=
    List.append_of_mem (mem_inOrderOfGoing.mpr ⟨hmem, hvalid⟩)
  have hdistinct := nodup_inOrderOfGoing hkeys
  rw [hsorted, List.map_append, List.map_cons, List.nodup_append] at hdistinct
  have hbefore : ∀ other ∈ before, (other.key != s.key) = true := by
    intro other hother
    rw [bne_iff_ne]
    exact hdistinct.2.2 _ (List.mem_map_of_mem hother) _ List.mem_cons_self
  rw [hsorted, List.dropWhile_append_of_pos hbefore, List.dropWhile_cons_of_neg (by simp)]
  cases behind with
  | nil => rfl
  | cons later rest =>
      have hkey := hnewest.key_eq_of_after hkeys hmem hsorted
      exact absurd (by simp [hkey]) (List.nodup_cons.mp hdistinct.2.1).1

end RepoAtlas
