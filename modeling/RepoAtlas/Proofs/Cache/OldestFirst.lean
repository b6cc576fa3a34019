import Mathlib.Data.List.Sort
import RepoAtlas.Proofs.Cache.Eviction

/-!
The choice of records to remove, without its loop: the keys of all records that do
not count, and those of the fewest others, the oldest first, that have to go.
-/
namespace RepoAtlas

/--
Sorting finds the order in which no item stands behind one that it goes before, if
there is such an order of the items.
-/
theorem mergeSort_eq_of_pairwise {α : Type u} [DecidableEq α] {le : α → α → Bool}
    {items order : List α} (hperm : order.Perm items) (hsorted : order.Pairwise (le · ·))
    (hrefl : ∀ a, le a a = true)
    (hantisymm : ∀ a ∈ order, ∀ b ∈ order, le a b = true → le b a = true → a = b) :
    items.mergeSort le = order := by
  -- On these items the relation is the order of their places, which is a total one.
  have hplaces : ∀ a ∈ order, ∀ b ∈ order,
      le a b = decide (order.idxOf a ≤ order.idxOf b) := by
    have hbefore : ∀ a ∈ order, ∀ b ∈ order, order.idxOf a < order.idxOf b →
        le a b = true := by
      intro a ha b hb hlt
      have hpair := List.pairwise_iff_getElem.mp hsorted _ _ (List.idxOf_lt_length_of_mem ha)
        (List.idxOf_lt_length_of_mem hb) hlt
      rwa [List.getElem_idxOf, List.getElem_idxOf] at hpair
    intro a ha b hb
    rw [Bool.eq_iff_iff, decide_eq_true_iff]
    constructor
    · intro hle
      by_contra hnot
      have hback := hbefore b hb a ha (not_le.mp hnot)
      exact hnot (hantisymm a ha b hb hle hback ▸ le_rfl)
    · intro hle
      rcases hle.lt_or_eq with hlt | heq
      · exact hbefore a ha b hb hlt
      · rw [(List.idxOf_inj ha).mp heq]
        exact hrefl b
  have hmem {a : α} (ha : a ∈ items.mergeSort le) : a ∈ order :=
    hperm.mem_iff.mpr (List.mem_mergeSort.mp ha)
  have hmap : (items.mergeSort le).map order.idxOf =
      (items.map order.idxOf).mergeSort fun i j => i ≤ j :=
    List.map_mergeSort fun a ha b hb =>
      hplaces a (hperm.mem_iff.mpr ha) b (hperm.mem_iff.mpr hb)
  have hnumbers : ((items.mergeSort le).map order.idxOf).Pairwise (· ≤ ·) := by
    rw [hmap]
    exact (items.map order.idxOf).pairwise_mergeSort' (· ≤ ·)
  have hfound : (items.mergeSort le).Pairwise (le · ·) := by
    refine (List.pairwise_map.mp hnumbers).imp_of_mem fun {a b} ha hb hle => ?_
    rw [hplaces a (hmem ha) b (hmem hb)]
    exact decide_eq_true hle
  exact List.Perm.eq_of_pairwise (fun a b ha hb => hantisymm a (hmem ha) b hb) hfound hsorted
    ((List.mergeSort_perm _ _).trans hperm.symm)

namespace RecordSummary

@[simp]
theorem notAfter_self (s : RecordSummary) : s.notAfter s = true := by
  cases h : s.modified.lt s.modified <;> simp [notAfter, h]

/-- Records of which neither comes later than the other have the same key. -/
theorem key_eq_of_notAfter {a b : RecordSummary} (hab : a.notAfter b = true)
    (hba : b.notAfter a = true) : a.key = b.key := by
  have hnever {x y : Binary64} (hlt : x.lt y = true) : y.lt x = false := by
    obtain ⟨hx, hy⟩ := Binary64.ne_nan_of_lt hlt
    rw [Binary64.lt_iff_rank_lt hx hy] at hlt
    rw [← Bool.not_eq_true, Binary64.lt_iff_rank_lt hy hx]
    exact hlt.asymm
  rw [notAfter, Bool.or_eq_true, Bool.and_eq_true, Bool.not_eq_true', decide_eq_true_eq] at hab hba
  rcases hab with hlt | ⟨hnot, hkey⟩
  · rcases hba with hback | ⟨hback, -⟩
    · rw [hnever hlt] at hback
      cases hback
    · rw [hlt] at hback
      cases hback
  · rcases hba with hback | ⟨-, hback⟩
    · rw [hback] at hnot
      cases hnot
    · exact String.le_antisymm hkey hback

end RecordSummary

/--
Whether some records are those that count among others, from the oldest on; of
records of one time the one with the lower key comes first.
-/
structure OldestFirst (order summaries : List RecordSummary) : Prop where
  perm : order.Perm (summaries.filter RecordSummary.valid)
  sorted : order.Pairwise fun a b => a.notAfter b = true

/-- The keys of the records that do not count. -/
def invalidKeys (summaries : List RecordSummary) : List String :=
  (summaries.filter fun s => !s.valid).map RecordSummary.key

section Order

variable {maxBytes : Int} {order summaries : List RecordSummary}

/-- Where all times are numbers, the records that count can be put in order. -/
theorem oldestFirst_inOrderOfGoing (htimes : ∀ s ∈ summaries, s.modified ≠ .nan) :
    OldestFirst (inOrderOfGoing summaries) summaries where
  perm := inOrderOfGoing_perm summaries
  sorted := RecordSummary.pairwise_mergeSort_notAfter fun s hs =>
    htimes s (List.mem_of_mem_filter hs)

namespace OldestFirst

theorem of_perm (h : OldestFirst order summaries) {others : List RecordSummary}
    (hothers : others.Perm summaries) : OldestFirst order others where
  perm := h.perm.trans (hothers.symm.filter _)
  sorted := h.sorted

theorem mem_iff (h : OldestFirst order summaries) {s : RecordSummary} :
    s ∈ order ↔ s ∈ summaries ∧ s.valid = true := by
  rw [h.perm.mem_iff, List.mem_filter]

theorem nodup_keys (h : OldestFirst order summaries)
    (hkeys : (summaries.map RecordSummary.key).Nodup) :
    (order.map RecordSummary.key).Nodup := by
  rw [(h.perm.map RecordSummary.key).nodup_iff]
  exact hkeys.sublist (List.filter_sublist.map _)

/-- The order in which records go is the only one from the oldest on. -/
theorem inOrderOfGoing_eq (h : OldestFirst order summaries)
    (hkeys : (summaries.map RecordSummary.key).Nodup) : inOrderOfGoing summaries = order := by
  apply mergeSort_eq_of_pairwise h.perm h.sorted RecordSummary.notAfter_self
  intro a ha b hb hab hba
  exact List.inj_on_of_nodup_map (h.nodup_keys hkeys) ha hb
    (RecordSummary.key_eq_of_notAfter hab hba)

/-- What is chosen: what does not count, and a first part of the others in their order. -/
theorem planEvictions_eq (h : OldestFirst order summaries)
    (hkeys : (summaries.map RecordSummary.key).Nodup) {count : Nat}
    (hcut : cutOldest maxBytes (totalSize order) order =
      (order.take count).map RecordSummary.key) :
    planEvictions maxBytes summaries =
      invalidKeys summaries ++ (order.take count).map RecordSummary.key := by
  have hall : (invalidKeys summaries ++ order.map RecordSummary.key).Nodup := by
    have hparts : ((summaries.filter fun s => !s.valid) ++ order).Perm summaries :=
      (h.perm.append_left _).trans
        (List.perm_append_comm.trans (List.filter_append_perm RecordSummary.valid summaries))
    rw [invalidKeys, ← List.map_append, (hparts.map RecordSummary.key).nodup_iff]
    exact hkeys
  have hnodup : (invalidKeys summaries ++ (order.take count).map RecordSummary.key).Nodup :=
    hall.sublist ((List.Sublist.refl _).append ((List.take_sublist _ _).map _))
  have hsorted : (summaries.filter RecordSummary.valid).mergeSort RecordSummary.notAfter = order :=
    h.inOrderOfGoing_eq hkeys
  simp only [planEvictions, hsorted, ← totalSize_eq_of_perm h.perm, hcut]
  exact Text.distinct_of_nodup hnodup

/-- A record that stays comes later than every record that counted and is chosen to go. -/
theorem notAfter_eq_false (h : OldestFirst order summaries) (hmax : 0 ≤ maxBytes)
    (hkeys : (summaries.map RecordSummary.key).Nodup) {s gone : RecordSummary}
    (hs : s ∈ summaries) (hkept : s.key ∉ planEvictions maxBytes summaries)
    (hgone : gone ∈ summaries) (hvalid : gone.valid = true)
    (hdoomed : gone.key ∈ planEvictions maxBytes summaries) : s.notAfter gone = false := by
  obtain ⟨count, hcut, -⟩ := cutOldest_eq_take hmax order
  have hfront {r : RecordSummary} (hr : r ∈ summaries) (hcounts : r.valid = true) :
      r.key ∈ planEvictions maxBytes summaries ↔ r ∈ order.take count := by
    rw [mem_planEvictions_of_valid hkeys hr hcounts, h.inOrderOfGoing_eq hkeys, hcut]
    constructor
    · intro hmem
      obtain ⟨other, hother, heq⟩ := List.mem_map.mp hmem
      have hin := h.mem_iff.mp (List.mem_of_mem_take hother)
      exact List.inj_on_of_nodup_map hkeys hin.1 hr heq ▸ hother
    · exact List.mem_map_of_mem
  have hcounts := valid_of_not_mem_planEvictions hs hkept
  have hfirst := (hfront hgone hvalid).mp hdoomed
  have hlast : s ∈ order.drop count := by
    have hmem : s ∈ order.take count ++ order.drop count := by
      rw [List.take_append_drop]
      exact h.mem_iff.mpr ⟨hs, hcounts⟩
    exact (List.mem_append.mp hmem).resolve_left fun htaken =>
      hkept ((hfront hs hcounts).mpr htaken)
  have hsorted := h.sorted
  rw [← List.take_append_drop count order, List.pairwise_append] at hsorted
  have hbefore := hsorted.2.2 gone hfirst s hlast
  rw [← Bool.not_eq_true]
  intro hback
  exact hkept (RecordSummary.key_eq_of_notAfter hback hbefore ▸ hdoomed)

end OldestFirst

/-- Under a higher ceiling fewer of the first records go. -/
theorem LeastCut.mono {larger : Int} {sorted : List RecordSummary} {count fewer : Nat}
    (h : LeastCut maxBytes sorted count) (hlarger : LeastCut larger sorted fewer)
    (hle : maxBytes ≤ larger) : fewer ≤ count := by
  by_contra hmore
  have hover := hlarger.least count (not_le.mp hmore)
  have hfits := h.fits
  omega

/-- A higher ceiling never makes a record go that stayed under a lower one. -/
theorem planEvictions_subset (hmax : 0 ≤ maxBytes) {larger : Int} (hle : maxBytes ≤ larger) :
    planEvictions larger summaries ⊆ planEvictions maxBytes summaries := by
  intro key hkey
  rcases mem_planEvictions.mp hkey with hinvalid | hcut
  · exact mem_planEvictions.mpr (.inl hinvalid)
  · obtain ⟨count, heq, hleast⟩ := cutOldest_eq_take hmax (inOrderOfGoing summaries)
    obtain ⟨fewer, heq', hleast'⟩ := cutOldest_eq_take (hmax.trans hle) (inOrderOfGoing summaries)
    rw [heq'] at hcut
    apply mem_planEvictions.mpr
    rw [heq]
    exact .inr ((List.take_sublist_take_left (hleast.mono hleast' hle)).map _ |>.subset hcut)

end Order

/--
The records that are chosen to go are all that do not count, and the fewest of the
others, from the oldest on, after which the rest fits under the ceiling; it does not
matter in which order they are told about. So what stays counts, fits, and is later
than all that counted and goes. Under a higher ceiling nothing more goes. There is an
order from the oldest on wherever the times are numbers.
-/
theorem planEvictions_cuts_oldest {maxBytes : Int} {summaries : List RecordSummary}
    (hmax : 0 ≤ maxBytes) (hkeys : (summaries.map RecordSummary.key).Nodup) :
    ((∀ s ∈ summaries, s.modified ≠ .nan) → ∃ order, OldestFirst order summaries) ∧
    (∀ order, OldestFirst order summaries →
      (∃ count, LeastCut maxBytes order count ∧ ∀ others, others.Perm summaries →
        (planEvictions maxBytes others).Perm
          (invalidKeys summaries ++ (order.take count).map RecordSummary.key)) ∧
      ∀ s ∈ summaries, s.key ∉ planEvictions maxBytes summaries →
        ∀ gone ∈ summaries, gone.valid = true → gone.key ∈ planEvictions maxBytes summaries →
          s.notAfter gone = false) ∧
    (∀ s ∈ summaries, s.key ∉ planEvictions maxBytes summaries → s.valid = true) ∧
    totalSize (summaries.filter fun s =>
      !(planEvictions maxBytes summaries).contains s.key) ≤ maxBytes ∧
    ∀ larger, maxBytes ≤ larger →
      planEvictions larger summaries ⊆ planEvictions maxBytes summaries := by
  refine ⟨?_, fun order horder => ⟨?_, ?_⟩, ?_, totalSize_kept_le hmax hkeys, ?_⟩
  · exact fun htimes => ⟨_, oldestFirst_inOrderOfGoing htimes⟩
  · obtain ⟨count, hcut, hleast⟩ := cutOldest_eq_take hmax order
    refine ⟨count, hleast, fun others hothers => ?_⟩
    have hkeys' := (hothers.map RecordSummary.key).nodup_iff.mpr hkeys
    rw [(horder.of_perm hothers).planEvictions_eq hkeys' hcut]
    exact ((hothers.filter _).map _).append_right _
  · intro s hs hkept gone hgone hvalid hdoomed
    exact horder.notAfter_eq_false hmax hkeys hs hkept hgone hvalid hdoomed
  · exact fun s hs => valid_of_not_mem_planEvictions hs
  · exact fun larger hle => planEvictions_subset hmax hle

namespace TiedRecords

def summaries : List RecordSummary :=
  [⟨"c", .ofInt 2, 30, true⟩, ⟨"b", .ofInt 1, 20, true⟩, ⟨"x", .ofInt 3, 10, false⟩,
    ⟨"a", .ofInt 1, 50, true⟩, ⟨"e", .zero, 0, true⟩]

def order : List RecordSummary :=
  [⟨"e", .zero, 0, true⟩, ⟨"a", .ofInt 1, 50, true⟩, ⟨"b", .ofInt 1, 20, true⟩,
    ⟨"c", .ofInt 2, 30, true⟩]

theorem oldestFirst : OldestFirst order summaries :=
  ⟨by decide +kernel, by decide +kernel⟩

end TiedRecords

open TiedRecords in
/-- Two records of one time, an empty one, and a ceiling that is reached exactly. -/
theorem planEvictions_cuts_oldest_tied :
    (0 : Int) ≤ 50 ∧ (summaries.map RecordSummary.key).Nodup ∧ OldestFirst order summaries ∧
      (∃ count, LeastCut 50 order count ∧ (planEvictions 50 summaries).Perm
        (invalidKeys summaries ++ (order.take count).map RecordSummary.key)) ∧
      planEvictions 70 summaries ⊆ planEvictions 50 summaries := by
  have hmax : (0 : Int) ≤ 50 := by decide
  have hkeys : (summaries.map RecordSummary.key).Nodup := by decide
  obtain ⟨-, hcuts, -, -, hmono⟩ := planEvictions_cuts_oldest hmax hkeys
  obtain ⟨⟨count, hleast, hplan⟩, -⟩ := hcuts order oldestFirst
  exact ⟨hmax, hkeys, oldestFirst, ⟨count, hleast, hplan summaries (List.Perm.refl _)⟩,
    hmono 70 (by decide)⟩

end RepoAtlas
