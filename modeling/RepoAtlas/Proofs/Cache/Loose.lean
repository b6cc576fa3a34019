import RepoAtlas.Cache.Store
import RepoAtlas.Proofs.Text.Loose

/-!
Asking a cache with loose texts. A surrogate in a location or a branch is one in what
the key is made from, so neither can be looked up or stored; nothing is changed then.
-/
namespace RepoAtlas

open LooseText (IsBroken)

/-- Filling in loses no surrogate and makes none. -/
theorem isBroken_filledIn (points : LooseText) (text : List Char) :
    (filledIn points text).IsBroken ↔ points.IsBroken := by
  induction text generalizing points with
  | nil => cases points <;> rfl
  | cons c text ih =>
      cases points with
      | nil => exact iff_of_false (LooseText.not_isBroken_ofChars _) (by simp [IsBroken])
      | cons point points =>
          rw [filledIn]
          split
          · simp only [IsBroken, List.mem_cons, exists_or]
            exact or_congr_right (ih points)
          · rw [LooseText.isBroken_cons_char, ih]

theorem isBroken_filter_marks (t : LooseText) :
    IsBroken (t.filter fun point => point.shown == '\uFFFD') ↔ t.IsBroken := by
  simp [IsBroken, CodePoint.shown]

theorem isBroken_looseFingerprint {location branch : LooseText} :
    (looseFingerprint location branch).IsBroken ↔ location.IsBroken ∨ branch.IsBroken := by
  rw [looseFingerprint, LooseText.isBroken_append, isBroken_filledIn, isBroken_filter_marks,
    LooseText.isBroken_cons_char]

theorem exists_fault_of_isBroken {location branch : LooseText}
    (h : location.IsBroken ∨ branch.IsBroken) :
    ∃ failure, (looseFingerprint location branch).fault? = some failure := by
  rw [← Option.ne_none_iff_exists']
  exact fun hnone => LooseText.fault?_eq_none_iff.mp hnone (isBroken_looseFingerprint.mpr h)

theorem fault?_of_not_isBroken {location branch : LooseText}
    (h : ¬(location.IsBroken ∨ branch.IsBroken)) :
    (looseFingerprint location branch).fault? = none := by
  rwa [LooseText.fault?_eq_none_iff, isBroken_looseFingerprint]

namespace RepoCache

variable (c : RepoCache) {location branch : LooseText}

/-- Texts that cannot be written have no key: asking for them fails and changes nothing. -/
theorem getLoose_of_isBroken (h : location.IsBroken ∨ branch.IsBroken) (now : Binary64)
    (folder : CacheFolder) :
    ∃ failure, c.getLoose now location branch folder = ⟨folder, .error failure, []⟩ := by
  obtain ⟨failure, hfault⟩ := exists_fault_of_isBroken h
  refine ⟨failure, ?_⟩
  unfold getLoose
  rw [hfault]

theorem getLoose_of_not_isBroken (h : ¬(location.IsBroken ∨ branch.IsBroken)) (now : Binary64)
    (folder : CacheFolder) :
    c.getLoose now location branch folder = c.get now location.shown branch.shown folder := by
  unfold getLoose
  rw [fault?_of_not_isBroken h]

theorem putLoose_of_isBroken (h : location.IsBroken ∨ branch.IsBroken) (context : PutContext)
    (entities : List Entity) (files : List FileRecord) (repository : Coordinates)
    (folder : CacheFolder) :
    ∃ failure, c.putLoose context location branch entities files repository folder =
      ⟨folder, .error failure, []⟩ := by
  obtain ⟨failure, hfault⟩ := exists_fault_of_isBroken h
  refine ⟨failure, ?_⟩
  unfold putLoose
  rw [hfault]

theorem putLoose_of_not_isBroken (h : ¬(location.IsBroken ∨ branch.IsBroken))
    (context : PutContext) (entities : List Entity) (files : List FileRecord)
    (repository : Coordinates) (folder : CacheFolder) :
    c.putLoose context location branch entities files repository folder =
      c.put context location.shown branch.shown entities files repository folder := by
  unfold putLoose
  rw [fault?_of_not_isBroken h]

end RepoCache

end RepoAtlas
