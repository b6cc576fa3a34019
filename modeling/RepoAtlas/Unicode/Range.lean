/-!
Sets of code points as sorted arrays of closed ranges, and membership by
halving the array.
-/
namespace RepoAtlas.Unicode

/--
Looks for `n` in the ranges with indices from `lo` up to, but not including,
`hi`. Each step halves the window, so `fuel` steps serve a window of fewer
than `2 ^ fuel` ranges.
-/
def findRange (ranges : Array (Nat × Nat)) (n : Nat) :
    (fuel lo hi : Nat) → Option (Nat × Nat)
  | 0, _, _ => none
  | fuel + 1, lo, hi =>
    if lo < hi then
      match ranges[(lo + hi) / 2]? with
      | none => none
      | some (first, last) =>
        if n < first then findRange ranges n fuel lo ((lo + hi) / 2)
        else if last < n then findRange ranges n fuel ((lo + hi) / 2 + 1) hi
        else some (first, last)
    else none

/-- The range of a sorted table that holds `n`. -/
def rangeOf? (ranges : Array (Nat × Nat)) (n : Nat) : Option (Nat × Nat) :=
  findRange ranges n 16 0 ranges.size

/-- Whether a character lies in one of the ranges. -/
def inRanges (ranges : Array (Nat × Nat)) (c : Char) : Bool :=
  (rangeOf? ranges c.toNat).isSome

theorem mem_of_findRange {ranges : Array (Nat × Nat)} {n fuel lo hi : Nat} {r : Nat × Nat}
    (h : findRange ranges n fuel lo hi = some r) : r ∈ ranges ∧ r.1 ≤ n ∧ n ≤ r.2 := by
  induction fuel generalizing lo hi with
  | zero => simp [findRange] at h
  | succ fuel ih =>
    rw [findRange] at h
    split at h
    · split at h
      · simp at h
      · rename_i first last found
        split at h
        · exact ih h
        · split at h
          · exact ih h
          · obtain rfl := Option.some.inj h
            exact ⟨Array.mem_of_getElem? found, by omega, by omega⟩
    · simp at h

/-- A range that is found holds the number that was looked for. -/
theorem mem_of_rangeOf? {ranges : Array (Nat × Nat)} {n : Nat} {r : Nat × Nat}
    (h : rangeOf? ranges n = some r) : r ∈ ranges ∧ r.1 ≤ n ∧ n ≤ r.2 :=
  mem_of_findRange h

end RepoAtlas.Unicode
