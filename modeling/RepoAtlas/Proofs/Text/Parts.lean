import Mathlib.Data.List.TakeWhile
import RepoAtlas.Text.Trim

/-!
Cutting texts at a character, and the parts of what is put together.
-/
namespace RepoAtlas

namespace Text

section Cutting

variable {α : Type} {q : α → Bool}

theorem takeWhile_append_stop {x : α} (hx : q x = false) (s t : List α) :
    (s ++ x :: t).takeWhile q = s.takeWhile q := by
  induction s with
  | nil => simp [hx]
  | cons y s ih => cases hy : q y <;> simp [hy, ih]

theorem dropWhile_append_stop {x : α} (hx : q x = false) (s t : List α) :
    (s ++ x :: t).dropWhile q = s.dropWhile q ++ x :: t := by
  induction s with
  | nil => simp [hx]
  | cons y s ih => cases hy : q y <;> simp [hy, ih]

theorem drop_length_takeWhile (q : α → Bool) (s : List α) :
    s.drop (s.takeWhile q).length = s.dropWhile q := by
  have hs : s.takeWhile q ++ s.dropWhile q = s := List.takeWhile_append_dropWhile
  conv => lhs; arg 2; rw [← hs]
  exact List.drop_left

theorem not_of_dropWhile_eq_cons {x : α} {s t : List α} (h : s.dropWhile q = x :: t) :
    q x = false := by
  have hhead := List.head?_dropWhile_not q s
  rwa [h] at hhead

end Cutting

variable {p : Char → Bool}

theorem splitAt_append_cons {c : Char} (hc : p c = true) (front rest : List Char) :
    splitAt p (front ++ c :: rest) = splitAt p front ++ splitAt p rest := by
  induction front with
  | nil => simp [splitAt, hc]
  | cons d front ih =>
      rw [List.cons_append, splitAt, splitAt, ih]
      by_cases hd : p d = true
      · simp [hd]
      · cases hparts : splitAt p front with
        | nil => exact absurd hparts (splitAt_ne_nil _ _)
        | cons part parts => simp [hd]

/-- A word that is not cut is put before the first part. -/
theorem splitAt_append {word s : List Char} (hword : ∀ c ∈ word, p c = false) :
    ∃ part parts, splitAt p s = part :: parts ∧
      splitAt p (word ++ s) = (word ++ part) :: parts := by
  induction word with
  | nil =>
      cases hparts : splitAt p s with
      | nil => exact absurd hparts (splitAt_ne_nil _ _)
      | cons part parts => exact ⟨part, parts, rfl, hparts⟩
  | cons c word ih =>
      rw [List.forall_mem_cons] at hword
      obtain ⟨part, parts, hs, happend⟩ := ih hword.2
      refine ⟨part, parts, hs, ?_⟩
      rw [List.cons_append, splitAt, happend]
      simp [hword.1]

theorem splitAt_of_none {s : List Char} (h : ∀ c ∈ s, p c = false) : splitAt p s = [s] := by
  obtain ⟨part, parts, hnil, happend⟩ := splitAt_append h (s := [])
  rw [List.append_nil] at happend
  obtain ⟨rfl, rfl⟩ := List.cons.inj hnil
  rwa [List.append_nil] at happend

theorem length_splitAt (p : Char → Bool) (s : List Char) :
    (splitAt p s).length = s.countP p + 1 := by
  induction s with
  | nil => rfl
  | cons c s ih =>
      rw [splitAt]
      by_cases hc : p c = true
      · rw [if_pos hc, List.length_cons, ih, List.countP_cons_of_pos hc]
      · rw [if_neg hc, List.countP_cons_of_neg hc, ← ih]
        cases hparts : splitAt p s with
        | nil => exact absurd hparts (splitAt_ne_nil _ _)
        | cons part parts => rfl

/-- The parts hold the characters that do not cut. -/
theorem flatten_splitAt (p : Char → Bool) (s : List Char) :
    (splitAt p s).flatten = s.filter (!p ·) := by
  induction s with
  | nil => rfl
  | cons c s ih =>
      rw [splitAt]
      by_cases hc : p c = true
      · rw [if_pos hc, List.flatten_cons, ih, List.nil_append,
          List.filter_cons_of_neg (by simp [hc])]
      · rw [if_neg hc, List.filter_cons_of_pos (by simpa using hc), ← ih]
        cases hparts : splitAt p s with
        | nil => exact absurd hparts (splitAt_ne_nil _ _)
        | cons part parts => rfl

theorem splitOnChar_ne_nil (c : Char) (s : String) : splitOnChar c s ≠ [] := by
  rw [splitOnChar, ne_eq, List.map_eq_nil_iff]
  exact splitAt_ne_nil _ _

theorem toList_append_slash (a b : String) :
    (a ++ "/" ++ b).toList = a.toList ++ '/' :: b.toList := by
  simp [String.toList_append]

theorem ofList_append_slash (a b : List Char) :
    String.ofList (a ++ '/' :: b) = String.ofList a ++ "/" ++ String.ofList b := by
  rw [← String.toList_inj, toList_append_slash]
  simp only [String.toList_ofList]

/-- The parts of two texts with a slash between them. -/
theorem splitOnChar_append (a b : String) :
    splitOnChar '/' (a ++ "/" ++ b) = splitOnChar '/' a ++ splitOnChar '/' b := by
  rw [splitOnChar, toList_append_slash, splitAt_append_cons (by rfl), List.map_append]
  rfl

theorem splitOnChar_of_not_mem {c : Char} {s : String} (h : c ∉ s.toList) :
    splitOnChar c s = [s] := by
  rw [splitOnChar, splitAt_of_none, List.map_singleton, String.ofList_toList]
  intro d hmem
  rw [beq_eq_false_iff_ne]
  rintro rfl
  exact h hmem

theorem length_splitOnChar (c : Char) (s : String) :
    (splitOnChar c s).length = s.toList.count c + 1 := by
  rw [splitOnChar, List.length_map, length_splitAt]
  rfl

theorem exists_mem_splitOnChar_iff {c d : Char} {s : String} :
    (∃ part ∈ splitOnChar c s, d ∈ part.toList) ↔ d ∈ s.toList ∧ d ≠ c := by
  have hflatten : d ∈ (splitAt (· == c) s.toList).flatten ↔ d ∈ s.toList ∧ d ≠ c := by
    rw [flatten_splitAt, List.mem_filter]
    simp
  rw [← hflatten, List.mem_flatten]
  constructor
  · rintro ⟨part, hpart, hd⟩
    obtain ⟨chars, hchars, rfl⟩ := List.mem_map.mp hpart
    exact ⟨chars, hchars, by simpa using hd⟩
  · rintro ⟨chars, hchars, hd⟩
    exact ⟨String.ofList chars, List.mem_map.mpr ⟨chars, hchars, rfl⟩, by simpa using hd⟩

theorem not_mem_of_mem_splitOnChar {c : Char} {s part : String} (h : part ∈ splitOnChar c s) :
    c ∉ part.toList := fun hmem =>
  (exists_mem_splitOnChar_iff.mp ⟨part, h, hmem⟩).2 rfl

/-- The parts of what was put together from parts. -/
theorem splitOnChar_intercalate {parts : List String} (hparts : parts ≠ [])
    (h : ∀ part ∈ parts, '/' ∉ part.toList) :
    splitOnChar '/' ("/".intercalate parts) = parts := by
  induction parts with
  | nil => exact absurd rfl hparts
  | cons part parts ih =>
      rw [List.forall_mem_cons] at h
      cases parts with
      | nil => rw [String.intercalate_singleton, splitOnChar_of_not_mem h.1]
      | cons next parts =>
          rw [String.intercalate_cons_cons, splitOnChar_append, splitOnChar_of_not_mem h.1,
            ih (by simp) h.2]
          rfl

theorem joinWith_eq_intercalate (separator : List Char) (parts : List (List Char)) :
    joinWith separator parts = separator.intercalate parts := by
  induction parts with
  | nil => rfl
  | cons part parts ih =>
      cases parts with
      | nil => rw [joinWith, List.intercalate_singleton]
      | cons next parts =>
          rw [List.intercalate_cons_cons, ← ih, joinWith]
          exact List.cons_ne_nil _ _

theorem toList_intercalate (separator : String) (parts : List String) :
    (separator.intercalate parts).toList =
      joinWith separator.toList (parts.map String.toList) := by
  rw [String.toList_intercalate, joinWith_eq_intercalate]

/-- A text is put together from its parts. -/
theorem intercalate_splitOnChar (s : String) : "/".intercalate (splitOnChar '/' s) = s := by
  rw [← String.toList_inj, toList_intercalate, splitOnChar, List.map_map]
  have hparts : String.toList ∘ String.ofList = id := funext fun _ => String.toList_ofList
  rw [hparts, List.map_id]
  exact joinWith_splitAt '/' s.toList

end Text

end RepoAtlas
