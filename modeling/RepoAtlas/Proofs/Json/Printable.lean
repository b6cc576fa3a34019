import RepoAtlas.Proofs.Json.Numeral
import RepoAtlas.Proofs.Text.Utf8

/-!
Documents on one line: whatever characters are in their strings, the text has
printable ASCII characters only, and so no line break of any kind.
-/
namespace RepoAtlas.Json

/-- Whether a character is a printable one of ASCII. -/
def IsPrintable (c : Char) : Prop :=
  32 ≤ c.toNat ∧ c.toNat ≤ 126

instance (c : Char) : Decidable (IsPrintable c) :=
  inferInstanceAs (Decidable (_ ∧ _))

/-- Whether all characters of a text are printable. -/
def Printable (s : List Char) : Prop :=
  ∀ c ∈ s, IsPrintable c

instance (s : List Char) : Decidable (Printable s) :=
  List.decidableBAll IsPrintable s

theorem Printable.append {s t : List Char} (hs : Printable s) (ht : Printable t) :
    Printable (s ++ t) :=
  List.forall_mem_append.mpr ⟨hs, ht⟩

theorem Printable.cons {c : Char} {s : List Char} (hc : IsPrintable c) (hs : Printable s) :
    Printable (c :: s) :=
  List.forall_mem_cons.mpr ⟨hc, hs⟩

theorem Printable.ite {p : Prop} [Decidable p] {s t : List Char} (hs : p → Printable s)
    (ht : ¬p → Printable t) : Printable (if p then s else t) := by
  split
  · next hp => exact hs hp
  · next hp => exact ht hp

theorem not_mem_of_printable {c : Char} {s : List Char} (h : Printable s)
    (hc : ¬IsPrintable c) : c ∉ s :=
  fun hmem => hc (h c hmem)

theorem isPrintable_of_isDigit {c : Char} (h : c.isDigit) : IsPrintable c := by
  simp only [Char.isDigit, Bool.and_eq_true, decide_eq_true_eq, ge_iff_le,
    UInt32.le_iff_toNat_le] at h
  have hlow : 48 ≤ c.toNat := h.1
  have hhigh : c.toNat ≤ 57 := h.2
  exact ⟨by omega, by omega⟩

theorem printable_of_isDigit {s : List Char} (h : ∀ c ∈ s, c.isDigit) : Printable s :=
  fun c hmem => isPrintable_of_isDigit (h c hmem)

theorem isPrintable_hexDigit (n : Nat) : IsPrintable (hexDigit n) := by
  have hdigits : ∀ d < 16, IsPrintable (Nat.digitChar d) := by decide
  exact hdigits _ (Nat.mod_lt n (by decide))

theorem printable_unitEscape (n : Nat) : Printable (unitEscape n) := by
  have hslash : IsPrintable '\\' := by decide
  have hunit : IsPrintable 'u' := by decide
  intro c hmem
  simp only [unitEscape, List.mem_cons, List.not_mem_nil, or_false] at hmem
  rcases hmem with rfl | rfl | rfl | rfl | rfl | rfl
  · exact hslash
  · exact hunit
  all_goals exact isPrintable_hexDigit _

/-- What is written for a character is printable, also where the character is not. -/
theorem printable_escapeChar (c : Char) : Printable (escapeChar c) := by
  unfold escapeChar
  iterate 7 refine .ite (fun _ => by decide) fun _ => ?_
  refine .ite (fun hplain => ?_) fun _ => .ite (fun _ => printable_unitEscape _) fun _ => ?_
  · simp only [Bool.and_eq_true, decide_eq_true_eq] at hplain
    exact List.forall_mem_singleton.mpr hplain
  · exact (printable_unitEscape _).append (printable_unitEscape _)

theorem printable_escapePoint (point : CodePoint) : Printable (escapePoint point) := by
  cases point with
  | char c => exact printable_escapeChar c
  | surrogate place => exact printable_unitEscape _

/-- Pieces that are printable are so between quotes. -/
theorem printable_quoted {α : Type} {f : α → List Char} (hf : ∀ a, Printable (f a))
    (s : List α) : Printable ('"' :: s.flatMap f ++ ['"']) := by
  have hquote : IsPrintable '"' := by decide
  have hinner : Printable (s.flatMap f) := by
    intro c hmem
    obtain ⟨a, -, ha⟩ := List.mem_flatMap.mp hmem
    exact hf a c ha
  exact .append (.cons hquote hinner) (List.forall_mem_singleton.mpr hquote)

theorem printable_escapeString (s : List Char) : Printable (escapeString s) :=
  printable_quoted printable_escapeChar s

theorem printable_toString_int (i : Int) : Printable (toString i).toList := by
  rw [toList_toString_int]
  refine .append ?_ ?_
  · split <;> decide
  · exact printable_of_isDigit fun c hmem => Binary64.isDigit_of_mem_digitsOf hmem

theorem printable_replicate_zero (n : Nat) : Printable (List.replicate n '0') := by
  intro c hmem
  rw [List.eq_of_mem_replicate hmem]
  decide

theorem printable_exponentText (e : Int) : Printable (Binary64.exponentText e) := by
  have hsign : IsPrintable (if e < 0 then '-' else '+') := by
    split <;> decide
  exact .cons hsign (printable_of_isDigit fun c hmem => isDigit_of_mem_exponentDigits hmem)

/-- The characters of a number are its digits, zeros, and a few marks between them. -/
theorem printable_layout {digits : List Char} (h : ∀ c ∈ digits, c.isDigit) (point : Int) :
    Printable (Binary64.layout digits point) := by
  have hdigits := printable_of_isDigit h
  have hpoint : IsPrintable '.' := by decide
  unfold Binary64.layout
  split
  · refine .append (.append ?_ (by decide)) (printable_exponentText _)
    match digits, hdigits with
    | [], _ => decide
    | [d], hdigits => exact hdigits
    | d :: e :: rest, hdigits =>
      obtain ⟨hd, hrest⟩ := List.forall_mem_cons.mp hdigits
      exact .cons hd (.cons hpoint hrest)
  · split
    · exact .append (.append (by decide) (printable_replicate_zero _)) hdigits
    · split
      · exact .append (.append hdigits (printable_replicate_zero _)) (by decide)
      · exact .append (.append (fun c hmem => hdigits c (List.mem_of_mem_take hmem)) (by decide))
          fun c hmem => hdigits c (List.mem_of_mem_drop hmem)

theorem printable_realText (x : Binary64) : Printable (realText x) := by
  cases x with
  | nan => decide
  | infinite negative => cases negative <;> decide
  | finite negative m e =>
      have hsigned : ∀ {magnitude : List Char}, Printable magnitude →
          Printable (if negative then '-' :: magnitude else magnitude) := by
        intro magnitude hmagnitude
        split
        · exact .cons (by decide) hmagnitude
        · exact hmagnitude
      change Printable (Binary64.toText (.finite negative m e)).toList
      rw [Binary64.toText, String.toList_ofList]
      apply hsigned
      split
      · decide
      · next hm =>
          have hpos : 0 < m := Nat.pos_of_ne_zero (by simpa using hm)
          exact printable_layout (Binary64.spells_shortestDigits hpos e).digit _

theorem printable_gap (depth : Nat) : Printable (Layout.line.gap depth) :=
  List.forall_mem_nil _

theorem printable_comma (depth : Nat) : Printable (Layout.line.comma depth) := by
  rw [Layout.comma]
  decide

mutual

/-- The text of a value on one line is printable. -/
theorem printable_render (depth : Nat) : (v : Json) → Printable (render .line depth v)
  | .null => by
    rw [render]
    decide
  | .bool b => by
    rw [render]
    cases b <;> decide
  | .int i => by
    rw [render]
    exact printable_toString_int i
  | .real x => by
    rw [render]
    exact printable_realText x
  | .str s => by
    rw [render]
    exact printable_escapeString _
  | .loose t => by
    rw [render]
    exact printable_quoted printable_escapePoint t
  | .arr [] => by
    rw [render]
    decide
  | .arr (v :: rest) => by
    rw [render]
    have hv := printable_render (depth + 1) v
    have hrest := printable_renderItems (depth + 1) rest
    exact .append (.append (.append (.cons (by decide) hv) hrest) (printable_gap depth)) (by decide)
  | .obj [] => by
    rw [render]
    decide
  | .obj ((key, v) :: rest) => by
    rw [render]
    have hv := printable_render (depth + 1) v
    have hrest := printable_renderFields (depth + 1) rest
    have hkey := printable_escapeString key.toList
    exact .append (.append (.append (.append (.append (.cons (by decide) hkey) (by decide)) hv)
      hrest) (printable_gap depth)) (by decide)

theorem printable_renderItems (depth : Nat) :
    (items : List Json) → Printable (renderItems .line depth items)
  | [] => by
    rw [renderItems]
    decide
  | v :: rest => by
    rw [renderItems]
    exact .append (.append (printable_comma depth) (printable_render depth v))
      (printable_renderItems depth rest)

theorem printable_renderFields (depth : Nat) :
    (fields : List (String × Json)) → Printable (renderFields .line depth fields)
  | [] => by
    rw [renderFields]
    decide
  | (key, v) :: rest => by
    rw [renderFields]
    exact .append (.append (.append (.append (printable_comma depth)
      (printable_escapeString key.toList))
      (by decide)) (printable_render depth v)) (printable_renderFields depth rest)

end

theorem printable_compact (v : Json) : Printable v.compact.toList := by
  rw [compact, String.toList_ofList]
  exact printable_render 0 v

end RepoAtlas.Json
