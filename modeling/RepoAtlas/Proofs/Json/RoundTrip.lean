import RepoAtlas.Proofs.Json.Numeral
import RepoAtlas.Proofs.Json.Quoting
import RepoAtlas.Proofs.Table

/-!
Documents that are read back. What is written for a value, on one line or on
many, is read as the value, whatever follows it.
-/
namespace RepoAtlas.Json

open LooseText (ofChars ofString ofChars_nil ofChars_cons ofChars_append)

/--
Values that are read back with so many brackets open at most: integers that are
not too long, numbers of the format, and objects that repeat no key.
-/
inductive Readable : Nat → Json → Prop where
  | null {depth : Nat} : Readable depth .null
  | bool {depth : Nat} (b : Bool) : Readable depth (.bool b)
  | int {depth : Nat} {i : Int} (hshort : i.natAbs < 10 ^ maxIntegerDigits) :
      Readable depth (.int i)
  | real {depth : Nat} {x : Binary64} (hvalid : x.Valid) : Readable depth (.real x)
  | str {depth : Nat} (s : String) : Readable depth (.str s)
  | arr {depth : Nat} {items : List Json} (hitems : ∀ v ∈ items, Readable depth v) :
      Readable (depth + 1) (.arr items)
  | obj {depth : Nat} {fields : List (String × Json)} (hkeys : (fields.map Prod.fst).Nodup)
      (hfields : ∀ field ∈ fields, Readable depth field.2) :
      Readable (depth + 1) (.obj fields)

/-- A number begins with a digit, or with a minus and a digit. -/
theorem head_of_readNumber {s : List Char} {r : Except ReadError (Json × List Char)}
    (hread : readNumber s = some r) :
    ∃ c more, (s = c :: more ∨ s = '-' :: c :: more) ∧ c.isDigit := by
  have hdigit : ∀ body, (Numeral.wholeOf body).isEmpty = false →
      ∃ c more, body = c :: more ∧ c.isDigit := by
    intro body hbody
    unfold Numeral.wholeOf at hbody
    split at hbody
    · next more => exact ⟨'0', more, rfl, by decide⟩
    · cases body with
      | nil => simp at hbody
      | cons c more =>
          refine ⟨c, more, rfl, ?_⟩
          by_contra hnot
          simp [hnot] at hbody
  have hwhole : (Numeral.wholeOf (Numeral.signOf s).2).isEmpty = false := by
    by_contra hempty
    rw [Bool.not_eq_false] at hempty
    rw [Numeral.readNumber_eq] at hread
    simp [hempty] at hread
  obtain ⟨c, more, hbody, hc⟩ := hdigit _ hwhole
  refine ⟨c, more, ?_, hc⟩
  unfold Numeral.signOf at hbody
  split at hbody
  · exact Or.inr (congrArg _ hbody)
  · exact Or.inl hbody

/-- A number that is read in front of other text is read where that text goes on loosely. -/
theorem readNumberAt_append {s : List Char} {rest : LooseText} {v : Json}
    (hread : readNumber (s ++ rest.leading) = some (.ok (v, rest.leading))) :
    readNumberAt (ofChars s ++ rest) = some (.ok (v, rest)) := by
  have hdrop : (ofChars s ++ rest).drop (s.length + rest.leading.length - rest.leading.length) =
      rest :=
    List.drop_left' (by simp)
  simp only [readNumberAt, LooseText.leading_append, hread, List.length_append, Option.map_some,
    Except.map, hdrop]

theorem head_of_readNumberAt {s : LooseText} {r : Read Json} (hread : readNumberAt s = some r) :
    ∃ c more, (s = .char c :: more ∨ s = .char '-' :: .char c :: more) ∧ c.isDigit := by
  obtain ⟨found, hfound, -⟩ := Option.map_eq_some_iff.mp hread
  obtain ⟨c, more, hs, hdigit⟩ := head_of_readNumber hfound
  rcases hs with hs | hs
  · obtain ⟨rest, rfl, -⟩ := LooseText.leading_eq_cons_iff.mp hs
    exact ⟨c, rest, .inl rfl, hdigit⟩
  · obtain ⟨rest, rfl, hrest⟩ := LooseText.leading_eq_cons_iff.mp hs
    obtain ⟨rest, rfl, -⟩ := LooseText.leading_eq_cons_iff.mp hrest
    exact ⟨c, rest, .inr rfl, hdigit⟩

/-- The characters of the words that are values. -/
def words : List (List Char × Json) :=
  [(['n', 'u', 'l', 'l'], .null), (['t', 'r', 'u', 'e'], .bool true),
    (['f', 'a', 'l', 's', 'e'], .bool false), (['N', 'a', 'N'], .real .nan),
    (['I', 'n', 'f', 'i', 'n', 'i', 't', 'y'], .real (.infinite false)),
    (['-', 'I', 'n', 'f', 'i', 'n', 'i', 't', 'y'], .real (.infinite true))]

theorem readWord_eq (s : LooseText) :
    readWord s = words.findSome? fun (word, v) =>
      if (ofChars word).isPrefixOf s then some (v, s.drop word.length) else none :=
  rfl

/-- No number begins with a word. -/
theorem readWord_of_readNumberAt {s : LooseText} {r : Read Json}
    (hread : readNumberAt s = some r) : readWord s = none := by
  obtain ⟨c, more, hs, hdigit⟩ := head_of_readNumberAt hread
  have hne : ∀ d : Char, d.isDigit = false → d ≠ c := by
    rintro d hd rfl
    rw [hdigit] at hd
    cases hd
  rw [readWord_eq]
  rcases hs with rfl | rfl
  · simp [words, hne 'n' rfl, hne 't' rfl, hne 'f' rfl, hne 'N' rfl, hne 'I' rfl, hne '-' rfl]
  · simp [words, hne 'I' rfl]

/-- A number is read where a value is expected. -/
theorem readValue_number {depth fuel : Nat} {s : LooseText} {r : Read Json}
    (hread : readNumberAt s = some r) : readValue depth (fuel + 1) s = r := by
  have hhead : ∀ d tail, s = .char d :: tail → d = '-' ∨ d.isDigit := by
    rintro d tail rfl
    obtain ⟨c, more, hs, hdigit⟩ := head_of_readNumberAt hread
    rcases hs with hs | hs
    · exact Or.inr (CodePoint.char.inj (List.cons.inj hs).1 ▸ hdigit)
    · exact Or.inl (CodePoint.char.inj (List.cons.inj hs).1)
  have hword := readWord_of_readNumberAt hread
  unfold readValue
  split
  · exact absurd (hhead _ _ rfl) (by decide)
  · exact absurd (hhead _ _ rfl) (by decide)
  · exact absurd (hhead _ _ rfl) (by decide)
  · rw [hword, hread]

theorem readValue_null (depth fuel : Nat) (rest : LooseText) :
    readValue depth (fuel + 1) (ofString "null" ++ rest) = .ok (.null, rest) := by
  rfl

theorem readValue_bool (depth fuel : Nat) (b : Bool) (rest : LooseText) :
    readValue depth (fuel + 1) (ofString (if b then "true" else "false") ++ rest) =
      .ok (.bool b, rest) := by
  cases b <;> rfl

/-- Every number of the format is read back, the words for those that are not finite included. -/
theorem readValue_real {depth fuel : Nat} {x : Binary64} (hvalid : x.Valid) {rest : LooseText}
    (hrest : Delimited rest.leading) :
    readValue depth (fuel + 1) (ofChars (realText x) ++ rest) = .ok (.real x, rest) := by
  cases x with
  | nan => rfl
  | infinite negative => cases negative <;> rfl
  | finite negative m e =>
      exact readValue_number (readNumberAt_append (readNumber_finite negative hvalid hrest))

theorem readValue_str (depth fuel : Nat) (s : String) (rest : LooseText) :
    readValue depth (fuel + 1) (ofChars (escapeString s.toList) ++ rest) = .ok (.str s, rest) := by
  rw [escapeString_append]
  simp only [readValue, readString_escape, ofText_ofString]

/-- Whether a character is no white space, no closing bracket and no byte order mark. -/
def IsOpening (c : Char) : Prop :=
  isJsonSpace c = false ∧ c ≠ ']' ∧ c ≠ Char.ofNat 65279

instance (c : Char) : Decidable (IsOpening c) :=
  inferInstanceAs (Decidable (_ ∧ _ ∧ _))

/-- Whether a text begins with a character that a value can begin with. -/
def Opens (s : LooseText) : Prop :=
  ∃ c more, s = .char c :: more ∧ IsOpening c

theorem isOpening_of_isDigit {c : Char} (hdigit : c.isDigit) : IsOpening c := by
  refine ⟨?_, ?_, ?_⟩
  · rw [Bool.eq_false_iff]
    intro hspace
    simp only [isJsonSpace, Bool.or_eq_true, beq_iff_eq] at hspace
    rcases hspace with ((rfl | rfl) | rfl) | rfl <;> cases hdigit
  · rintro rfl
    cases hdigit
  · rintro rfl
    cases hdigit

theorem opens_of_readNumber {s : List Char} {r : Except ReadError (Json × List Char)}
    (hread : readNumber s = some r) : Opens (ofChars s) := by
  obtain ⟨c, more, hs, hdigit⟩ := head_of_readNumber hread
  rcases hs with rfl | rfl
  · exact ⟨c, _, rfl, isOpening_of_isDigit hdigit⟩
  · exact ⟨'-', _, rfl, by decide⟩

theorem delimited_nil : Delimited [] := by
  simp [Delimited]

theorem delimited_cons {c : Char} (hc : c ∈ [',', ']', '\x7d', '\n']) (rest : List Char) :
    Delimited (c :: rest) := by
  intro d hd
  obtain rfl := Option.some.inj hd
  simp only [List.mem_cons, List.not_mem_nil, or_false] at hc
  rcases hc with rfl | rfl | rfl | rfl <;> decide

/-- What is written for a value begins with a character of its own. -/
theorem opens_render {depth : Nat} {v : Json} (h : Readable depth v) (layout : Layout)
    (d : Nat) : Opens (ofChars (render layout d v)) := by
  cases h with
  | null => exact ⟨'n', _, rfl, by decide⟩
  | bool b =>
      cases b
      · exact ⟨'f', _, rfl, by decide⟩
      · exact ⟨'t', _, rfl, by decide⟩
  | int hshort =>
      have hread := readNumber_int hshort delimited_nil
      rw [List.append_nil] at hread
      exact opens_of_readNumber hread
  | @real _ x hvalid =>
      cases x with
      | nan => exact ⟨'N', _, rfl, by decide⟩
      | infinite negative =>
          cases negative
          · exact ⟨'I', _, rfl, by decide⟩
          · exact ⟨'-', _, rfl, by decide⟩
      | finite negative m e =>
          have hread := readNumber_finite negative hvalid delimited_nil
          rw [List.append_nil] at hread
          exact opens_of_readNumber hread
  | str s => exact ⟨'"', _, rfl, by decide⟩
  | @arr _ items hitems => cases items <;> exact ⟨'[', _, rfl, by decide⟩
  | @obj _ fields hkeys hfields => cases fields <;> exact ⟨'\x7b', _, rfl, by decide⟩

theorem skipSpace_of_opens {s : LooseText} (h : Opens s) (rest : LooseText) :
    skipSpace (s ++ rest) = s ++ rest := by
  obtain ⟨c, more, rfl, hspace, -, -⟩ := h
  simp [skipSpace, CodePoint.isA, hspace]

theorem opens_escapeString (s : String) : Opens (ofChars (escapeString s.toList)) :=
  ⟨'"', _, rfl, by decide⟩

theorem skipSpace_cons {c : Char} (hc : isJsonSpace c = false) (rest : LooseText) :
    skipSpace (.char c :: rest) = .char c :: rest := by
  simp [skipSpace, CodePoint.isA, hc]

/-- What stands between brackets and items is white space. -/
theorem skipSpace_gap (layout : Layout) (d : Nat) (rest : LooseText) :
    skipSpace (ofChars (layout.gap d) ++ rest) = skipSpace rest := by
  cases layout with
  | line => rfl
  | indented =>
      have hspaces : ∀ c ∈ Layout.indented.gap d, isJsonSpace c := by
        intro c hmem
        rcases List.mem_cons.mp hmem with rfl | hmem
        · rfl
        · rw [List.eq_of_mem_replicate hmem]
          rfl
      refine List.dropWhile_append_of_pos fun point hmem => ?_
      obtain ⟨c, hc, rfl⟩ := List.mem_map.mp hmem
      exact hspaces c hc

/-- What stands between two items is a comma and white space. -/
theorem comma_eq (layout : Layout) (d : Nat) :
    ∃ blank, layout.comma d = ',' :: blank ∧
      ∀ rest, skipSpace (ofChars blank ++ rest) = skipSpace rest := by
  cases layout with
  | line => exact ⟨[' '], rfl, fun rest => rfl⟩
  | indented => exact ⟨_, rfl, skipSpace_gap .indented d⟩

/-- What stands before a closing bracket ends a number. -/
theorem delimited_gap (layout : Layout) (d : Nat) {c : Char} (hc : c ∈ [']', '\x7d'])
    (rest : LooseText) :
    Delimited (LooseText.leading (ofChars (layout.gap d) ++ .char c :: rest)) := by
  cases layout with
  | line => exact delimited_cons (by simp at hc ⊢; tauto) rest.leading
  | indented => exact delimited_cons (by simp) _

/-- Whether what is written for a value is read back, whatever follows it. -/
def ReadsBack (depth : Nat) (v : Json) : Prop :=
  ∀ (layout : Layout) (d fuel : Nat) (rest : LooseText), Delimited rest.leading →
    (render layout d v).length < fuel →
      readValue depth fuel (ofChars (render layout d v) ++ rest) = .ok (v, rest)

theorem delimited_renderItems (layout : Layout) (d : Nat) (items : List Json)
    (rest : LooseText) :
    Delimited (LooseText.leading (ofChars (renderItems layout (d + 1) items) ++
      (ofChars (layout.gap d) ++ .char ']' :: rest))) := by
  cases items with
  | nil => exact delimited_gap layout d (by simp) rest
  | cons v items =>
      obtain ⟨blank, hcomma, -⟩ := comma_eq layout (d + 1)
      rw [renderItems, hcomma]
      exact delimited_cons (by simp) _

/-- The items of a list are read back up to the closing bracket. -/
theorem readItems_render {depth : Nat} (layout : Layout) (d : Nat) (items : List Json)
    (hitems : ∀ v ∈ items, Readable depth v ∧ ReadsBack depth v) {v : Json}
    (hv : ReadsBack depth v) (fuel : Nat) (rest : LooseText)
    (hfuel : (render layout (d + 1) v).length + (renderItems layout (d + 1) items).length + 1 <
      fuel) :
    readItems depth fuel (ofChars (render layout (d + 1) v) ++
      (ofChars (renderItems layout (d + 1) items) ++
        (ofChars (layout.gap d) ++ .char ']' :: rest))) =
        .ok (v :: items, rest) := by
  induction items generalizing v fuel with
  | nil =>
      obtain ⟨fuel, rfl⟩ : ∃ k, fuel = k + 1 := ⟨fuel - 1, by omega⟩
      rw [readItems, hv _ _ _ _ (delimited_renderItems layout d [] rest) (by omega)]
      simp only [renderItems, ofChars_nil, List.nil_append, skipSpace_gap,
        skipSpace_cons (show isJsonSpace ']' = false from rfl)]
  | cons w items ih =>
      obtain ⟨fuel, rfl⟩ : ∃ k, fuel = k + 1 := ⟨fuel - 1, by omega⟩
      obtain ⟨blank, hcomma, hblank⟩ := comma_eq layout (d + 1)
      have hw := hitems w (by simp)
      have hlength : (renderItems layout (d + 1) (w :: items)).length =
          1 + blank.length + (render layout (d + 1) w).length +
            (renderItems layout (d + 1) items).length := by
        simp [renderItems, hcomma]
        omega
      have hnext := ih (fun u hmem => hitems u (List.mem_cons_of_mem _ hmem)) hw.2
        fuel (by omega)
      rw [readItems, hv _ _ _ _ (delimited_renderItems layout d (w :: items) rest) (by omega)]
      simp only [renderItems, hcomma, ofChars_cons, ofChars_append, List.cons_append,
        List.append_assoc,
        skipSpace_cons (show isJsonSpace ',' = false from rfl), hblank,
        skipSpace_of_opens (opens_render hw.1 layout (d + 1)), hnext]

theorem delimited_renderFields (layout : Layout) (d : Nat) (fields : List (String × Json))
    (rest : LooseText) :
    Delimited (LooseText.leading (ofChars (renderFields layout (d + 1) fields) ++
      (ofChars (layout.gap d) ++ .char '\x7d' :: rest))) := by
  cases fields with
  | nil => exact delimited_gap layout d (by simp) rest
  | cons field fields =>
      obtain ⟨blank, hcomma, -⟩ := comma_eq layout (d + 1)
      rw [renderFields, hcomma]
      exact delimited_cons (by simp) _

/-- The fields of an object are read back up to the closing brace. -/
theorem readFields_render {depth : Nat} (layout : Layout) (d : Nat)
    (fields : List (String × Json))
    (hfields : ∀ field ∈ fields, Readable depth field.2 ∧ ReadsBack depth field.2)
    (key : String) {v : Json} (hreadable : Readable depth v) (hv : ReadsBack depth v)
    (fuel : Nat) (rest : LooseText)
    (hfuel : (escapeString key.toList).length + (render layout (d + 1) v).length +
      (renderFields layout (d + 1) fields).length + 1 < fuel) :
    readFields depth fuel (ofChars (escapeString key.toList) ++ (.char ':' :: .char ' ' ::
      (ofChars (render layout (d + 1) v) ++ (ofChars (renderFields layout (d + 1) fields) ++
        (ofChars (layout.gap d) ++ .char '\x7d' :: rest))))) =
        .ok ((key, v) :: fields, rest) := by
  have hspace (s : LooseText) : skipSpace (.char ' ' :: s) = skipSpace s := rfl
  induction fields generalizing key v fuel with
  | nil =>
      obtain ⟨fuel, rfl⟩ : ∃ k, fuel = k + 1 := ⟨fuel - 1, by omega⟩
      rw [escapeString_append, readFields, readString_escape]
      simp only [skipSpace_cons (show isJsonSpace ':' = false from rfl), hspace,
        skipSpace_of_opens (opens_render hreadable layout (d + 1))]
      rw [hv _ _ _ _ (delimited_renderFields layout d [] rest) (by omega)]
      simp only [renderFields, ofChars_nil, List.nil_append, LooseText.shown_ofString, skipSpace_gap,
        skipSpace_cons (show isJsonSpace '\x7d' = false from rfl)]
  | cons field fields ih =>
      obtain ⟨next, w⟩ := field
      obtain ⟨fuel, rfl⟩ : ∃ k, fuel = k + 1 := ⟨fuel - 1, by omega⟩
      obtain ⟨blank, hcomma, hblank⟩ := comma_eq layout (d + 1)
      obtain ⟨hwReadable, hwBack⟩ : Readable depth w ∧ ReadsBack depth w :=
        hfields (next, w) (by simp)
      have hlength : (renderFields layout (d + 1) ((next, w) :: fields)).length =
          1 + blank.length + (escapeString next.toList).length + 2 +
            (render layout (d + 1) w).length + (renderFields layout (d + 1) fields).length := by
        simp [renderFields, hcomma]
        omega
      have hnext := ih (fun u hmem => hfields u (List.mem_cons_of_mem _ hmem)) next
        hwReadable hwBack fuel (by omega)
      rw [escapeString_append, readFields, readString_escape]
      simp only [skipSpace_cons (show isJsonSpace ':' = false from rfl), hspace,
        skipSpace_of_opens (opens_render hreadable layout (d + 1))]
      rw [hv _ _ _ _ (delimited_renderFields layout d ((next, w) :: fields) rest) (by omega)]
      simp only [renderFields, hcomma, ofChars_cons, ofChars_append, LooseText.shown_ofString,
        List.cons_append, List.nil_append, List.append_assoc,
        skipSpace_cons (show isJsonSpace ',' = false from rfl), hblank,
        skipSpace_of_opens (opens_escapeString next), hnext]

theorem readValue_arr {depth fuel : Nat} {rest inner left : LooseText} {items : List Json}
    (hskip : skipSpace rest = inner) (hopens : Opens inner)
    (hread : readItems depth fuel inner = .ok (items, left)) :
    readValue (depth + 1) (fuel + 1) (.char '[' :: rest) = .ok (.arr items, left) := by
  obtain ⟨c, more, rfl, -, hc, -⟩ := hopens
  simp [readValue, hskip, hc, hread]

theorem readValue_obj {depth fuel : Nat} {rest inner left : LooseText}
    {fields : List (String × Json)} (hskip : skipSpace rest = inner)
    (hquote : inner.head? = some (.char '"')) (hread : readFields depth fuel inner = .ok (fields, left)) :
    readValue (depth + 1) (fuel + 1) (.char '\x7b' :: rest) =
      .ok (.obj (Table.ofEntries fields), left) := by
  obtain ⟨more, rfl⟩ := List.head?_eq_some_iff.mp hquote
  simp [readValue, hskip, hread]

theorem ReadsBack.intro {depth : Nat} {v : Json}
    (h : ∀ (layout : Layout) (d fuel : Nat) (rest : LooseText), Delimited rest.leading →
      (render layout d v).length ≤ fuel →
        readValue depth (fuel + 1) (ofChars (render layout d v) ++ rest) = .ok (v, rest)) :
    ReadsBack depth v := by
  intro layout d fuel rest hrest hfuel
  obtain ⟨fuel, rfl⟩ : ∃ k, fuel = k + 1 := ⟨fuel - 1, by omega⟩
  exact h layout d fuel rest hrest (by omega)

theorem ReadsBack.arr {depth : Nat} {items : List Json}
    (hitems : ∀ v ∈ items, Readable depth v ∧ ReadsBack depth v) :
    ReadsBack (depth + 1) (.arr items) := by
  refine .intro fun layout d fuel rest _ hfuel => ?_
  cases items with
  | nil => rfl
  | cons v items =>
      obtain ⟨hreadable, hback⟩ := hitems v (by simp)
      have hlength : (render layout d (.arr (v :: items))).length =
          2 + (layout.gap (d + 1)).length + (render layout (d + 1) v).length +
            (renderItems layout (d + 1) items).length + (layout.gap d).length := by
        simp [render]
        omega
      have hopens := opens_render hreadable layout (d + 1)
      have hread := readItems_render layout d items
        (fun u hmem => hitems u (List.mem_cons_of_mem _ hmem)) hback fuel rest (by omega)
      have htext : ofChars (render layout d (.arr (v :: items))) ++ rest =
          .char '[' :: (ofChars (layout.gap (d + 1)) ++ (ofChars (render layout (d + 1) v) ++
            (ofChars (renderItems layout (d + 1) items) ++
              (ofChars (layout.gap d) ++ .char ']' :: rest)))) := by
        simp [render]
      rw [htext]
      refine readValue_arr ?_ ?_ hread
      · rw [skipSpace_gap, skipSpace_of_opens hopens]
      · obtain ⟨c, more, hc, hopening⟩ := hopens
        exact ⟨c, _, by rw [hc]; rfl, hopening⟩

theorem ReadsBack.obj {depth : Nat} {fields : List (String × Json)}
    (hkeys : (fields.map Prod.fst).Nodup)
    (hfields : ∀ field ∈ fields, Readable depth field.2 ∧ ReadsBack depth field.2) :
    ReadsBack (depth + 1) (.obj fields) := by
  refine .intro fun layout d fuel rest _ hfuel => ?_
  cases fields with
  | nil => rfl
  | cons field fields =>
      obtain ⟨key, v⟩ := field
      obtain ⟨hreadable, hback⟩ := hfields (key, v) (by simp)
      have hlength : (render layout d (.obj ((key, v) :: fields))).length =
          4 + (layout.gap (d + 1)).length + (escapeString key.toList).length +
            (render layout (d + 1) v).length +
              (renderFields layout (d + 1) fields).length + (layout.gap d).length := by
        simp [render]
        omega
      have hread := readFields_render layout d fields
        (fun u hmem => hfields u (List.mem_cons_of_mem _ hmem))
        key hreadable hback fuel rest (by simp only; omega)
      have htext : ofChars (render layout d (.obj ((key, v) :: fields))) ++ rest =
          .char '\x7b' :: (ofChars (layout.gap (d + 1)) ++ (ofChars (escapeString key.toList) ++
            (.char ':' :: .char ' ' :: (ofChars (render layout (d + 1) v) ++
              (ofChars (renderFields layout (d + 1) fields) ++
                (ofChars (layout.gap d) ++ .char '\x7d' :: rest)))))) := by
        simp [render]
      rw [htext, readValue_obj ?_ rfl hread, Table.ofEntries_of_nodup hkeys]
      rw [skipSpace_gap, skipSpace_of_opens (opens_escapeString key)]

/-- Every value of these kinds is read back from what is written for it. -/
theorem Readable.readsBack {depth : Nat} {v : Json} (h : Readable depth v) :
    ReadsBack depth v := by
  induction h with
  | null => exact .intro fun _ _ fuel rest _ _ => readValue_null _ fuel rest
  | bool b => exact .intro fun _ _ fuel rest _ _ => readValue_bool _ fuel b rest
  | int hshort =>
      exact .intro fun _ _ _ _ hrest _ =>
        readValue_number (readNumberAt_append (readNumber_int hshort hrest))
  | real hvalid => exact .intro fun _ _ _ _ hrest _ => readValue_real hvalid hrest
  | str s => exact .intro fun _ _ fuel rest _ _ => readValue_str _ fuel s rest
  | arr hitems ih => exact .arr fun v hmem => ⟨hitems v hmem, ih v hmem⟩
  | obj hkeys hfields ih =>
      exact .obj hkeys fun field hmem => ⟨hfields field hmem, ih field hmem⟩

/-- What is written for a value is read as the value. -/
theorem readText_render {v : Json} (h : Readable maxDepth v) (layout : Layout) (d : Nat) :
    readText (render layout d v) = .ok v := by
  have hopens := opens_render h layout d
  have hmark :
      ((ofChars (render layout d v)).head? == some (.char (Char.ofNat 65279))) = false := by
    obtain ⟨c, more, hs, -, -, hc⟩ := hopens
    rw [hs, List.head?_cons, beq_eq_false_iff_ne]
    exact fun heq => hc (CodePoint.char.inj (Option.some.inj heq))
  have hskip := skipSpace_of_opens hopens []
  have hread := h.readsBack layout d (2 * (render layout d v).length + 2) [] delimited_nil
    (by omega)
  rw [List.append_nil] at hskip hread
  rw [readText, readLoose, hmark, hskip, LooseText.length_ofChars, hread]
  rfl

theorem readText_pretty {v : Json} (h : Readable maxDepth v) :
    readText v.pretty.toList = .ok v := by
  rw [pretty, String.toList_ofList]
  exact readText_render h .indented 0

theorem readText_compact {v : Json} (h : Readable maxDepth v) :
    readText v.compact.toList = .ok v := by
  rw [compact, String.toList_ofList]
  exact readText_render h .line 0

end RepoAtlas.Json
