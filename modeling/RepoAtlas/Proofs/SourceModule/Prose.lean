import RepoAtlas.Proofs.Text.Cut
import RepoAtlas.SourceModule.Prose

/-!
Documentation comments as they are usually laid out, and what is read from them: the lines
of prose in front of the first tag, whatever indentation, stars and blank lines stand around
them, and however the tags go on.
-/
namespace RepoAtlas

namespace Text

/-- What ends one line. -/
inductive LineBreak where
  | single (c : Char) (ends : isLineEnd c = true)
  /-- A carriage return and a line feed. -/
  | pair

def LineBreak.chars : LineBreak → List Char
  | single c _ => [c]
  | pair => ['\r', '\n']

theorem isLineEnd_carriageReturn : isLineEnd '\r' = true := by decide

theorem lines_cons {c : Char} (hc : isLineEnd c = false) (s : List Char) :
    lines (c :: s) = consLine c (lines s) := by
  have hreturn : c ≠ '\r' := by
    rintro rfl
    rw [isLineEnd_carriageReturn] at hc
    cases hc
  rw [lines, hc, if_neg Bool.false_ne_true]
  intro rest h
  exact absurd h hreturn

/-- What goes on a line that is empty so far becomes that line. -/
theorem lines_append {word s : List Char} {rest : List (List Char)}
    (hword : ∀ c ∈ word, isLineEnd c = false) (hs : lines s = [] :: rest) :
    lines (word ++ s) = word :: rest := by
  induction word with
  | nil => exact hs
  | cons c word ih =>
      rw [List.forall_mem_cons] at hword
      rw [List.cons_append, lines_cons hword.1, ih hword.2]
      rfl

theorem lines_of_none {s : List Char} (hne : s ≠ []) (hs : ∀ c ∈ s, isLineEnd c = false) :
    lines s = [s] := by
  induction s with
  | nil => exact absurd rfl hne
  | cons c s ih =>
      rw [List.forall_mem_cons] at hs
      rw [lines_cons hs.1]
      cases s with
      | nil => rfl
      | cons d s =>
          rw [ih (List.cons_ne_nil d s) hs.2]
          rfl

/-- A text begins with the line that its first word begins. -/
theorem lines_word {word : List Char} (hne : word ≠ []) (hword : ∀ c ∈ word, isLineEnd c = false)
    (s : List Char) : ∃ more rest, lines (word ++ s) = (word ++ more) :: rest := by
  induction word with
  | nil => exact absurd rfl hne
  | cons c word ih =>
      rw [List.forall_mem_cons] at hword
      rw [List.cons_append, lines_cons hword.1]
      cases word with
      | nil =>
          rw [List.nil_append]
          cases lines s with
          | nil => exact ⟨[], [], rfl⟩
          | cons line rest => exact ⟨line, rest, rfl⟩
      | cons d word =>
          obtain ⟨more, rest, hlines⟩ := ih (List.cons_ne_nil d word) hword.2
          rw [hlines]
          exact ⟨more, rest, rfl⟩

theorem dropEndWhile_append_stop {p : Char → Bool} {c : Char} (hc : p c = false)
    (s t : List Char) : dropEndWhile p (s ++ c :: t) = s ++ c :: dropEndWhile p t := by
  have hreverse : (s ++ c :: t).reverse = t.reverse ++ c :: s.reverse := by simp
  rw [dropEndWhile, hreverse, dropWhile_append_stop hc]
  simp [dropEndWhile]

end Text

open Text

/-- White space within a line. -/
structure Margin where
  chars : List Char
  all_blank : chars.all (fun c => Unicode.isBlank c && !isLineEnd c) = true

namespace Margin

theorem blank (margin : Margin) : ∀ c ∈ margin.chars, Unicode.isBlank c = true := by
  intro c hmem
  have hc := List.all_eq_true.mp margin.all_blank c hmem
  exact (Bool.and_eq_true_iff.mp hc).1

theorem inLine (margin : Margin) : ∀ c ∈ margin.chars, isLineEnd c = false := by
  intro c hmem
  have hc := List.all_eq_true.mp margin.all_blank c hmem
  simpa using (Bool.and_eq_true_iff.mp hc).2

end Margin

/-- A line of a comment between the opening and the closing one. -/
inductive CommentRow where
  /-- Some stars, or none, and nothing said. -/
  | bare (margin : Margin) (stars : Nat) (trail : Margin)
  /-- A star and a space in front of a text. -/
  | item (margin : Margin) (text : String)

namespace CommentRow

def chars : CommentRow → List Char
  | bare margin stars trail => margin.chars ++ List.replicate stars '*' ++ trail.chars
  | item margin text => margin.chars ++ '*' :: ' ' :: text.toList

def text? : CommentRow → Option String
  | bare .. => none
  | item _ text => some text

end CommentRow

/-- A comment of several lines: each row with what ends it, after the line that opens the
comment and before the one that closes it. -/
structure CommentLayout where
  opening : LineBreak
  rows : List (CommentRow × LineBreak)
  closing : Margin

namespace CommentLayout

def rowsText (rows : List (CommentRow × LineBreak)) : List Char :=
  rows.flatMap fun row => row.1.chars ++ row.2.chars

/-- The comment as it is written. -/
def comment (layout : CommentLayout) : String :=
  String.ofList ("/**".toList ++
    (layout.opening.chars ++ (rowsText layout.rows ++ layout.closing.chars)) ++ "*/".toList)

/-- The texts in the comment, one for each row that has one. -/
def texts (layout : CommentLayout) : List String :=
  layout.rows.filterMap fun row => row.1.text?

end CommentLayout

/-- Whether a text can be a line of prose: it fills one line from end to end, and would not
be taken for a star or a tag. -/
structure IsProse (s : List Char) : Prop where
  nonempty : s ≠ []
  inLine : ∀ c ∈ s, isLineEnd c = false
  head : ∀ c ∈ s.head?, Unicode.isBlank c = false ∧ c ≠ '*' ∧ c ≠ '@'
  last : ∀ c ∈ s.getLast?, Unicode.isBlank c = false

namespace IsProse

theorem iff_checked {s : List Char} : IsProse s ↔
    !s.isEmpty && !s.any isLineEnd &&
      s.head?.all (fun c => !Unicode.isBlank c && c != '*' && c != '@') &&
      s.getLast?.all (fun c => !Unicode.isBlank c) := by
  simp only [Bool.and_eq_true, Bool.not_eq_true', List.isEmpty_eq_false_iff, List.any_eq_false,
    Bool.not_eq_true, Option.all_eq_true, bne_iff_ne, and_assoc]
  exact ⟨fun h => ⟨h.nonempty, h.inLine, h.head, h.last⟩,
    fun ⟨hne, hinLine, hhead, hlast⟩ => ⟨hne, hinLine, hhead, hlast⟩⟩

instance (s : List Char) : Decidable (IsProse s) :=
  decidable_of_iff _ iff_checked.symm

variable {s t : List Char}

/-- Prose is left by a trim of itself with white space around it. -/
theorem trim_around (hs : IsProse s) (left right : List Char)
    (hleft : ∀ c ∈ left, Unicode.isBlank c = true)
    (hright : ∀ c ∈ right, Unicode.isBlank c = true) :
    trimWhile Unicode.isBlank (left ++ s ++ right) = s :=
  trimWhile_eq_iff.mpr ⟨left, right, rfl, hleft, hright, fun c hc => (hs.head c hc).1, hs.last⟩

theorem trim (hs : IsProse s) : trimWhile Unicode.isBlank s = s := by
  have hnone := hs.trim_around [] [] (by simp) (by simp)
  rwa [List.nil_append, List.append_nil] at hnone

theorem append (hs : IsProse s) (ht : IsProse t) : IsProse (s ++ ' ' :: t) where
  nonempty := by simp
  inLine := by
    intro c hmem
    rw [List.mem_append, List.mem_cons] at hmem
    rcases hmem with hmem | rfl | hmem
    · exact hs.inLine c hmem
    · rfl
    · exact ht.inLine c hmem
  head := by
    cases s with
    | nil => exact absurd rfl hs.nonempty
    | cons c s => exact hs.head
  last := by
    have hlast : (s ++ ' ' :: t).getLast? = t.getLast? := by
      cases t with
      | nil => exact absurd rfl ht.nonempty
      | cons c t => simp [List.getLast?_append, List.getLast?_cons]
    rw [hlast]
    exact ht.last

/-- Lines of prose, one after another, are one. -/
theorem joinWith {parts : List (List Char)} (hne : parts ≠ [])
    (hparts : ∀ part ∈ parts, IsProse part) : IsProse (joinWith [' '] parts) := by
  induction parts with
  | nil => exact absurd rfl hne
  | cons part parts ih =>
      rw [List.forall_mem_cons] at hparts
      cases parts with
      | nil => exact hparts.1
      | cons next parts =>
          have hjoin : Text.joinWith [' '] (part :: next :: parts) =
              part ++ ' ' :: Text.joinWith [' '] (next :: parts) := by
            rw [joinWith_eq_intercalate, joinWith_eq_intercalate, List.intercalate_cons_cons,
              List.append_assoc, List.singleton_append]
          rw [hjoin]
          exact hparts.1.append (ih (List.cons_ne_nil _ _) hparts.2)

end IsProse

section Lines

theorem isBlank_star : Unicode.isBlank '*' = false := by decide

theorem isBlank_space : ∀ c ∈ [' '], Unicode.isBlank c = true := by
  intro c hmem
  rw [List.mem_singleton.mp hmem]
  decide

/-- Behind a star and a space, prose is what the line says. -/
theorem proseLine_item {text : List Char} (htext : IsProse text) (margin : Margin) :
    proseLine (margin.chars ++ '*' :: ' ' :: text) = text := by
  have hstar : trimWhile Unicode.isBlank (margin.chars ++ '*' :: ' ' :: text) =
      '*' :: ' ' :: text := by
    refine trimWhile_eq_iff.mpr ⟨margin.chars, [], by simp, margin.blank, by simp, ?_, ?_⟩
    · rintro c ⟨⟩
      exact isBlank_star
    · cases text with
      | nil => exact absurd rfl htext.nonempty
      | cons d text => simpa using htext.last
  have hspace := htext.trim_around [' '] [] isBlank_space (by simp)
  rw [List.append_nil, List.singleton_append] at hspace
  rw [proseLine, hstar, List.dropWhile_cons_of_pos (by simp),
    List.dropWhile_cons_of_neg (by simp), hspace]

/-- Stars alone say nothing. -/
theorem proseLine_bare (margin : Margin) (stars : Nat) (trail : Margin) :
    proseLine (CommentRow.bare margin stars trail).chars = [] := by
  have hstars : trimWhile Unicode.isBlank
      (margin.chars ++ List.replicate stars '*' ++ trail.chars) = List.replicate stars '*' := by
    refine trimWhile_eq_iff.mpr
      ⟨margin.chars, trail.chars, rfl, margin.blank, trail.blank, ?_, ?_⟩
    · intro c hc
      rw [List.eq_of_mem_replicate (List.mem_of_head? hc)]
      exact isBlank_star
    · intro c hc
      rw [List.eq_of_mem_replicate (List.mem_of_getLast? hc)]
      exact isBlank_star
  rw [CommentRow.chars, proseLine, hstars, List.dropWhile_replicate,
    if_pos (beq_self_eq_true '*')]
  rfl

/-- Behind a star and a space, a tag is what the line begins with. -/
theorem head?_proseLine_tag (margin : Margin) (more : List Char) :
    (proseLine (margin.chars ++ '*' :: ' ' :: '@' :: more)).head? = some '@' := by
  have hsign : Unicode.isBlank '@' = false := by decide
  have hstar : trimWhile Unicode.isBlank (margin.chars ++ '*' :: ' ' :: '@' :: more) =
      '*' :: ' ' :: '@' :: dropEndWhile Unicode.isBlank more := by
    rw [trimWhile, dropWhile_append_end margin.blank (by simpa using isBlank_star)]
    exact dropEndWhile_append_stop hsign ['*', ' '] more
  have htag : trimWhile Unicode.isBlank (' ' :: '@' :: dropEndWhile Unicode.isBlank more) =
      '@' :: dropEndWhile Unicode.isBlank (dropEndWhile Unicode.isBlank more) := by
    rw [trimWhile, ← List.singleton_append,
      dropWhile_append_end isBlank_space (by simpa using hsign)]
    exact dropEndWhile_append_stop hsign [] _
  rw [proseLine, hstar, List.dropWhile_cons_of_pos (by simp),
    List.dropWhile_cons_of_neg (by simp), htag]
  rfl

theorem proseLines_cons_of_nothing {line : List Char} (hline : proseLine line = [])
    (rest : List (List Char)) : proseLines (line :: rest) = proseLines rest := by
  simp [proseLines, hline]

theorem proseLines_cons_of_isProse {line text : List Char} (hline : proseLine line = text)
    (htext : IsProse text) (rest : List (List Char)) :
    proseLines (line :: rest) = text :: proseLines rest := by
  have hhead : ¬ text.head? = some '@' := fun h => (htext.head '@' h).2.2 rfl
  simp [proseLines, hline, hhead, htext.nonempty]

theorem proseLines_cons_of_tag {line : List Char} (hline : (proseLine line).head? = some '@')
    (rest : List (List Char)) : proseLines (line :: rest) = [] := by
  simp [proseLines, hline]

/-- A line break closes a line, and what is said behind it stays. -/
theorem exists_lines_break (ending : LineBreak) (s : List Char) :
    ∃ rest, lines (ending.chars ++ s) = [] :: rest ∧ proseLines rest = proseLines (lines s) := by
  cases ending with
  | pair => exact ⟨lines s, rfl, rfl⟩
  | single c hc =>
      rw [LineBreak.chars, List.singleton_append]
      by_cases hpair : c = '\r' ∧ ∃ rest, s = '\n' :: rest
      · -- The break is completed by the line feed behind it, which would close a blank line.
        obtain ⟨rfl, rest, rfl⟩ := hpair
        refine ⟨lines rest, rfl, ?_⟩
        have hblank : lines ('\n' :: rest) = [] :: lines rest := by
          simp [lines, isLineEnd]
        rw [hblank, proseLines_cons_of_nothing rfl]
      · refine ⟨lines s, ?_, rfl⟩
        rw [lines, if_pos hc]
        rintro rest rfl rfl
        exact hpair ⟨rfl, rest, rfl⟩

theorem CommentRow.inLine_bare (margin : Margin) (stars : Nat) (trail : Margin) :
    ∀ c ∈ (bare margin stars trail).chars, isLineEnd c = false := by
  intro c hmem
  simp only [chars, List.mem_append] at hmem
  rcases hmem with (hmem | hmem) | hmem
  · exact margin.inLine c hmem
  · rw [List.eq_of_mem_replicate hmem]
    decide
  · exact trail.inLine c hmem

theorem inLine_item {text : List Char} (htext : ∀ c ∈ text, isLineEnd c = false)
    (margin : Margin) : ∀ c ∈ margin.chars ++ '*' :: ' ' :: text, isLineEnd c = false := by
  intro c hmem
  simp only [List.mem_append, List.mem_cons] at hmem
  rcases hmem with hmem | rfl | rfl | hmem
  · exact margin.inLine c hmem
  · decide
  · decide
  · exact htext c hmem

theorem proseLines_margin (margin : Margin) : proseLines (lines margin.chars) = [] := by
  by_cases hne : margin.chars = []
  · rw [hne]
    rfl
  · have hnone := proseLine_bare margin 0 ⟨[], rfl⟩
    rw [CommentRow.chars, List.replicate_zero, List.append_nil, List.append_nil] at hnone
    rw [lines_of_none hne margin.inLine, proseLines_cons_of_nothing hnone]
    rfl

/-- Prose on a single line, with a space on either side, is what the line says. -/
theorem proseLines_single {text : List Char} (htext : IsProse text) :
    proseLines (lines ([' '] ++ text ++ [' '])) = [text] := by
  have hinLine : ∀ c ∈ [' '] ++ text ++ [' '], isLineEnd c = false := by
    intro c hmem
    simp only [List.mem_append, List.mem_singleton] at hmem
    rcases hmem with (rfl | hmem) | rfl
    · decide
    · exact htext.inLine c hmem
    · decide
  have hstar : text.dropWhile (· == '*') = text := by
    cases text with
    | nil => rfl
    | cons c text => exact List.dropWhile_cons_of_neg (by simpa using (htext.head c rfl).2.1)
  have hline : proseLine ([' '] ++ text ++ [' ']) = text := by
    rw [proseLine, htext.trim_around [' '] [' '] isBlank_space isBlank_space, hstar, htext.trim]
  rw [lines_of_none (by simp) hinLine, proseLines_cons_of_isProse hline htext]
  rfl

/-- A tag ends the prose, whatever stands behind it on its line or on those below. -/
theorem proseLines_tag (margin : Margin) {tag : String} (htag : tag.toList.head? = some '@')
    (s : List Char) : proseLines (lines ((CommentRow.item margin tag).chars ++ s)) = [] := by
  obtain ⟨more, hmore⟩ := List.head?_eq_some_iff.mp htag
  have hchars : (CommentRow.item margin tag).chars ++ s =
      margin.chars ++ ['*', ' ', '@'] ++ (more ++ s) := by
    simp [CommentRow.chars, hmore]
  have hword : ∀ c ∈ margin.chars ++ ['*', ' ', '@'], isLineEnd c = false :=
    inLine_item (by simp [isLineEnd] : ∀ c ∈ ['@'], isLineEnd c = false) margin
  obtain ⟨behind, rest, hlines⟩ := lines_word (by simp) hword (more ++ s)
  have hline : margin.chars ++ ['*', ' ', '@'] ++ behind =
      margin.chars ++ '*' :: ' ' :: '@' :: behind := by simp
  rw [hchars, hlines, hline, proseLines_cons_of_tag (head?_proseLine_tag margin behind)]

/-- The rows say their texts up to the first tag. -/
theorem proseLines_rows (closing : Margin) {rows : List (CommentRow × LineBreak)}
    {prose tags : List String} (hprose : ∀ line ∈ prose, IsProse line.toList)
    (htags : ∀ tag ∈ tags.head?, tag.toList.head? = some '@')
    (htexts : (rows.filterMap fun row => row.1.text?) = prose ++ tags) :
    proseLines (lines (CommentLayout.rowsText rows ++ closing.chars)) =
      prose.map String.toList := by
  induction rows generalizing prose with
  | nil =>
      have hnone : prose = [] := (List.append_eq_nil_iff.mp htexts.symm).1
      rw [hnone]
      exact proseLines_margin closing
  | cons row rows ih =>
      obtain ⟨row, ending⟩ := row
      have hsplit : CommentLayout.rowsText ((row, ending) :: rows) ++ closing.chars =
          row.chars ++ (ending.chars ++ (CommentLayout.rowsText rows ++ closing.chars)) := by
        simp [CommentLayout.rowsText]
      obtain ⟨rest, hlines, hrest⟩ :=
        exists_lines_break ending (CommentLayout.rowsText rows ++ closing.chars)
      rw [hsplit]
      cases row with
      | bare margin stars trail =>
          rw [lines_append (CommentRow.inLine_bare margin stars trail) hlines,
            proseLines_cons_of_nothing (proseLine_bare margin stars trail), hrest]
          exact ih hprose htexts
      | item margin text =>
          have htext : text :: (rows.filterMap fun row => row.1.text?) = prose ++ tags := htexts
          cases prose with
          | nil =>
              obtain rfl : text :: _ = tags := htext
              exact proseLines_tag margin (htags text rfl) _
          | cons line prose =>
              rw [List.cons_append, List.cons.injEq] at htext
              obtain ⟨rfl, hothers⟩ := htext
              rw [List.forall_mem_cons] at hprose
              rw [CommentRow.chars, lines_append (inLine_item hprose.1.inLine margin) hlines,
                proseLines_cons_of_isProse (proseLine_item hprose.1 margin) hprose.1, hrest,
                ih hprose.2 hothers]
              rfl

end Lines

/-- The marks at the ends of a comment are taken off, whatever stands between them. -/
theorem withoutCommentMarks_append (body : List Char) :
    withoutCommentMarks ("/**".toList ++ body ++ "*/".toList) = body := by
  have htrim : trimWhile Unicode.isBlank ("/**".toList ++ body ++ "*/".toList) =
      "/**".toList ++ (body ++ "*/".toList) := by
    refine trimWhile_eq_iff.mpr ⟨[], [], by simp, by simp, by simp, ?_, ?_⟩
    · rintro c ⟨⟩
      decide
    · intro c hc
      have hlast : ("/**".toList ++ body ++ "*/".toList).getLast? = some '/' := by
        rw [List.getLast?_append]
        rfl
      rw [← List.append_assoc, hlast] at hc
      obtain rfl := Option.some.inj hc
      decide
  rw [withoutCommentMarks, htrim]
  simp only [afterStart?_eq_some_iff.mpr rfl, beforeEnd?_eq_some_iff.mpr rfl, Option.getD_some]

/-- What is said on the lines of a comment is put on one line. -/
theorem proseOf_eq {body : List Char} {said : List (List Char)}
    (hbody : proseLines (lines body) = said) (hsaid : ∀ part ∈ said, IsProse part) :
    proseOf (String.ofList ("/**".toList ++ body ++ "*/".toList)) =
      String.ofList (joinWith [' '] said) := by
  rw [proseOf, String.toList_ofList, withoutCommentMarks_append, hbody]
  cases said with
  | nil => rfl
  | cons part said => rw [(IsProse.joinWith (List.cons_ne_nil part said) hsaid).trim]

theorem proseOf_single {text : List Char} (htext : IsProse text) :
    proseOf (String.ofList ("/**".toList ++ ([' '] ++ text ++ [' ']) ++ "*/".toList)) =
      String.ofList text := by
  have hread := proseOf_eq (proseLines_single htext) (by simpa using htext)
  exact hread

theorem intercalate_eq_ofList (prose : List String) :
    " ".intercalate prose = String.ofList (joinWith [' '] (prose.map String.toList)) := by
  have hjoin := toList_intercalate " " prose
  rw [← String.toList_inj, hjoin]
  exact String.toList_ofList.symm

/-- However a comment is laid out, its prose up to the first tag is read from it, each line
as it is and with a space between them; and so it is from a comment on a single line. -/
theorem proseOf_layout (layout : CommentLayout) (prose tags : List String)
    (hprose : ∀ line ∈ prose, IsProse line.toList)
    (htags : ∀ tag ∈ tags.head?, tag.toList.head? = some '@')
    (htexts : layout.texts = prose ++ tags) :
    proseOf layout.comment = " ".intercalate prose ∧
      proseOf ("/** " ++ " ".intercalate prose ++ " */") = " ".intercalate prose := by
  have hlines : ∀ part ∈ prose.map String.toList, IsProse part := by
    rw [List.forall_mem_map]
    exact hprose
  constructor
  · rw [intercalate_eq_ofList]
    refine proseOf_eq ?_ hlines
    obtain ⟨rest, hbreak, hrest⟩ := exists_lines_break layout.opening
      (CommentLayout.rowsText layout.rows ++ layout.closing.chars)
    rw [hbreak, proseLines_cons_of_nothing rfl, hrest]
    exact proseLines_rows layout.closing hprose htags htexts
  · rw [intercalate_eq_ofList]
    have hcomment (text : List Char) : "/** " ++ String.ofList text ++ " */" =
        String.ofList ("/**".toList ++ ([' '] ++ text ++ [' ']) ++ "*/".toList) := by
      rw [← String.toList_inj]
      simp [String.toList_append]
    rw [hcomment]
    by_cases hne : prose = []
    · subst hne
      rfl
    · exact proseOf_single (IsProse.joinWith (mt List.map_eq_nil_iff.mp hne) hlines)

namespace SampleComment

def step : Margin where
  chars := [' ']
  all_blank := by decide

def tab : Margin where
  chars := ['\t', '\u3000']
  all_blank := by decide

def flush : Margin where
  chars := []
  all_blank := by decide

def feed : LineBreak :=
  .single '\n' (by decide)

/-- Two lines of prose with marks in them, between blank lines of all kinds and before two
tags, of which the second looks like prose. -/
def layout : CommentLayout where
  opening := feed
  rows := [
    (.item step "Shows a card /** with * stars */", feed),
    (.bare step 1 flush, .pair),
    (.bare flush 0 flush, feed),
    (.bare tab 3 step, .single '\r' (by decide)),
    (.bare flush 0 flush, feed),
    (.item flush "or mails a@b.example.", feed),
    (.item tab "@param title  The title.", feed),
    (.item step "More of it.", feed)]
  closing := step

def prose : List String :=
  ["Shows a card /** with * stars */", "or mails a@b.example."]

theorem proseOf_layout_sample :
    layout.comment = "/**\n * Shows a card /** with * stars */\n *\r\n\n\t\u3000*** \r\n" ++
        "* or mails a@b.example.\n\t\u3000* @param title  The title.\n * More of it.\n */" ∧
      (∀ line ∈ prose, IsProse line.toList) ∧
      layout.texts = prose ++ ["@param title  The title.", "More of it."] ∧
      proseOf layout.comment = "Shows a card /** with * stars */ or mails a@b.example." ∧
      proseOf "/** Shows a card /** with * stars */ or mails a@b.example. */" =
        "Shows a card /** with * stars */ or mails a@b.example." := by
  have htexts : layout.texts = prose ++ ["@param title  The title.", "More of it."] := by rfl
  have hprose : ∀ line ∈ prose, IsProse line.toList := by decide +kernel
  have htag : ∀ tag ∈ ["@param title  The title.", "More of it."].head?,
      tag.toList.head? = some '@' := by
    rintro tag ⟨⟩
    rfl
  have hread := proseOf_layout layout prose _ hprose htag htexts
  exact ⟨by decide +kernel, hprose, htexts, hread.1, hread.2⟩

end SampleComment

end RepoAtlas
