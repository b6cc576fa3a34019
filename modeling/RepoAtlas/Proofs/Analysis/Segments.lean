import RepoAtlas.Analysis.Candidate
import RepoAtlas.Proofs.Pattern
import RepoAtlas.Proofs.Repository.Reading

/-!
Paths as the segments between their slashes, and where the patterns of paths occur in them.
-/
namespace RepoAtlas

/-- Whether a text can stand between the slashes of a path. -/
structure IsSegment (segment : String) : Prop where
  nonempty : segment ≠ ""
  notHere : segment ≠ "."
  slash : '/' ∉ segment.toList
  lineFeed : '\n' ∉ segment.toList

instance (segment : String) : Decidable (IsSegment segment) :=
  decidable_of_iff
    (segment ≠ "" ∧ segment ≠ "." ∧ '/' ∉ segment.toList ∧ '\n' ∉ segment.toList)
    ⟨fun ⟨nonempty, notHere, slash, lineFeed⟩ => ⟨nonempty, notHere, slash, lineFeed⟩,
      fun h => ⟨h.nonempty, h.notHere, h.slash, h.lineFeed⟩⟩

/-- The path of a file: the folders on the way to it, and its own name. -/
structure SegmentPath where
  folders : List String
  file : String
  segments : ∀ segment ∈ folders ++ [file], IsSegment segment

namespace SegmentPath

/-- The path as text. -/
def path (p : SegmentPath) : String :=
  "/".intercalate (p.folders ++ [p.file])

variable (p : SegmentPath)

theorem ofString_path : PurePath.ofString p.path = ⟨"", p.folders ++ [p.file]⟩ :=
  PurePath.ofString_intercalate_of_kept (by simp)
    (fun segment hmem => (p.segments segment hmem).slash)
    fun segment hmem => ⟨(p.segments segment hmem).nonempty, (p.segments segment hmem).notHere⟩

theorem stemOf_path : stemOf p.path = withoutEnding p.file := by
  rw [stemOf, ofString_path, PurePath.name, List.getLast?_concat]
  rfl

theorem isBelow_path_iff {names : List String} :
    isBelow names p.path = true ↔ ∃ folder ∈ p.folders, folder ∈ names := by
  rw [isBelow, ofString_path, PurePath.directories, List.dropLast_concat, List.any_eq_true]
  simp only [List.contains_iff_mem]

theorem splitOnChar_path : Text.splitOnChar '/' p.path = p.folders ++ [p.file] :=
  Text.splitOnChar_intercalate (by simp) fun segment hmem => (p.segments segment hmem).slash

theorem anchored_path : anchored p.path = "/" ++ p.path := by
  have hfirst : p.path.toList.dropWhile (· == '/') = p.path.toList := by
    cases hpath : p.path.toList with
    | nil => rfl
    | cons c rest =>
        apply List.dropWhile_cons_of_neg
        intro hc
        have hempty : "" ∈ p.folders ++ [p.file] := by
          rw [← splitOnChar_path, Text.splitOnChar, hpath, Text.splitAt, if_pos hc]
          exact List.mem_cons_self
        exact (p.segments _ hempty).nonempty rfl
  rw [anchored, Text.trimStart, hfirst, String.ofList_toList]

theorem splitOnChar_anchored :
    Text.splitOnChar '/' (anchored p.path) = "" :: (p.folders ++ [p.file]) := by
  have hslash : anchored p.path = "" ++ "/" ++ p.path := p.anchored_path
  rw [hslash, Text.splitOnChar_append, splitOnChar_path]
  rfl

/-- Texts are one and the same if they have the same parts. -/
theorem anchored_eq_iff {s : String} :
    anchored p.path = s ↔ "" :: (p.folders ++ [p.file]) = Text.splitOnChar '/' s := by
  constructor
  · rintro rfl
    exact p.splitOnChar_anchored.symm
  · intro h
    rw [← Text.intercalate_splitOnChar s, ← h, ← splitOnChar_anchored,
      Text.intercalate_splitOnChar]

theorem lineFeed_not_mem : '\n' ∉ (anchored p.path).toList := by
  intro hmem
  obtain ⟨segment, hsegment, hfeed⟩ :=
    Text.exists_mem_splitOnChar_iff.mpr ⟨hmem, (by decide : '\n' ≠ '/')⟩
  rw [splitOnChar_anchored, List.mem_cons] at hsegment
  rcases hsegment with rfl | hsegment
  · cases hfeed
  · exact (p.segments _ hsegment).lineFeed hfeed

end SegmentPath

namespace Pattern

/-- Whether a pattern passes certain words, wherever they stand. -/
def Takes (p : Pattern) (words : List Char → Prop) : Prop :=
  ∀ before word rest, p.Passes before word rest ↔ words word

/-- Whether a pattern passes certain words, but only at the end of a text. -/
def Closes (p : Pattern) (words : List Char → Prop) : Prop :=
  ∀ before word rest, p.Passes before word rest ↔ words word ∧ (rest = [] ∨ rest = ['\n'])

theorem takes_nothing : nothing.Takes (· = []) := fun _ _ _ => Iff.rfl

theorem takes_text (s : String) : (text s).Takes (· = s.toList) := fun _ _ _ => passes_text

theorem takes_one (accepts : Char → Bool) :
    (one accepts).Takes fun word => ∃ c, accepts c = true ∧ word = [c] := fun _ _ _ => Iff.rfl

theorem takes_many (accepts : Char → Bool) :
    (many accepts).Takes fun word => ∀ c ∈ word, accepts c = true := fun _ _ _ => Iff.rfl

theorem takes_choice (s : String) (others : List String) :
    (choice (text s) (others.map text)).Takes fun word => ∃ t ∈ s :: others, word = t.toList := by
  intro before word rest
  rw [passes_choice, ← List.map_cons]
  simp only [List.mem_map, exists_exists_and_eq_and, passes_text]

theorem closes_textEnd : textEnd.Closes (· = []) := fun _ _ _ => Iff.rfl

section Parts

variable {p q : Pattern} {words others : List Char → Prop}

theorem Takes.possibly (h : p.Takes words) :
    (possibly p).Takes fun word => words word ∨ word = [] := fun before word rest =>
  passes_possibly.trans (or_congr_left (h before word rest))

/-- What is passed behind a word closes the text if it does so alone. -/
theorem Takes.closes (hp : p.Takes words) (hq : q.Closes others) :
    (both p q).Closes fun word =>
      ∃ front back, word = front ++ back ∧ words front ∧ others back := by
  intro before word rest
  rw [passes_both]
  constructor
  · rintro ⟨front, back, rfl, hfront, hback⟩
    obtain ⟨hback, hrest⟩ := (hq _ _ _).mp hback
    exact ⟨⟨front, back, rfl, (hp _ _ _).mp hfront, hback⟩, hrest⟩
  · rintro ⟨⟨front, back, rfl, hfront, hback⟩, hrest⟩
    exact ⟨front, back, rfl, (hp _ _ _).mpr hfront, (hq _ _ _).mpr ⟨hback, hrest⟩⟩

end Parts

end Pattern

open Pattern

/-- The endings of scripts and modules: a dot, possibly `c` or `m`, then `js` or `ts`, and
last one of some texts. -/
def scriptEndings (last : List String) : List String :=
  ["", "c", "m"].flatMap fun kind => ["j", "t"].flatMap fun language =>
    last.map fun letter => "." ++ kind ++ language ++ "s" ++ letter

/-- The endings of code, with markup in it or without. -/
def codeEndings : List String :=
  scriptEndings ["", "x"]

/-- A text of a list, in characters. -/
def IsOneOf (texts : List String) (word : List Char) : Prop :=
  ∃ s ∈ texts, word = s.toList

theorem takes_kind : (possibly (one ['c', 'm'].contains)).Takes (IsOneOf ["", "c", "m"]) := by
  intro before word rest
  rw [(takes_one _).possibly]
  simp [IsOneOf, or_comm, or_and_right, exists_or]

theorem takes_language : (one ['j', 't'].contains).Takes (IsOneOf ["j", "t"]) := by
  intro before word rest
  rw [takes_one]
  simp [IsOneOf, or_and_right, exists_or]

theorem closes_endingWithout {lastLetter : Pattern} {last : List String}
    (h : lastLetter.Takes (IsOneOf last)) :
    (endingWithout lastLetter).Closes (IsOneOf (scriptEndings last)) := by
  have hclose := (takes_text ".").closes
    (takes_kind.closes (takes_language.closes ((takes_text "s").closes (h.closes closes_textEnd))))
  intro before word rest
  refine (hclose before word rest).trans (and_congr_left fun _ => ?_)
  simp only [IsOneOf, scriptEndings, List.mem_flatMap, List.mem_map]
  constructor
  · rintro ⟨_, _, rfl, rfl, _, _, rfl, ⟨kind, hkind, rfl⟩, _, _, rfl,
      ⟨language, hlanguage, rfl⟩, _, _, rfl, rfl, _, _, rfl, ⟨letter, hletter, rfl⟩, rfl⟩
    exact ⟨_, ⟨kind, hkind, language, hlanguage, letter, hletter, rfl⟩,
      by simp [String.toList_append]⟩
  · rintro ⟨_, ⟨kind, hkind, language, hlanguage, letter, hletter, rfl⟩, rfl⟩
    refine ⟨".".toList, kind.toList ++ (language.toList ++ ("s".toList ++ (letter.toList ++ []))),
      ?_, rfl, _, _, rfl, ⟨kind, hkind, rfl⟩, _, _, rfl, ⟨language, hlanguage, rfl⟩,
      _, _, rfl, rfl, _, _, rfl, ⟨letter, hletter, rfl⟩, rfl⟩
    simp [String.toList_append]

theorem closes_sourceEnding : sourceEnding.Closes (IsOneOf codeEndings) := by
  apply closes_endingWithout
  intro before word rest
  rw [(takes_text "x").possibly]
  simp [IsOneOf, or_comm]

theorem closes_plainEnding : (endingWithout nothing).Closes (IsOneOf (scriptEndings [""])) := by
  apply closes_endingWithout
  intro before word rest
  rw [takes_nothing]
  simp [IsOneOf]

theorem passes_folders {before : Option Char} {word rest : List Char} :
    RepoAtlas.folders.Passes before word rest ↔
      word = [] ∨ ∃ way, '\n' ∉ way ∧ word = way ++ ['/'] := by
  rw [RepoAtlas.folders, passes_possibly, passes_both, or_comm]
  refine or_congr_right ?_
  simp only [takes_many _ _ _ _, passes_text, bne_iff_ne]
  constructor
  · rintro ⟨way, _, rfl, hway, rfl⟩
    exact ⟨way, fun hmem => hway _ hmem rfl, rfl⟩
  · rintro ⟨way, hway, rfl⟩
    exact ⟨way, _, rfl, fun c hmem hc => hway (hc ▸ hmem), rfl⟩

namespace SegmentPath

variable (p : SegmentPath)

/-- What stands behind a slash are last segments of the path, as many as it has parts. -/
theorem exists_front_iff {behind : String} :
    (∃ front, anchored p.path = front ++ "/" ++ behind) ↔
      Text.splitOnChar '/' behind <:+ p.folders ++ [p.file] := by
  simp only [anchored_eq_iff, Text.splitOnChar_append]
  constructor
  · rintro ⟨front, h⟩
    cases hfront : Text.splitOnChar '/' front with
    | nil => exact absurd hfront (Text.splitOnChar_ne_nil _ _)
    | cons part above =>
        rw [hfront, List.cons_append, List.cons.injEq] at h
        exact ⟨above, h.2.symm⟩
  · rintro ⟨above, h⟩
    refine ⟨"/".intercalate ("" :: above), ?_⟩
    have habove : ∀ part ∈ "" :: above, '/' ∉ part.toList := by
      rw [List.forall_mem_cons]
      refine ⟨by simp, fun part hmem => (p.segments part ?_).slash⟩
      rw [← h]
      exact List.mem_append_left _ hmem
    rw [Text.splitOnChar_intercalate (by simp) habove, List.cons_append, h]

/-- A folder on the way to a file, told by the text of the path. -/
theorem mem_folders_iff {folder name : String} (hfolder : '/' ∉ folder.toList)
    (hname : '/' ∉ name.toList) :
    folder ∈ p.folders ∧ p.file = name ↔
      (∃ front, anchored p.path = front ++ "/" ++ (folder ++ "/" ++ name)) ∨
        ∃ way front, anchored p.path = front ++ "/" ++ (folder ++ "/" ++ way ++ "/" ++ name) := by
  simp only [exists_front_iff, Text.splitOnChar_append, Text.splitOnChar_of_not_mem hfolder,
    Text.splitOnChar_of_not_mem hname]
  constructor
  · rintro ⟨hmem, rfl⟩
    obtain ⟨above, below, hfolders⟩ := List.append_of_mem hmem
    have hslash : ∀ segment ∈ below, '/' ∉ segment.toList := fun segment h =>
      (p.segments segment (by simp [hfolders, h])).slash
    rw [hfolders]
    cases below with
    | nil => exact .inl ⟨above, by simp⟩
    | cons next below =>
        refine .inr ⟨"/".intercalate (next :: below), above, ?_⟩
        rw [Text.splitOnChar_intercalate (by simp) hslash]
        simp
  · have hread (way : List String) (h : folder :: way ++ [name] <:+ p.folders ++ [p.file]) :
        folder ∈ p.folders ∧ p.file = name := by
      obtain ⟨above, h⟩ := h
      rw [← List.append_assoc] at h
      obtain ⟨hfolders, hfile⟩ := List.append_inj' h rfl
      exact ⟨by simp [← hfolders], (List.cons.inj hfile).1.symm⟩
    rintro (h | ⟨way, h⟩)
    · exact hread [] h
    · exact hread (Text.splitOnChar '/' way) h

/-- A pattern of files below a folder occurs in a path just if the folder is on the way to the
file and the name of the file is one that the pattern closes with. -/
theorem occursIn_below_iff {mark folder : String} (hmark : mark = "/" ++ folder ++ "/")
    (hfolder : '/' ∉ folder.toList) {q : Pattern} {names : List Char → Prop}
    (hq : q.Closes names) (hnames : ∀ name, names name → '/' ∉ name) :
    (both (text mark) (both RepoAtlas.folders q)).occursIn (anchored p.path) = true ↔
      folder ∈ p.folders ∧ names p.file.toList := by
  rw [occursIn_iff]
  constructor
  · rintro ⟨front, _, rest, hpath, _, _, rfl, hmarked, way, name, rfl, hway, hname⟩
    obtain rfl := passes_text.mp hmarked
    obtain ⟨hname, hrest⟩ := (hq _ _ _).mp hname
    have hnil : rest = [] := by
      refine hrest.resolve_right ?_
      rintro rfl
      exact p.lineFeed_not_mem (by simp [hpath])
    have hfile : folder ∈ p.folders ∧ p.file = String.ofList name := by
      rw [p.mem_folders_iff hfolder (by simpa using hnames name hname)]
      simp only [← String.toList_inj, hpath, hnil, hmark]
      rcases passes_folders.mp hway with rfl | ⟨way, -, rfl⟩
      · exact .inl ⟨String.ofList front, by simp [String.toList_append]⟩
      · exact .inr ⟨String.ofList way, String.ofList front, by simp [String.toList_append]⟩
    exact ⟨hfile.1, by rwa [hfile.2, String.toList_ofList]⟩
  · rintro ⟨hmem, hname⟩
    have hslash : '/' ∉ p.file.toList := hnames _ hname
    have hfeed := p.lineFeed_not_mem
    obtain ⟨front, hpath⟩ | ⟨way, front, hpath⟩ :=
      (p.mem_folders_iff hfolder hslash).mp ⟨hmem, rfl⟩
    · refine ⟨front.toList, mark.toList ++ ([] ++ p.file.toList), [], ?_, mark.toList, _, rfl,
        passes_text.mpr rfl, [], _, rfl, passes_folders.mpr (.inl rfl),
        (hq _ _ _).mpr ⟨hname, .inl rfl⟩⟩
      simp [hpath, hmark, String.toList_append]
    · have hway : '\n' ∉ way.toList := fun hmem => hfeed (by simp [hpath, hmem])
      refine ⟨front.toList, mark.toList ++ (way.toList ++ ['/'] ++ p.file.toList), [], ?_,
        mark.toList, _, rfl, passes_text.mpr rfl, _, _, rfl,
        passes_folders.mpr (.inr ⟨_, hway, rfl⟩), (hq _ _ _).mpr ⟨hname, .inl rfl⟩⟩
      simp [hpath, hmark, String.toList_append]

/-- Two folders, the second in the first, are on the way to a file just if their names stand
between slashes in the path. -/
theorem occursIn_nested_iff {mark first second : String}
    (hmark : mark = "/" ++ first ++ "/" ++ second ++ "/") (hfirst : '/' ∉ first.toList)
    (hsecond : '/' ∉ second.toList) :
    (text mark).occursIn (anchored p.path) = true ↔ [first, second] <:+: p.folders := by
  have hoccurs : (text mark).occursIn (anchored p.path) = true ↔
      ∃ rest front, anchored p.path = front ++ "/" ++ (first ++ "/" ++ second ++ "/" ++ rest) := by
    rw [occursIn_iff]
    constructor
    · rintro ⟨front, word, rest, hpath, hword⟩
      refine ⟨String.ofList rest, String.ofList front, ?_⟩
      simp [← String.toList_inj, hpath, passes_text.mp hword, hmark, String.toList_append]
    · rintro ⟨rest, front, hpath⟩
      refine ⟨front.toList, mark.toList, rest.toList, ?_, passes_text.mpr rfl⟩
      simp [hpath, hmark, String.toList_append]
  simp only [hoccurs, exists_front_iff, Text.splitOnChar_append,
    Text.splitOnChar_of_not_mem hfirst, Text.splitOnChar_of_not_mem hsecond]
  constructor
  · rintro ⟨rest, above, h⟩
    have hne := Text.splitOnChar_ne_nil '/' rest
    rw [← List.dropLast_concat_getLast hne, ← List.append_assoc, ← List.append_assoc] at h
    exact ⟨above, _, (List.append_inj' h rfl).1⟩
  · rintro ⟨above, below, hfolders⟩
    have hslash : ∀ segment ∈ below ++ [p.file], '/' ∉ segment.toList := by
      intro segment hmem
      refine (p.segments segment ?_).slash
      rw [← hfolders, List.append_assoc]
      exact List.mem_append_right _ hmem
    refine ⟨"/".intercalate (below ++ [p.file]), above, ?_⟩
    rw [Text.splitOnChar_intercalate (by simp) hslash, ← hfolders]
    simp

end SegmentPath

end RepoAtlas
