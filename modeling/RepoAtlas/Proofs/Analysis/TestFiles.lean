import RepoAtlas.Proofs.Analysis.Segments
import RepoAtlas.Proofs.Pipeline.Provenance
import RepoAtlas.Proofs.Text.Ends
import RepoAtlas.Proofs.Unicode.Lowercase

/-!
Files of tests, which are left out. A source file may have its ending in any case of letters,
but a file of tests is known by its name only if the ending is in lower case.
-/
namespace RepoAtlas

open Pattern

theorem Pattern.Closes.occursIn_iff {p : Pattern} {words : List Char → Prop} (h : p.Closes words)
    {s : String} : p.occursIn s = true ↔
      ∃ word, words word ∧ (word <:+ s.toList ∨ word ++ ['\n'] <:+ s.toList) := by
  rw [Pattern.occursIn_iff]
  constructor
  · rintro ⟨front, word, rest, hs, hpasses⟩
    obtain ⟨hword, rfl | rfl⟩ := (h _ _ _).mp hpasses
    · exact ⟨word, hword, .inl ⟨front, by rw [hs, List.append_nil]⟩⟩
    · exact ⟨word, hword, .inr ⟨front, hs.symm⟩⟩
  · rintro ⟨word, hword, ⟨front, hs⟩ | ⟨front, hs⟩⟩
    · exact ⟨front, word, [], by rw [← hs, List.append_nil], (h _ _ _).mpr ⟨hword, .inl rfl⟩⟩
    · exact ⟨front, word, ['\n'], hs.symm, (h _ _ _).mpr ⟨hword, .inr rfl⟩⟩

/-- Whether the name of a file is that of tests: a stem, a word that says so, and an ending. -/
def IsTestName (endings : String → Prop) (name : String) : Prop :=
  ∃ stem, ∃ inner ∈ ["test", "spec"], ∃ ending, endings ending ∧
    name = stem ++ "." ++ inner ++ ending

/-- Whether a path is one of tests, by a folder on the way or by the name of its file. -/
def IsTestPath (endings : String → Prop) (path : String) : Prop :=
  "__tests__" ∈ (PurePath.ofString path).directories ∨
    IsTestName endings (PurePath.ofString path).name

section SourceFile

variable {path : String}

theorem isSourceFile_iff : isSourceFile path = true ↔
    ∃ ending ∈ sourceEndings, ending.toList <:+ (Unicode.lowercase path).toList := by
  simp only [isSourceFile, List.any_eq_true, Text.isEndingOf, Text.endsIn,
    List.isSuffixOf_iff_suffix]

/-- What ends a source path, in ASCII, agrees with one of the source endings. -/
theorem exists_ending_of_suffix (h : isSourceFile path = true) {word : List Char}
    (hword : word <:+ path.toList) (hascii : ∀ c ∈ word, c.toNat < 128) :
    ∃ ending ∈ sourceEndings, ending.toList <:+ word.map Char.toLower ∨
      word.map Char.toLower <:+ ending.toList := by
  obtain ⟨ending, hending, hsuffix⟩ := isSourceFile_iff.mp h
  exact ⟨ending, hending,
    List.suffix_or_suffix_of_suffix hsuffix (Unicode.suffix_lowercase hword hascii)⟩

/-- No line feed ends a source path, and of the endings of code only the source endings do. -/
theorem not_lineFeed_suffix (h : isSourceFile path = true) (word : List Char) :
    ¬ word ++ ['\n'] <:+ path.toList := by
  intro hsuffix
  have hfeed : ['\n'] <:+ path.toList := (List.suffix_append word ['\n']).trans hsuffix
  obtain ⟨ending, hending, hagree⟩ := exists_ending_of_suffix h hfeed (by simp)
  have hnone : ∀ ending ∈ sourceEndings, ¬ (ending.toList <:+ ['\n'].map Char.toLower ∨
      ['\n'].map Char.toLower <:+ ending.toList) := by
    decide
  exact hnone ending hending hagree

theorem mem_sourceEndings_of_suffix (h : isSourceFile path = true) {ending : String}
    (hending : ending ∈ codeEndings) (hsuffix : ending.toList <:+ path.toList) :
    ending ∈ sourceEndings := by
  have hascii : ∀ ending ∈ codeEndings, ending.toList.all (fun c => c.toNat < 128) = true := by
    decide
  obtain ⟨other, hother, hagree⟩ := exists_ending_of_suffix h hsuffix fun c hc =>
    of_decide_eq_true (List.all_eq_true.mp (hascii ending hending) c hc)
  have hall : ∀ ending ∈ codeEndings, ∀ other ∈ sourceEndings,
      (other.toList <:+ ending.toList.map Char.toLower ∨
        ending.toList.map Char.toLower <:+ other.toList) → ending ∈ sourceEndings := by
    decide
  exact hall ending hending other hother hagree

/-- A text without a slash, or what stands behind the last slash of a text. -/
theorem exists_last (path : String) : ∃ last : String, '/' ∉ last.toList ∧
    (path = last ∨ ∃ folder, path = folder ++ "/" ++ last) := by
  by_cases hslash : '/' ∈ path.toList
  · obtain ⟨last, folder, hpath, hlast⟩ :=
      List.eq_append_cons_of_mem (List.mem_reverse.mpr hslash)
    have hcut : path.toList = folder.reverse ++ '/' :: last.reverse := by
      rw [← List.reverse_reverse path.toList, hpath]
      simp
    refine ⟨String.ofList last.reverse, by simpa using hlast, .inr ⟨String.ofList folder.reverse, ?_⟩⟩
    rw [← Text.ofList_append_slash, ← hcut, String.ofList_toList]
  · exact ⟨path, hslash, .inl rfl⟩

/-- What a source path ends in, the name of its file ends in. -/
theorem suffix_name_iff (h : isSourceFile path = true) {word : List Char} (hword : '/' ∉ word) :
    word <:+ (PurePath.ofString path).name.toList ↔ word <:+ path.toList := by
  have hends : ∀ word ∈ [['/'], ['.']], ¬ word <:+ path.toList := by
    intro word hmem hsuffix
    have hascii : ∀ word ∈ [['/'], ['.']], ∀ c ∈ word, c.toNat < 128 := by simp
    obtain ⟨ending, hending, hagree⟩ := exists_ending_of_suffix h hsuffix (hascii word hmem)
    have hnone : ∀ word ∈ [['/'], ['.']], ∀ ending ∈ sourceEndings,
        ¬ (ending.toList <:+ word.map Char.toLower ∨ word.map Char.toLower <:+ ending.toList) := by
      decide
    exact hnone word hmem ending hending hagree
  have hname (parts : List String) {last : String}
      (hparts : Text.splitOnChar '/' path = parts ++ [last]) (hempty : last ≠ "")
      (hhere : last ≠ ".") : (PurePath.ofString path).name = last := by
    have hkept : [last].filter (fun name => name != "" && name != ".") = [last] := by
      simp [hempty, hhere]
    rw [PurePath.name, PurePath.ofString, hparts, List.filter_append, hkept]
    simp
  obtain ⟨last, hslash, rfl | ⟨folder, rfl⟩⟩ := exists_last path
  · rw [hname [] (Text.splitOnChar_of_not_mem hslash)]
    · rintro rfl
      exact absurd h (by decide)
    · rintro rfl
      exact absurd h (by decide)
  · have hparts : Text.splitOnChar '/' (folder ++ "/" ++ last) =
        Text.splitOnChar '/' folder ++ [last] := by
      rw [Text.splitOnChar_append, Text.splitOnChar_of_not_mem hslash]
    rw [hname _ hparts, Text.toList_append_slash, Text.suffix_append_cons_iff hword]
    · rintro rfl
      exact hends ['/'] (by simp) ⟨folder.toList, by simp [String.toList_append]⟩
    · rintro rfl
      exact hends ['.'] (by simp) ⟨folder.toList ++ ['/'], by simp [String.toList_append]⟩

theorem closes_testEnding : testEnding.Closes fun word =>
    ∃ inner ∈ ["test", "spec"], ∃ ending ∈ codeEndings,
      word = '.' :: (inner.toList ++ ending.toList) := by
  have hinner : (either (text "test") (text "spec")).Takes (IsOneOf ["test", "spec"]) :=
    takes_choice "test" ["spec"]
  have hclose := (takes_text ".").closes (hinner.closes closes_sourceEnding)
  intro before word rest
  refine (hclose before word rest).trans (and_congr_left fun _ => ?_)
  constructor
  · rintro ⟨_, _, rfl, rfl, _, _, rfl, ⟨inner, hinner, rfl⟩, ending, hending, rfl⟩
    exact ⟨inner, hinner, ending, hending, rfl⟩
  · rintro ⟨inner, hinner, ending, hending, rfl⟩
    exact ⟨['.'], _, rfl, rfl, _, _, rfl, ⟨inner, hinner, rfl⟩, ending, hending, rfl⟩

theorem isTestName_iff {endings : String → Prop} {name : String} : IsTestName endings name ↔
    ∃ inner ∈ ["test", "spec"], ∃ ending, endings ending ∧
      '.' :: (inner.toList ++ ending.toList) <:+ name.toList := by
  constructor
  · rintro ⟨stem, inner, hinner, ending, hending, rfl⟩
    exact ⟨inner, hinner, ending, hending, stem.toList, by simp [String.toList_append]⟩
  · rintro ⟨inner, hinner, ending, hending, stem, hname⟩
    refine ⟨String.ofList stem, inner, hinner, ending, hending, ?_⟩
    simp [← String.toList_inj, ← hname, String.toList_append]

/-- The files of tests among the source files are those below a folder for tests and those
with the name of one, whose ending is in lower case. -/
theorem isTestFile_iff (h : isSourceFile path = true) :
    isTestFile path = true ↔ IsTestPath (· ∈ sourceEndings) path := by
  have hbelow : isBelow ["__tests__"] path = true ↔
      "__tests__" ∈ (PurePath.ofString path).directories := by
    simp [isBelow]
  have hslash : ∀ inner ∈ ["test", "spec"], ∀ ending ∈ sourceEndings,
      '/' ∉ '.' :: (inner.toList ++ ending.toList) := by
    decide
  have hcode : ∀ ending ∈ sourceEndings, ending ∈ codeEndings := by
    decide
  rw [isTestFile, Bool.or_eq_true, or_comm, hbelow, closes_testEnding.occursIn_iff, IsTestPath,
    isTestName_iff]
  refine or_congr_right ?_
  constructor
  · rintro ⟨_, ⟨inner, hinner, ending, hending, rfl⟩, hsuffix | hfeed⟩
    · have hends : ending.toList <:+ '.' :: (inner.toList ++ ending.toList) :=
        (List.suffix_append _ _).trans (List.suffix_cons _ _)
      have hsource := mem_sourceEndings_of_suffix h hending (hends.trans hsuffix)
      exact ⟨inner, hinner, ending, hsource,
        (suffix_name_iff h (hslash inner hinner ending hsource)).mpr hsuffix⟩
    · exact absurd hfeed (not_lineFeed_suffix h _)
  · rintro ⟨inner, hinner, ending, hending, hsuffix⟩
    exact ⟨_, ⟨inner, hinner, ending, hcode ending hending, rfl⟩,
      .inl ((suffix_name_iff h (hslash inner hinner ending hending)).mp hsuffix)⟩

/-- A default export of a component, which is looked into in every source file that is not one
of tests. -/
def clearContent : String :=
  "export default function Component"

theorem isCandidate_clearContent (h : isSourceFile path = true)
    (htest : isTestFile path = false) : isCandidate path clearContent = true := by
  have hdeclared : declarationExport.occursIn clearContent = true := by decide
  have hclear : clearExport.occursIn clearContent = true := by decide
  rw [isCandidate, h, htest, hdeclared, hclear]
  simp

theorem not_isCandidate_of_isTestFile (htest : isTestFile path = true) (content : String) :
    isCandidate path content = false := by
  rw [isCandidate, htest, Bool.or_true]
  rfl

theorem value_ofFile_of_isTestFile (htest : isTestFile path = true) (content : String) :
    (Entity.ofFile path content).value = none := by
  rw [Entity.ofFile, not_isCandidate_of_isTestFile htest]
  rfl

end SourceFile

open Script

/-- Where files are looked into for their entity, none is found in a file of tests. -/
theorem not_finds_of_isTestFile {σ : Type} {laws : WorldLaws σ} {path : String}
    (hexamine : ∀ path content, laws.examine path content = .ok <$> Entity.ofFile path content)
    (htest : isTestFile path = true) {script : Script Unit} {world : World σ} :
    ∀ moment ∈ history laws.handler script world, ¬ moment.Finds path := by
  intro moment hmem hfinds
  cases moment with
  | event e => exact hfinds
  | action a answer =>
      cases a with
      | examine shown content =>
          obtain ⟨e, rfl, hfile⟩ := hfinds
          obtain ⟨reached, hanswer⟩ := answer_of_mem_history hmem
          have hvalue : (Entity.ofFile shown content).value = some e := by
            have hfound : (.ok (some e) : Except Failure (Option Entity)) =
                (laws.examine shown content).value := hanswer
            rw [hexamine] at hfound
            exact (Except.ok.inj hfound).symm
          obtain rfl := (file_of_ofFile hvalue).1.symm.trans hfile
          rw [value_ofFile_of_isTestFile htest] at hvalue
          cases hvalue
      | _ => exact hfinds

/--
The files that are never analyzed, whatever is in them, are those of tests with an ending in
lower case. No entity is found in them, none of them is stored by a run, and a run hands out
none that the cache did not have in a record.
-/
theorem tests_are_left_out {path : String} (h : isSourceFile path = true) :
    ((∀ content, isCandidate path content = false) ↔ IsTestPath (· ∈ sourceEndings) path) ∧
    (IsTestPath (· ∈ sourceEndings) path →
      (∀ content, (Entity.ofFile path content).value = none) ∧
      ∀ {σ : Type} (laws : WorldLaws σ),
        (∀ path content, laws.examine path content = .ok <$> Entity.ofFile path content) →
        ∀ (world : World σ) (plan : AnalysisPlan),
          (∀ request, OnlyRecalled path (history laws.handler (plan.analyze request) world)) ∧
          ∀ folder allFiles e,
            Delivered (drain laws.handler (plan.analyzeFolder folder allFiles) world).events e →
              e.file ≠ path) := by
  refine ⟨⟨fun hnever => ?test, fun htest content => ?_⟩, fun htest => ⟨fun content => ?_, ?_⟩⟩
  case test =>
    rw [← isTestFile_iff h]
    by_contra htest
    have hcandidate := isCandidate_clearContent h (Bool.eq_false_iff.mpr htest)
    rw [hnever] at hcandidate
    cases hcandidate
  · exact not_isCandidate_of_isTestFile ((isTestFile_iff h).mpr htest) content
  · exact value_ofFile_of_isTestFile ((isTestFile_iff h).mpr htest) content
  · intro σ laws hexamine world plan
    have hnot {script : Script Unit} :
        ∀ moment ∈ history laws.handler script world, ¬ moment.Finds path :=
      not_finds_of_isTestFile hexamine ((isTestFile_iff h).mpr htest)
    constructor
    · intro request
      obtain ⟨_, hcourse⟩ := course_history laws.handler (plan.analyze request) world
      exact AnalysisPlan.onlyRecalled_of_analyze hcourse hnot
    · intro folder allFiles e hdelivered
      obtain ⟨_, hcourse⟩ := course_history laws.handler (plan.analyzeFolder folder allFiles) world
      rw [drain_events] at hdelivered
      obtain ⟨moment, hmem, he⟩ := exists_of_delivered hdelivered
      exact AnalysisPlan.omits_of_analyzeFolder hcourse hnot moment hmem e he

namespace SampleTests

def disk : DiskNode :=
  .folder [("src", .folder [("Button.test.tsx", .file (Utf8.encode clearContent) .zero)])]

def laws : WorldLaws (Option LocalTree) where
  source := folderSource disk [] []
  cache := { directory := "cache" }
  context := ⟨.zero, .zero, ".tmp-.part", fun _ => none⟩

theorem tests_are_left_out_sample :
    isSourceFile "src/Button.test.tsx" = true ∧
    IsTestPath (· ∈ sourceEndings) "src/Button.test.tsx" ∧
    (∀ content, isCandidate "src/Button.test.tsx" content = false) ∧
    ∀ e, Delivered (drain laws.handler (AnalysisPlan.analyzeFolder {} "/" false)
      { source := none }).events e → e.file ≠ "src/Button.test.tsx" := by
  have hsource : isSourceFile "src/Button.test.tsx" = true := by decide
  have htest : IsTestPath (· ∈ sourceEndings) "src/Button.test.tsx" :=
    .inr ⟨"Button", "test", by simp, ".tsx", by decide, by decide⟩
  have hleft := tests_are_left_out hsource
  have hruns := (hleft.2 htest).2 laws (fun _ _ => rfl) { source := none } {}
  exact ⟨hsource, htest, hleft.1.mpr htest, hruns.2 "/" false⟩

end SampleTests

/-- A file of tests whose ending is in capitals is analyzed. -/
theorem not_every_test_is_left_out :
    ¬ ∀ path, isSourceFile path = true →
      IsTestPath (fun ending => Unicode.lowercase ending ∈ sourceEndings) path →
      ∀ content, isCandidate path content = false := by
  intro h
  have hnever := h "src/components/Button.test.TSX" (by decide)
    (.inr ⟨"Button", "test", by simp, ".TSX", by decide, by decide +kernel⟩)
    "export function Button() \x7b\x7d"
  have hcandidate : isCandidate "src/components/Button.test.TSX"
      "export function Button() \x7b\x7d" = true := by
    decide
  rw [hnever] at hcandidate
  cases hcandidate

end RepoAtlas
