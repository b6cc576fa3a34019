import RepoAtlas.Proofs.Analysis.Segments
import RepoAtlas.Proofs.Graph.Imports
import RepoAtlas.Proofs.Text.Ends

/-!
Which paths decide the role of their file. The rules over paths come first in the table, and
say together what the folders on the way to a file and its name do.
-/
namespace RepoAtlas

open Pattern

theorem slash_not_mem_codeEndings : ∀ ending ∈ codeEndings, '/' ∉ ending.toList := by
  decide

namespace SegmentPath

variable (p : SegmentPath)

/-- Whether the name of a file is one of some stems with one of some endings. -/
def IsNamed (stems endings : List String) : Prop :=
  ∃ stem ∈ stems, ∃ ending ∈ endings, p.file = stem ++ ending

/-- The name of a file without the source ending that it has, if it has one. -/
def HasStem (stem : String) : Prop :=
  (∃ ending ∈ sourceEndings, p.file = stem ++ ending) ∨
    p.file = stem ∧ ∀ ending ∈ sourceEndings, ¬ ending.toList <:+ p.file.toList

/-- The paths of handlers of requests. -/
def IsRoute : Prop :=
  "app" ∈ p.folders ∧ p.IsNamed ["route"] (scriptEndings [""]) ∨
    ["pages", "api"] <:+: p.folders

/-- The paths of pages. -/
def IsPage : Prop :=
  "app" ∈ p.folders ∧ p.IsNamed ["page"] codeEndings ∨
    "pages" ∈ p.folders ∧ ∃ stem, stem ≠ "" ∧ stem.toList.head? ≠ some '_' ∧
      ∃ ending ∈ codeEndings, p.file = stem ++ ending

/-- The paths of layouts. -/
def IsLayout : Prop :=
  "app" ∈ p.folders ∧ p.IsNamed ["layout"] codeEndings ∨ "layouts" ∈ p.folders ∨
    ∃ stem, p.HasStem stem ∧ (stem ∈ ["layout", "_app", "_document"] ∨
      Unicode.startsUpper stem = true ∧ "Layout".toList <:+ stem.toList)

/-- The paths of the states of a page. -/
def IsState : Prop :=
  "app" ∈ p.folders ∧
    p.IsNamed ["loading", "error", "not-found", "global-error", "template"] codeEndings

theorem hasStem_iff {stem : String} : p.HasStem stem ↔ stem = withoutEnding p.file := by
  constructor
  · rintro (⟨ending, hending, hfile⟩ | ⟨rfl, hnone⟩)
    · rw [hfile, withoutEnding_append stem hending]
    · have hfind : sourceEndings.findSome?
          (fun ending => Text.beforeEnd? ending.toList p.file.toList) = none := by
        rw [List.findSome?_eq_none_iff]
        intro ending hending
        rw [Option.eq_none_iff_forall_ne_some]
        intro rest hrest
        rw [Text.beforeEnd?_eq_some_iff] at hrest
        exact hnone ending hending (hrest ▸ List.suffix_append rest _)
      rw [withoutEnding, hfind]
  · rintro rfl
    rw [HasStem, withoutEnding]
    split
    · next stem hstem =>
        obtain ⟨ending, hending, hrest⟩ := List.exists_of_findSome?_eq_some hstem
        rw [Text.beforeEnd?_eq_some_iff] at hrest
        exact .inl ⟨ending, hending, by simp [← String.toList_inj, hrest, String.toList_append]⟩
    · next hnone =>
        refine .inr ⟨rfl, fun ending hending hsuffix => ?_⟩
        obtain ⟨rest, hrest⟩ := hsuffix
        have hnone := List.findSome?_eq_none_iff.mp hnone ending hending
        rw [Text.beforeEnd?_eq_some_iff.mpr hrest.symm] at hnone
        cases hnone

/-- A file below `app` with one of some stems. -/
theorem occursIn_stems_iff {first : String} {others endings : List String} {ending : Pattern}
    (hending : ending.Closes (IsOneOf endings))
    (hslash : ∀ name ∈ endings, '/' ∉ name.toList)
    (hstems : ∀ stem ∈ first :: others, '/' ∉ stem.toList) :
    (sequence [text "/app/", RepoAtlas.folders, choice (text first) (others.map text),
      ending]).occursIn (anchored p.path) = true ↔
      "app" ∈ p.folders ∧ p.IsNamed (first :: others) endings := by
  have happ : '/' ∉ "app".toList := by decide
  have hcloses := (takes_choice first others).closes hending
  refine (p.occursIn_below_iff rfl happ hcloses ?_).trans (and_congr_right fun _ => ?_)
  · rintro _ ⟨_, _, rfl, ⟨stem, hstem, rfl⟩, name, hname, rfl⟩
    rw [List.mem_append, not_or]
    exact ⟨hstems stem hstem, hslash name hname⟩
  · simp only [IsNamed, IsOneOf, ← String.toList_inj, String.toList_append]
    constructor
    · rintro ⟨_, _, hfile, ⟨stem, hstem, rfl⟩, name, hname, rfl⟩
      exact ⟨stem, hstem, name, hname, hfile⟩
    · rintro ⟨stem, hstem, name, hname, hfile⟩
      exact ⟨_, _, hfile, ⟨stem, hstem, rfl⟩, name, hname, rfl⟩

theorem occursIn_pagesFile_iff :
    pagesFile.occursIn (anchored p.path) = true ↔
      "pages" ∈ p.folders ∧ ∃ stem, stem ≠ "" ∧ stem.toList.head? ≠ some '_' ∧
        ∃ ending ∈ codeEndings, p.file = stem ++ ending := by
  have hpages : '/' ∉ "pages".toList := by decide
  have hcloses := (takes_one fun c => c != '/' && c != '_').closes
    ((takes_many (· != '/')).closes closes_sourceEnding)
  refine (p.occursIn_below_iff rfl hpages hcloses ?_).trans (and_congr_right fun _ => ?_)
  · rintro _ ⟨_, _, rfl, ⟨c, hc, rfl⟩, more, _, rfl, hmore, ending, hending, rfl⟩ hmem
    rcases List.mem_append.mp hmem with hfirst | hmem
    · obtain rfl := List.mem_singleton.mp hfirst
      cases hc
    · rcases List.mem_append.mp hmem with hmem | hmem
      · simpa using hmore _ hmem
      · exact slash_not_mem_codeEndings ending hending hmem
  · constructor
    · rintro ⟨_, _, hfile, ⟨c, hc, rfl⟩, more, _, rfl, hmore, ending, hending, rfl⟩
      refine ⟨String.ofList (c :: more), by simp, ?_, ending, hending, ?_⟩
      · simpa using (Bool.and_eq_true_iff.mp hc).2
      · simp [← String.toList_inj, hfile, String.toList_append]
    · rintro ⟨stem, hempty, hfirst, ending, hending, hfile⟩
      have hslash : '/' ∉ stem.toList := by
        have hfileSlash := (p.segments p.file (by simp)).slash
        rw [hfile, String.toList_append, List.mem_append, not_or] at hfileSlash
        exact hfileSlash.1
      obtain ⟨c, more, hchars⟩ : ∃ c more, stem.toList = c :: more :=
        List.exists_cons_of_ne_nil fun h => hempty (String.toList_eq_nil_iff.mp h)
      rw [hchars, List.mem_cons, not_or] at hslash
      refine ⟨[c], more ++ ending.toList, ?_, ⟨c, ?_, rfl⟩, more, _, rfl, ?_, ending, hending, rfl⟩
      · simp [hfile, String.toList_append, hchars]
      · simpa [hchars, Ne.symm hslash.1] using hfirst
      · intro d hd
        simp only [bne_iff_ne]
        rintro rfl
        exact hslash.2 hd

theorem occursIn_appRoute_iff : appRoute.occursIn (anchored p.path) = true ↔
    "app" ∈ p.folders ∧ p.IsNamed ["route"] (scriptEndings [""]) := by
  have hroute : appRoute = sequence [text "/app/", RepoAtlas.folders,
      choice (text "route") (([] : List String).map text), endingWithout nothing] := by
    rw [List.map_nil, choice, List.foldl_nil, appRoute]
  rw [hroute]
  exact p.occursIn_stems_iff closes_plainEnding (by decide) (by decide)

theorem occursIn_appFile_iff {first : String} {others : List String}
    (hstems : ∀ stem ∈ first :: others, '/' ∉ stem.toList) :
    (appFile first others).occursIn (anchored p.path) = true ↔
      "app" ∈ p.folders ∧ p.IsNamed (first :: others) codeEndings :=
  p.occursIn_stems_iff closes_sourceEnding slash_not_mem_codeEndings hstems

end SegmentPath

namespace RoleRule

variable (p : SegmentPath) (content : String)

theorem routeHandler_applies_iff : routeHandler.applies p.path content = true ↔ p.IsRoute := by
  have hapi : apiRoute.occursIn (anchored p.path) = true ↔ ["pages", "api"] <:+: p.folders :=
    p.occursIn_nested_iff rfl (by decide) (by decide)
  rw [routeHandler, Bool.or_eq_true, p.occursIn_appRoute_iff, hapi]
  rfl

theorem page_applies_iff : page.applies p.path content = true ↔ p.IsPage := by
  rw [page, Bool.or_eq_true, appPage, p.occursIn_appFile_iff (by decide),
    p.occursIn_pagesFile_iff]
  rfl

theorem layout_applies_iff : layout.applies p.path content = true ↔ p.IsLayout := by
  have hfolder : isBelow ["layouts"] p.path = true ↔ "layouts" ∈ p.folders := by
    simp [p.isBelow_path_iff]
  have hstem : (["layout", "_app", "_document"].contains (stemOf p.path) ||
      (Text.isEndingOf "Layout" (stemOf p.path) && Unicode.startsUpper (stemOf p.path))) = true ↔
      ∃ stem, p.HasStem stem ∧ (stem ∈ ["layout", "_app", "_document"] ∨
        Unicode.startsUpper stem = true ∧ "Layout".toList <:+ stem.toList) := by
    simp only [p.hasStem_iff, exists_eq_left, p.stemOf_path, Bool.or_eq_true, Bool.and_eq_true,
      List.contains_iff_mem, Text.isEndingOf, Text.endsIn, List.isSuffixOf_iff_suffix, and_comm]
  simp only [layout]
  rw [Bool.or_assoc, Bool.or_assoc, Bool.or_eq_true, Bool.or_eq_true, hstem, hfolder,
    appLayout, p.occursIn_appFile_iff (by decide)]
  rfl

theorem pageState_applies_iff : pageState.applies p.path content = true ↔ p.IsState := by
  rw [pageState, appState, p.occursIn_appFile_iff (by decide)]
  rfl

end RoleRule

namespace SegmentPath

variable (p : SegmentPath)

instance : Decidable p.IsRoute :=
  decidable_of_iff _ (RoleRule.routeHandler_applies_iff p "")

instance : Decidable p.IsPage :=
  decidable_of_iff _ (RoleRule.page_applies_iff p "")

instance : Decidable p.IsLayout :=
  decidable_of_iff _ (RoleRule.layout_applies_iff p "")

instance : Decidable p.IsState :=
  decidable_of_iff _ (RoleRule.pageState_applies_iff p "")

end SegmentPath

namespace Role

/-- The first rule that applies gives the role, whatever the rules behind it say. -/
theorem ofFile_of_first {path content : String} {rule : RoleRule} {before behind : List RoleRule}
    (htable : RoleRule.table = before ++ rule :: behind)
    (hbefore : ∀ other ∈ before, other.applies path content = false)
    (hrule : rule.applies path content = true) : ofFile path content = rule.role := by
  have hnone : before.find? (fun rule => rule.applies path content) = none :=
    List.find?_eq_none.mpr fun other hmem => by simp [hbefore other hmem]
  have hfind : RoleRule.table.find? (fun rule => rule.applies path content) = some rule := by
    rw [htable, List.find?_append, hnone, Option.none_or, List.find?_cons,
      hrule]
  rw [ofFile, ofTable?, hfind]
  rfl

/-- Where the first rules do not apply, the role is one of the others' or the last resort. -/
theorem ofFile_mem_of_none {path content : String} {before behind : List RoleRule}
    (htable : RoleRule.table = before ++ behind)
    (hbefore : ∀ other ∈ before, other.applies path content = false) :
    ofFile path content ∈ .component :: behind.map RoleRule.role := by
  have hnone : before.find? (fun rule => rule.applies path content) = none :=
    List.find?_eq_none.mpr fun other hmem => by simp [hbefore other hmem]
  have hfind : RoleRule.table.find? (fun rule => rule.applies path content) =
      behind.find? fun rule => rule.applies path content := by
    rw [htable, List.find?_append, hnone, Option.none_or]
  rw [ofFile, ofTable?, hfind]
  cases hrule : behind.find? fun rule => rule.applies path content with
  | none => exact List.mem_cons_self
  | some rule =>
      exact List.mem_cons_of_mem _ (List.mem_map_of_mem (List.mem_of_find?_eq_some hrule))

end Role

/--
The segments of a path decide which files are handlers of requests, pages, layouts and
states of pages, the first of these that they are; their text has no say in it. No other
file is a page or a layout, whatever its text.
-/
theorem role_follows_segments (p : SegmentPath) :
    (p.IsRoute → ∀ content, Role.ofFile p.path content = .utility) ∧
    (¬ p.IsRoute → p.IsPage → ∀ content, Role.ofFile p.path content = .page) ∧
    (¬ p.IsRoute → ¬ p.IsPage → p.IsLayout →
      ∀ content, Role.ofFile p.path content = .layout) ∧
    (¬ p.IsRoute → ¬ p.IsPage → ¬ p.IsLayout → p.IsState →
      ∀ content, Role.ofFile p.path content = .page) ∧
    (¬ p.IsRoute → ¬ p.IsPage → ¬ p.IsLayout → ¬ p.IsState →
      ∀ content, Role.ofFile p.path content ∉ [.page, .layout]) := by
  have hroute (h : ¬ p.IsRoute) (content : String) :
      RoleRule.routeHandler.applies p.path content = false :=
    Bool.eq_false_iff.mpr (mt (RoleRule.routeHandler_applies_iff p content).mp h)
  have hpage (h : ¬ p.IsPage) (content : String) :
      RoleRule.page.applies p.path content = false :=
    Bool.eq_false_iff.mpr (mt (RoleRule.page_applies_iff p content).mp h)
  have hlayout (h : ¬ p.IsLayout) (content : String) :
      RoleRule.layout.applies p.path content = false :=
    Bool.eq_false_iff.mpr (mt (RoleRule.layout_applies_iff p content).mp h)
  have hstate (h : ¬ p.IsState) (content : String) :
      RoleRule.pageState.applies p.path content = false :=
    Bool.eq_false_iff.mpr (mt (RoleRule.pageState_applies_iff p content).mp h)
  refine ⟨fun h content => ?route, fun h h' content => ?page, fun h h' h'' content => ?layout,
    fun h h' h'' hs content => ?state, fun h h' h'' hs content => ?other⟩
  case route =>
    have htable : RoleRule.table = [] ++ .routeHandler :: RoleRule.table.drop 1 := rfl
    exact Role.ofFile_of_first htable (by simp)
      ((RoleRule.routeHandler_applies_iff p content).mpr h)
  case page =>
    have htable : RoleRule.table = [.routeHandler] ++ .page :: RoleRule.table.drop 2 := rfl
    exact Role.ofFile_of_first htable (by simp [hroute h])
      ((RoleRule.page_applies_iff p content).mpr h')
  case layout =>
    have htable : RoleRule.table =
        [.routeHandler, .page] ++ .layout :: RoleRule.table.drop 3 := rfl
    exact Role.ofFile_of_first htable (by simp [hroute h, hpage h'])
      ((RoleRule.layout_applies_iff p content).mpr h'')
  case state =>
    have htable : RoleRule.table =
        [.routeHandler, .page, .layout] ++ .pageState :: RoleRule.table.drop 4 := rfl
    exact Role.ofFile_of_first htable (by simp [hroute h, hpage h', hlayout h''])
      ((RoleRule.pageState_applies_iff p content).mpr hs)
  case other =>
    have htable : RoleRule.table =
        [.routeHandler, .page, .layout, .pageState] ++ RoleRule.table.drop 4 := rfl
    have hmem : Role.ofFile p.path content ∈ _ := Role.ofFile_mem_of_none htable
      (by simp [hroute h, hpage h', hlayout h'', hstate hs])
    have hroles : ∀ role ∈ .component :: (RoleRule.table.drop 4).map RoleRule.role,
        role ∉ [.page, .layout] := by
      decide
    exact hroles _ hmem

namespace SampleRoles

def route : SegmentPath where
  folders := ["src", "app", "api", "users"]
  file := "route.ts"
  segments := by decide

def page : SegmentPath where
  folders := ["pages", "blog"]
  file := "index.tsx"
  segments := by decide

def layout : SegmentPath where
  folders := ["src", "shell"]
  file := "MainLayout.jsx"
  segments := by decide

def state : SegmentPath where
  folders := ["app", "app", "shop"]
  file := "not-found.mjs"
  segments := by decide

/-- A folder that only starts like `app`, and a file that only starts like a page. -/
def other : SegmentPath where
  folders := ["apps", "pages.old"]
  file := "page.test.js"
  segments := by decide

theorem role_follows_segments_sample :
    (∀ content, Role.ofFile "src/app/api/users/route.ts" content = .utility) ∧
    (∀ content, Role.ofFile "pages/blog/index.tsx" content = .page) ∧
    (∀ content, Role.ofFile "src/shell/MainLayout.jsx" content = .layout) ∧
    (∀ content, Role.ofFile "app/app/shop/not-found.mjs" content = .page) ∧
    (∀ content, Role.ofFile "apps/pages.old/page.test.js" content ∉ [.page, .layout]) := by
  have hroute := (role_follows_segments route).1 (by decide +kernel)
  have hpage := (role_follows_segments page).2.1 (by decide +kernel) (by decide +kernel)
  have hlayout := (role_follows_segments layout).2.2.1 (by decide +kernel) (by decide +kernel)
    (by decide +kernel)
  have hstate := (role_follows_segments state).2.2.2.1 (by decide +kernel) (by decide +kernel)
    (by decide +kernel) (by decide +kernel)
  have hother := (role_follows_segments other).2.2.2.2 (by decide +kernel) (by decide +kernel)
    (by decide +kernel) (by decide +kernel)
  exact ⟨hroute, hpage, hlayout, hstate, hother⟩

end SampleRoles

end RepoAtlas
