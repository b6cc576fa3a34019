import Mathlib.Data.List.Infix
import RepoAtlas.Proofs.Analysis.Selection
import RepoAtlas.Proofs.Repository.Listing

/-!
Configured patterns only take out of a listing: what is left is what was listed
without them, in the same order, less what they match and what lies below that.
-/
namespace RepoAtlas

theorem flatMap_filter_of_nil {α β : Type} {p : α → Bool} {f : α → List β} {items : List α}
    (h : ∀ a ∈ items, p a = false → f a = []) : (items.filter p).flatMap f = items.flatMap f := by
  induction items with
  | nil => rfl
  | cons a items ih =>
      rw [List.forall_mem_cons] at h
      by_cases ha : p a = true
      · rw [List.filter_cons_of_pos ha, List.flatMap_cons, List.flatMap_cons, ih h.2]
      · rw [List.filter_cons_of_neg ha, List.flatMap_cons, h.1 (by simpa using ha), ih h.2,
          List.nil_append]

namespace IgnoreRule

/-- Whether one of some rules matches a path. -/
def anyAppliesTo (rules : List IgnoreRule) (path : String) (isFolder : Bool) : Bool :=
  rules.any fun rule => rule.appliesTo path isFolder

/-- The paths of the folders that lead to a path. -/
def foldersAbove (path : String) : List String :=
  ((Text.splitOnChar '/' path).dropLast.inits.filter (!·.isEmpty)).map LocalTree.relative

/-- Whether one of some rules matches a path or a folder that leads to it. -/
def takeOut (rules : List IgnoreRule) (path : String) (isFolder : Bool) : Bool :=
  anyAppliesTo rules path isFolder ||
    (foldersAbove path).any fun above => anyAppliesTo rules above true

theorem mem_foldersAbove {above path : String} :
    above ∈ foldersAbove path ↔ ∃ front, front ≠ [] ∧
      front <+: (Text.splitOnChar '/' path).dropLast ∧ LocalTree.relative front = above := by
  simp only [foldersAbove, List.mem_map, List.mem_filter, List.mem_inits, Bool.not_eq_true',
    List.isEmpty_eq_false_iff, and_assoc]
  exact exists_congr fun front => and_left_comm

/-- The folders that lead to a path are what stands before one of its slashes. -/
theorem mem_foldersAbove_iff {above path : String} :
    above ∈ foldersAbove path ↔ ∃ rest, path = above ++ "/" ++ rest := by
  rw [mem_foldersAbove]
  constructor
  · rintro ⟨front, hfront, ⟨behind, hbehind⟩, rfl⟩
    have hne := Text.splitOnChar_ne_nil '/' path
    obtain ⟨last, hlast⟩ : ∃ last, Text.splitOnChar '/' path = front ++ (behind ++ [last]) :=
      ⟨_, by rw [← List.append_assoc, hbehind, List.dropLast_append_getLast hne]⟩
    have hslash : ∀ part ∈ front ++ (behind ++ [last]), '/' ∉ part.toList := by
      rw [← hlast]
      exact fun part hmem => Text.not_mem_of_mem_splitOnChar hmem
    obtain ⟨hfrontSlash, hbehindSlash⟩ := List.forall_mem_append.mp hslash
    refine ⟨LocalTree.relative (behind ++ [last]), ?_⟩
    rw [← Text.intercalate_splitOnChar path, ← Text.intercalate_splitOnChar (_ ++ "/" ++ _),
      Text.splitOnChar_append, LocalTree.relative, Text.splitOnChar_intercalate hfront hfrontSlash,
      LocalTree.relative, Text.splitOnChar_intercalate (by simp) hbehindSlash, hlast]
  · rintro ⟨rest, rfl⟩
    refine ⟨Text.splitOnChar '/' above, Text.splitOnChar_ne_nil '/' above, ?_,
      Text.intercalate_splitOnChar above⟩
    rw [Text.splitOnChar_append, List.dropLast_append_of_ne_nil (Text.splitOnChar_ne_nil '/' rest)]
    exact List.prefix_append _ _

theorem negate_of_mem_ofPatterns {patterns : List String} {rule : IgnoreRule}
    (h : rule ∈ ofPatterns patterns) : rule.negate = false := by
  obtain ⟨pattern, -, hrule⟩ := List.mem_filterMap.mp h
  rw [ofText?] at hrule
  split at hrule
  · cases hrule
  · rw [← Option.some.inj hrule]

theorem ofPatterns_append (given more : List String) :
    ofPatterns (given ++ more) = ofPatterns given ++ ofPatterns more :=
  List.filterMap_append

end IgnoreRule

open IgnoreRule (anyAppliesTo foldersAbove takeOut)

/-- Rules that take nothing back leave out what they match, whatever was decided before. -/
theorem shouldIgnore_append {rules more : List IgnoreRule}
    (hmore : ∀ rule ∈ more, rule.negate = false) (path : String) (isFolder : Bool) :
    shouldIgnore (rules ++ more) path isFolder =
      (shouldIgnore rules path isFolder || anyAppliesTo more path isFolder) := by
  rw [shouldIgnore, List.foldl_append, ← shouldIgnore]
  generalize shouldIgnore rules path isFolder = ignored
  induction more generalizing ignored with
  | nil => simp [anyAppliesTo]
  | cons rule more ih =>
      rw [List.forall_mem_cons] at hmore
      rw [List.foldl_cons, ih hmore.2, anyAppliesTo, anyAppliesTo, List.any_cons, hmore.1]
      cases rule.appliesTo path isFolder <;> cases ignored <;> rfl

/-- A branch with those only that are kept of what is listed below it. -/
def Branch.restrict (keep : Listed → Bool) (b : Branch) : Branch :=
  { b with below := b.below.filter keep }

namespace LocalTree

variable {rules more : List IgnoreRule} {leadsToFolder : List String → Bool} {base : List String}

/-- To drop some of what is listed is to drop branches, and some of what is below the others. -/
theorem filter_inOrder {keep : Listed → Bool} {branches : List Branch}
    (hdrop : ∀ b ∈ branches, keep b.self = false → b.below.filter keep = []) :
    (inOrder branches).filter keep =
      inOrder ((branches.filter fun b => keep b.self).map (Branch.restrict keep)) := by
  have htrans (a b c : Branch) (hab : decide (a.name ≤ b.name) = true)
      (hbc : decide (b.name ≤ c.name) = true) : decide (a.name ≤ c.name) = true := by
    simp only [decide_eq_true_eq] at *
    exact String.le_trans hab hbc
  have htotal (a b : Branch) : (decide (a.name ≤ b.name) || decide (b.name ≤ a.name)) = true := by
    simpa using String.le_total a.name b.name
  have hsorted : ((branches.filter fun b => keep b.self).map (Branch.restrict keep)).mergeSort
        (fun a b => decide (a.name ≤ b.name)) =
      ((branches.mergeSort fun a b => decide (a.name ≤ b.name)).filter fun b => keep b.self).map
        (Branch.restrict keep) := by
    rw [filter_mergeSort htrans htotal, List.map_mergeSort]
    exact fun _ _ _ _ => rfl
  have hmem (b : Branch) : b ∈ branches.mergeSort (fun a b => decide (a.name ≤ b.name)) →
      b ∈ branches := List.mem_mergeSort.mp
  rw [inOrder, inOrder, hsorted]
  generalize branches.mergeSort (fun a b => decide (a.name ≤ b.name)) = sorted at hmem ⊢
  have hselves (kind : Branch → Bool) (hkind : ∀ b, kind (b.restrict keep) = kind b) :
      (((sorted.filter fun b => keep b.self).map (Branch.restrict keep)).filter kind).map
          Branch.self = ((sorted.filter kind).map Branch.self).filter keep := by
    rw [List.filter_map, List.map_map, List.filter_map, List.filter_filter, List.filter_filter]
    have hkinds : kind ∘ Branch.restrict keep = kind := funext hkind
    rw [hkinds]
    simp only [Bool.and_comm, Function.comp_def]
    rfl
  have hbelow : (sorted.filter fun b => keep b.self).flatMap (fun b => b.below.filter keep) =
      sorted.flatMap fun b => b.below.filter keep :=
    flatMap_filter_of_nil fun b hb => hdrop b (hmem b hb)
  rw [List.filter_append, List.filter_flatMap, List.flatMap_map, List.map_append, List.map_append,
    List.filter_append, hselves _ fun _ => rfl, hselves _ fun _ => rfl]
  exact congrArg _ hbelow.symm

/-- Whether no folder on the way to a path is matched by some rules. -/
def Untouched (more : List IgnoreRule) (names : List String) : Prop :=
  ∀ front, front <+: names → front ≠ [] → anyAppliesTo more (relative front) true = false

theorem Untouched.concat {name : String} (hbase : Untouched more base)
    (hname : anyAppliesTo more (relative (base ++ [name])) true = false) :
    Untouched more (base ++ [name]) := by
  intro front hfront hne
  rcases List.prefix_concat_iff.mp hfront with rfl | hfront
  · exact hname
  · exact hbase front hfront hne

/-- Below folders that are not matched, a path is taken out only if it is matched itself. -/
theorem takeOut_concat {name : String} {isFolder : Bool} (hnames : ∀ n ∈ base ++ [name], IsName n)
    (hbase : Untouched more base) :
    takeOut more (relative (base ++ [name])) isFolder =
      anyAppliesTo more (relative (base ++ [name])) isFolder := by
  have habove : (foldersAbove (relative (base ++ [name]))).any
      (fun above => anyAppliesTo more above true) = false := by
    rw [List.any_eq_false]
    intro above hmem
    obtain ⟨front, hne, hfront, rfl⟩ := IgnoreRule.mem_foldersAbove.mp hmem
    rw [splitOnChar_relative (by simp) hnames, List.dropLast_concat] at hfront
    simpa using hbase front hfront hne
  rw [takeOut, habove, Bool.or_false]

/-- What lies below a folder that is matched is taken out. -/
theorem takeOut_of_above {names : List String} {l : Listed} (hne : names ≠ [])
    (hmatched : anyAppliesTo more (relative names) true = true)
    (hl : ∃ next rest, l.names = names ++ next :: rest) :
    takeOut more l.path l.isFolder = true := by
  obtain ⟨next, rest, hl⟩ := hl
  rw [takeOut, Bool.or_eq_true, List.any_eq_true]
  refine .inr ⟨relative names, IgnoreRule.mem_foldersAbove.mpr ⟨names, hne, ?_, rfl⟩, hmatched⟩
  rw [Listed.names] at hl
  rw [hl, List.dropLast_append_of_ne_nil (by simp)]
  exact List.prefix_append _ _

/-- Only folders list anything. -/
theorem folder_of_mem_listNode {node : DiskNode} {l : Listed}
    (h : l ∈ listNode rules leadsToFolder base node) : ∃ entries, node = .folder entries := by
  cases node with
  | folder entries => exact ⟨entries, rfl⟩
  | _ => simp [listNode] at h

/-- Whether something listed is neither matched itself nor below something that is. -/
def isKept (more : List IgnoreRule) (l : Listed) : Bool :=
  !takeOut more l.path l.isFolder

/-- Below folders that are not matched, an entry is kept unless it is matched itself. -/
theorem isKept_self {entry : String × DiskNode} (hnames : ∀ n ∈ base ++ [entry.1], IsName n)
    (hbase : Untouched more base) :
    isKept more (branchOf rules leadsToFolder base entry).self =
      !anyAppliesTo more (relative (base ++ [entry.1]))
        (countsAsFolder leadsToFolder (base ++ [entry.1]) entry.2) := by
  rw [isKept, branchOf]
  exact congrArg _ (takeOut_concat hnames hbase)

/-- With more rules an entry is listed if it is so without them, and is kept. -/
theorem showsEntry_append {entry : String × DiskNode}
    (hmore : ∀ rule ∈ more, rule.negate = false) (hnames : ∀ n ∈ base ++ [entry.1], IsName n)
    (hbase : Untouched more base) :
    showsEntry (rules ++ more) leadsToFolder base entry =
      (isKept more (branchOf rules leadsToFolder base entry).self &&
        showsEntry rules leadsToFolder base entry) := by
  rw [isKept_self hnames hbase, showsEntry, showsEntry, isHidden, isHidden,
    shouldIgnore_append hmore, ← Bool.not_or, ← Bool.or_assoc, Bool.or_comm]

/-- Nothing below a folder that is matched is kept. -/
theorem filter_isKept_below {entry : String × DiskNode} (hnode : entry.2.WellNamed)
    (hnames : ∀ n ∈ base ++ [entry.1], IsName n)
    (hmatched : anyAppliesTo more (relative (base ++ [entry.1]))
      (countsAsFolder leadsToFolder (base ++ [entry.1]) entry.2) = true) :
    (listNode rules leadsToFolder (base ++ [entry.1]) entry.2).filter (isKept more) = [] := by
  rw [List.filter_eq_nil_iff]
  intro l hl
  obtain ⟨inner, hinner⟩ := folder_of_mem_listNode hl
  rw [hinner, countsAsFolder] at hmatched
  have hl := names_of_mem_listNode hnode hnames hl
  rw [isKept, takeOut_of_above (by simp) hmatched hl]
  decide

/-- With more rules a folder lists what it lists without them and is not taken out by them. -/
theorem listNode_append {node : DiskNode} (hnode : node.WellNamed)
    (hmore : ∀ rule ∈ more, rule.negate = false) (hnames : ∀ name ∈ base, IsName name)
    (hbase : Untouched more base) :
    listNode (rules ++ more) leadsToFolder base node =
      (listNode rules leadsToFolder base node).filter (isKept more) := by
  induction hnode generalizing base with
  | file bytes modified => simp [listNode]
  | link target => simp [listNode]
  | @folder entries distinct hentries hchildren ih =>
      have hpath (entry) (hentry : entry ∈ entries) : ∀ name ∈ base ++ [entry.1], IsName name :=
        List.forall_mem_append.mpr ⟨hnames, by simpa using hentries entry hentry⟩
      have hkept (entry) (hentry : entry ∈ entries) :
          showsEntry (rules ++ more) leadsToFolder base entry =
            (isKept more (branchOf rules leadsToFolder base entry).self &&
              showsEntry rules leadsToFolder base entry) :=
        showsEntry_append hmore (hpath entry hentry) hbase
      have hbelow (entry) (hentry : entry ∈ entries)
          (hshows : isKept more (branchOf rules leadsToFolder base entry).self = true) :
          listNode (rules ++ more) leadsToFolder (base ++ [entry.1]) entry.2 =
            (listNode rules leadsToFolder (base ++ [entry.1]) entry.2).filter (isKept more) := by
        by_cases hfolder : ∃ inner, entry.2 = .folder inner
        · obtain ⟨inner, hinner⟩ := hfolder
          apply ih entry hentry (hpath entry hentry) (hbase.concat ?_)
          rwa [isKept_self (hpath entry hentry) hbase, hinner, countsAsFolder,
            Bool.not_eq_true'] at hshows
        · cases hnode : entry.2 with
          | folder inner => exact absurd ⟨inner, hnode⟩ hfolder
          | _ => simp [listNode]
      rw [listNode, listNode, listEntries_eq, listEntries_eq, filter_inOrder]
      · rw [List.filter_map, List.filter_filter, List.map_map, List.filter_congr hkept]
        refine congrArg inOrder (List.map_congr_left fun entry hmem => ?_)
        obtain ⟨hentry, hboth⟩ := List.mem_filter.mp hmem
        rw [Bool.and_eq_true] at hboth
        rw [branchOf, hbelow entry hentry hboth.1]
        rfl
      · intro b hb hdropped
        obtain ⟨entry, hmem, rfl⟩ := List.mem_map.mp hb
        have hentry := List.mem_of_mem_filter hmem
        rw [isKept_self (hpath entry hentry) hbase, Bool.not_eq_false'] at hdropped
        exact filter_isKept_below (hchildren entry hentry) (hpath entry hentry) hdropped

section Opening

variable (disk : DiskNode) (current : List String) (shown : String) (given more : List String)
  (coordinates : Option Coordinates)

/-- More patterns change nothing but the rules of a repository, behind those it has. -/
theorem openAt_append :
    openAt disk current shown (given ++ more) coordinates =
      (openAt disk current shown given coordinates).map fun t =>
        { t with rules := t.rules ++ IgnoreRule.ofPatterns more } := by
  simp only [openAt, IgnoreRule.ofPatterns_append, bind, Except.bind]
  split
  · rfl
  · split
    · rfl
    · split
      · rfl
      · split
        · rfl
        · split
          · rfl
          · simp [pure, Except.pure, Except.map]

variable {disk}

/-- With more rules a repository has the records that it has without them, less what they take
out. -/
theorem files_append (hdisk : disk.WellNamed) (t : LocalTree) {more : List IgnoreRule}
    (hmore : ∀ rule ∈ more, rule.negate = false) :
    files { t with rules := t.rules ++ more } disk =
      (t.files disk).filter fun file => !takeOut more file.path (file.type == .tree) := by
  have hlisting : listing { t with rules := t.rules ++ more } disk =
      (t.listing disk).filter (isKept more) := by
    cases hroot : disk.at? t.folder with
    | none => simp [listing, hroot]
    | some root =>
        have hrules := listing_eq (t := { t with rules := t.rules ++ more }) hroot
        rw [hrules, listing_eq hroot]
        apply listNode_append (hdisk.of_at? hroot).2 hmore (by simp)
        intro front hfront hne
        exact absurd (List.prefix_nil.mp hfront) hne
  rw [files, files, hlisting, List.filter_map]
  refine congrArg _ (List.filter_congr fun l _ => ?_)
  obtain ⟨path, isFolder⟩ := l
  cases isFolder <;> rfl

/-- More patterns leave of the records those that they do not take out. -/
theorem map_files_openAt_append (hdisk : disk.WellNamed) :
    ((openAt disk current shown (given ++ more) coordinates).map fun t => t.files disk) =
      (openAt disk current shown given coordinates).map fun t =>
        (t.files disk).filter fun file =>
          !takeOut (IgnoreRule.ofPatterns more) file.path (file.type == .tree) := by
  rw [openAt_append]
  cases openAt disk current shown given coordinates with
  | error cause => rfl
  | ok t => exact congrArg _ (files_append hdisk t fun _ => IgnoreRule.negate_of_mem_ofPatterns)

end Opening

end LocalTree

open LocalTree (openAt)

/--
Configured patterns compose: those that are added leave of a listing, in its order,
just what is neither matched by one of them nor lies below a folder that is. So
whatever the list of ignored files takes back, nothing is listed that one of the
configured patterns matches.
-/
theorem excludes_compose {disk : DiskNode} (hdisk : disk.WellNamed) (current : List String)
    (shown : String) (given more : List String) (coordinates : Option Coordinates) :
    ((openAt disk current shown (given ++ more) coordinates).map fun t => t.files disk) =
        ((openAt disk current shown given coordinates).map fun t =>
          (t.files disk).filter fun file =>
            !takeOut (IgnoreRule.ofPatterns more) file.path (file.type == .tree)) ∧
      ∀ t, openAt disk current shown (given ++ more) coordinates = .ok t →
        ∀ file ∈ t.files disk,
          let rules := IgnoreRule.ofPatterns (given ++ more)
          anyAppliesTo rules file.path (file.type == .tree) = false ∧
            ∀ above rest, file.path = above ++ "/" ++ rest →
              anyAppliesTo rules above true = false := by
  refine ⟨LocalTree.map_files_openAt_append current shown given more coordinates hdisk, ?_⟩
  intro t ht file hfile
  -- All patterns are added to none, behind the rules of the list of ignored files.
  have hall := LocalTree.map_files_openAt_append current shown [] (given ++ more) coordinates hdisk
  rw [List.nil_append, ht] at hall
  cases hbare : openAt disk current shown [] coordinates with
  | error cause =>
      rw [hbare] at hall
      cases hall
  | ok bare =>
      rw [hbare] at hall
      have hfiles : t.files disk = _ := Except.ok.inj hall
      rw [hfiles, List.mem_filter, Bool.not_eq_true', takeOut, Bool.or_eq_false_iff,
        List.any_eq_false] at hfile
      refine ⟨hfile.2.1, fun above rest hpath => ?_⟩
      simpa using hfile.2.2 above (IgnoreRule.mem_foldersAbove_iff.mpr ⟨rest, hpath⟩)

namespace SampleExcludes

/-- A list of ignored files that takes one of them back. -/
def ignored : List UInt8 :=
  Utf8.encode "*.log\n!keep.log\n"

def root : DiskNode :=
  .folder [(".gitignore", .file ignored .zero), ("a.log", .file [] .zero),
    ("b.ts", .file [] .zero), ("keep.log", .file [] .zero),
    ("lib", .folder [("a.ts", .file [] .zero)])]

def disk : DiskNode :=
  .folder [("repo", root)]

def tree : LocalTree where
  folder := ["repo"]
  coordinates := ⟨"local", "repo", "local"⟩
  rules := IgnoreRule.ofBytes ignored ++ IgnoreRule.ofPatterns [".*"]

theorem wellNamed : disk.WellNamed := by
  have hfile : ∀ bytes, DiskNode.WellNamed (.file bytes .zero) := fun bytes => .file bytes _
  refine .single (by decide) (.folder (by decide) (by decide) ?_)
  intro entry hentry
  simp only [List.mem_cons, List.not_mem_nil, or_false] at hentry
  rcases hentry with rfl | rfl | rfl | rfl | rfl
  · exact hfile _
  · exact hfile _
  · exact hfile _
  · exact hfile _
  · exact .single (by decide) (hfile _)

theorem openAt_tree : openAt disk [] "repo" [".*"] none = .ok tree := by
  have hnames : LocalTree.namesFrom [] "repo" = ["repo"] := by decide
  have hpossible : ∀ name ∈ ["repo", ".gitignore"], nameFault? name = none := by decide
  rw [LocalTree.openAt, hnames]
  simp [DiskNode.resolve, disk, root, DiskNode.replaceLinks, DiskNode.locate, DiskNode.follow,
    DiskNode.at?, DiskNode.child?, DiskNode.entries, Table.get?, DiskNode.normalNames, maxLinks,
    maxNesting, hpossible, DiskNode.hasPath, DiskNode.stat, DiskNode.isFolderAt, DiskNode.read,
    LocalTree.ignoreRules, bind, Except.bind, Except.mapError, pure, Except.pure, tree]

theorem listing_tree : tree.listing disk =
    [⟨"lib", true⟩, ⟨"b.ts", false⟩, ⟨"keep.log", false⟩, ⟨"lib/a.ts", false⟩] := by
  have hhidden : ∀ name ∈ [".gitignore", "a.log"],
      LocalTree.isHidden tree.rules [] name false = true := by
    decide +kernel
  have hfiles : ∀ name ∈ ["b.ts", "keep.log"],
      LocalTree.isHidden tree.rules [] name false = false := by
    decide +kernel
  have hfolder : LocalTree.isHidden tree.rules [] "lib" true = false ∧
      LocalTree.isHidden tree.rules ["lib"] "a.ts" false = false := by
    decide +kernel
  have hentries (leadsToFolder : List String → Bool) :
      LocalTree.listEntries tree.rules leadsToFolder [] root.entries =
        [⟨"b.ts", ⟨"b.ts", false⟩, []⟩, ⟨"keep.log", ⟨"keep.log", false⟩, []⟩,
          ⟨"lib", ⟨"lib", true⟩, [⟨"lib/a.ts", false⟩]⟩] := by
    simp [root, DiskNode.entries, LocalTree.listEntries, LocalTree.listNode, LocalTree.inOrder,
      LocalTree.relative, hhidden, hfiles, hfolder]
  have hroot : disk.at? tree.folder = some (.folder root.entries) := rfl
  rw [LocalTree.listing_eq hroot, LocalTree.listNode, hentries, LocalTree.inOrder,
    List.mergeSort_of_pairwise (by decide)]
  rfl

end SampleExcludes

open SampleExcludes in
/-- What a list of ignored files takes back is left out by a pattern, which takes nothing back. -/
theorem excludes_compose_sample :
    disk.WellNamed ∧
      (∃ t, openAt disk [] "repo" [".*"] none = .ok t ∧
        (t.files disk).map FileRecord.path = ["lib", "b.ts", "keep.log", "lib/a.ts"]) ∧
      ∃ t, openAt disk [] "repo" ([".*"] ++ ["lib/", "!b.ts", "keep.*"]) none = .ok t ∧
        (t.files disk).map FileRecord.path = ["b.ts"] := by
  refine ⟨wellNamed, ⟨tree, openAt_tree, ?_⟩, ?_⟩
  · rw [LocalTree.files, listing_tree]
    rfl
  · have hfiles := (excludes_compose wellNamed [] "repo" [".*"] ["lib/", "!b.ts", "keep.*"] none).1
    rw [openAt_tree, Except.map, LocalTree.files, listing_tree] at hfiles
    cases hopen : openAt disk [] "repo" ([".*"] ++ ["lib/", "!b.ts", "keep.*"]) none with
    | error cause =>
        rw [hopen] at hfiles
        cases hfiles
    | ok t =>
        rw [hopen, Except.map] at hfiles
        refine ⟨t, rfl, ?_⟩
        rw [Except.ok.inj hfiles]
        decide +kernel

end RepoAtlas
