import RepoAtlas.Proofs.Disk.Name
import RepoAtlas.Repository.LocalTree

/-!
The listing of a repository on disk holds the visible paths, each of them once,
and what leads to a path stands before it.
-/
namespace RepoAtlas

/-- The names that the path of something listed is made of. -/
def Listed.names (l : Listed) : List String :=
  Text.splitOnChar '/' l.path

namespace LocalTree

variable {rules : List IgnoreRule} {leadsToFolder : List String → Bool} {base names : List String}

theorem splitOnChar_relative (hnames : names ≠ []) (h : ∀ name ∈ names, IsName name) :
    Text.splitOnChar '/' (relative names) = names :=
  Text.splitOnChar_intercalate hnames fun name hmem => (h name hmem).slash

/-- Whether neither its last name nor a rule keeps a path from being listed. -/
structure Admitted (rules : List IgnoreRule) (names : List String) (isFolder : Bool) : Prop where
  name : ∀ last ∈ names.getLast?, last ∉ if isFolder then hiddenFolders else hiddenFiles
  rules : shouldIgnore rules (relative names) isFolder = false

theorem isHidden_eq_false_iff {name : String} {isFolder : Bool} :
    isHidden rules base name isFolder = false ↔ Admitted rules (base ++ [name]) isFolder := by
  rw [isHidden, Bool.or_eq_false_iff]
  constructor
  · rintro ⟨hname, hrules⟩
    refine ⟨?_, hrules⟩
    rw [List.getLast?_concat]
    rintro last hlast
    obtain rfl := Option.some.inj hlast
    cases isFolder <;> simpa using hname
  · rintro ⟨hname, hrules⟩
    refine ⟨?_, hrules⟩
    have hlast := hname name (by rw [List.getLast?_concat]; rfl)
    cases isFolder <;> simpa using hlast

/-- Whether what lies at a path counts as a folder: a link does if it leads to one. -/
def countsAsFolder (leadsToFolder : List String → Bool) (names : List String) : DiskNode → Bool
  | .folder _ => true
  | .file .. => false
  | .link _ => leadsToFolder names

/--
Whether some names below a folder, whose own path is `base`, make up a path that
is to be listed, as a folder or not: what leads there are folders that are not
hidden, none of them a link, and what lies there is not hidden either.
-/
structure Visible (rules : List IgnoreRule) (leadsToFolder : List String → Bool)
    (base : List String) (node : DiskNode) (names : List String) (isFolder : Bool) : Prop where
  named : names ≠ []
  ancestors : ∀ front, front <+: names → front ≠ [] → front ≠ names →
    (∃ entries, node.at? front = some (.folder entries)) ∧ Admitted rules (base ++ front) true
  itself : ∃ found, node.at? names = some found ∧
    isFolder = countsAsFolder leadsToFolder (base ++ names) found
  admitted : Admitted rules (base ++ names) isFolder

/-- What leads to a visible path is visible. -/
theorem Visible.of_prefix {node : DiskNode} {isFolder : Bool}
    (h : Visible rules leadsToFolder base node names isFolder) {front : List String}
    (hfront : front <+: names) (hnil : front ≠ []) (hne : front ≠ names) :
    Visible rules leadsToFolder base node front true := by
  obtain ⟨⟨entries, hfolder⟩, hadmitted⟩ := h.ancestors front hfront hnil hne
  refine ⟨hnil, ?_, ⟨_, hfolder, rfl⟩, hadmitted⟩
  intro first hfirst hfirstNil hfirstNe
  apply h.ancestors first (hfirst.trans hfront) hfirstNil
  rintro rfl
  exact hfirstNe (hfirst.eq_of_length_le hfront.length_le)

/-- Nothing is visible below a file or a link. -/
theorem Visible.exists_folder {node : DiskNode} {isFolder : Bool}
    (h : Visible rules leadsToFolder base node names isFolder) :
    ∃ entries, node = .folder entries := by
  obtain ⟨found, hfound, -⟩ := h.itself
  cases names with
  | nil => exact absurd rfl h.named
  | cons name names => exact DiskNode.folder_of_at?_cons hfound

section Cons

variable {entries : Entries} {name : String} {child : DiskNode} {isFolder : Bool}

theorem at?_folder_cons (hget : Table.get? name entries = some child) (front : List String) :
    (DiskNode.folder entries).at? (name :: front) = child.at? front := by
  change (Table.get? name entries).bind (fun below => below.at? front) = _
  rw [hget, Option.bind_some]

theorem visible_singleton (hget : Table.get? name entries = some child)
    (hadmitted : Admitted rules (base ++ [name])
      (countsAsFolder leadsToFolder (base ++ [name]) child)) :
    Visible rules leadsToFolder base (.folder entries) [name]
      (countsAsFolder leadsToFolder (base ++ [name]) child) where
  named := by simp
  ancestors := by
    intro front hfront hnil hne
    rcases List.prefix_cons_iff.mp hfront with rfl | ⟨rest, rfl, hrest⟩
    · exact absurd rfl hnil
    · exact absurd (congrArg (name :: ·) (List.prefix_nil.mp hrest)) hne
  itself := ⟨child, at?_folder_cons hget [], rfl⟩
  admitted := hadmitted

/-- What is visible from an admitted folder is so from the folder that this one lies in. -/
theorem Visible.cons (hget : Table.get? name entries = some child)
    (hadmitted : Admitted rules (base ++ [name])
      (countsAsFolder leadsToFolder (base ++ [name]) child))
    (h : Visible rules leadsToFolder (base ++ [name]) child names isFolder) :
    Visible rules leadsToFolder base (.folder entries) (name :: names) isFolder := by
  obtain ⟨inner, rfl⟩ := h.exists_folder
  obtain ⟨found, hfound, hkind⟩ := h.itself
  refine ⟨by simp, ?_, ⟨found, by rw [at?_folder_cons hget, hfound], ?_⟩, ?_⟩
  · intro front hfront hnil hne
    rcases List.prefix_cons_iff.mp hfront with rfl | ⟨front, rfl, hbehind⟩
    · exact absurd rfl hnil
    · rw [at?_folder_cons hget, List.append_cons]
      by_cases hfirst : front = []
      · subst hfirst
        exact ⟨⟨inner, rfl⟩, by rwa [List.append_nil]⟩
      · exact h.ancestors front hbehind hfirst (by simpa using hne)
  · rw [List.append_cons, hkind]
  · rw [List.append_cons]
    exact h.admitted

/-- What is visible behind the first name of a path is so from where this name leads. -/
theorem Visible.of_cons {next : String} (hget : Table.get? name entries = some child)
    (h : Visible rules leadsToFolder base (.folder entries) (name :: next :: names) isFolder) :
    Visible rules leadsToFolder (base ++ [name]) child (next :: names) isFolder := by
  obtain ⟨found, hfound, hkind⟩ := h.itself
  rw [at?_folder_cons hget] at hfound
  refine ⟨by simp, ?_, ⟨found, hfound, by rw [hkind, List.append_cons]⟩, ?_⟩
  · intro front hfront hnil hne
    have hancestor := h.ancestors (name :: front) (by simpa using hfront) (by simp)
      (by simpa using hne)
    rwa [at?_folder_cons hget, List.append_cons] at hancestor
  · rw [← List.append_cons]
    exact h.admitted

/-- A path is visible if its first name is, and the rest is so from there on. -/
theorem visible_cons_iff :
    Visible rules leadsToFolder base (.folder entries) (name :: names) isFolder ↔
      ∃ child, Table.get? name entries = some child ∧
        Admitted rules (base ++ [name])
          (countsAsFolder leadsToFolder (base ++ [name]) child) ∧
        (names = [] ∧ isFolder = countsAsFolder leadsToFolder (base ++ [name]) child ∨
          Visible rules leadsToFolder (base ++ [name]) child names isFolder) := by
  constructor
  · intro h
    obtain ⟨found, hfound, hkind⟩ := h.itself
    obtain ⟨child, hchild, hbelow⟩ := Option.bind_eq_some_iff.mp hfound
    refine ⟨child, hchild, ?_⟩
    cases names with
    | nil =>
        obtain rfl := Option.some.inj hbelow
        exact ⟨hkind ▸ h.admitted, .inl ⟨rfl, hkind⟩⟩
    | cons next names =>
        obtain ⟨inner, rfl⟩ := DiskNode.folder_of_at?_cons hbelow
        have hfirst := h.ancestors [name] (by simp) (by simp) (by simp)
        exact ⟨hfirst.2, .inr (h.of_cons hchild)⟩
  · rintro ⟨child, hchild, hadmitted, ⟨rfl, rfl⟩ | hrest⟩
    · exact visible_singleton hchild hadmitted
    · exact hrest.cons hchild hadmitted

end Cons

/-- What is listed for an entry of a folder. -/
def branchOf (rules : List IgnoreRule) (leadsToFolder : List String → Bool) (base : List String)
    (entry : String × DiskNode) : Branch where
  name := entry.1
  self := ⟨relative (base ++ [entry.1]),
    countsAsFolder leadsToFolder (base ++ [entry.1]) entry.2⟩
  below := listNode rules leadsToFolder (base ++ [entry.1]) entry.2

/-- Whether an entry of a folder is listed. -/
def showsEntry (rules : List IgnoreRule) (leadsToFolder : List String → Bool)
    (base : List String) (entry : String × DiskNode) : Bool :=
  !isHidden rules base entry.1 (countsAsFolder leadsToFolder (base ++ [entry.1]) entry.2)

theorem showsEntry_iff {entry : String × DiskNode} :
    showsEntry rules leadsToFolder base entry = true ↔
      Admitted rules (base ++ [entry.1])
        (countsAsFolder leadsToFolder (base ++ [entry.1]) entry.2) := by
  rw [showsEntry, Bool.not_eq_true', isHidden_eq_false_iff]

theorem listEntries_eq (entries : Entries) :
    listEntries rules leadsToFolder base entries =
      (entries.filter (showsEntry rules leadsToFolder base)).map
        (branchOf rules leadsToFolder base) := by
  induction entries with
  | nil => rw [listEntries]; rfl
  | cons entry entries ih =>
      obtain ⟨name, node⟩ := entry
      have hfirst : listEntries rules leadsToFolder base ((name, node) :: entries) =
          if isHidden rules base name (countsAsFolder leadsToFolder (base ++ [name]) node) then
            listEntries rules leadsToFolder base entries
          else branchOf rules leadsToFolder base (name, node) ::
            listEntries rules leadsToFolder base entries := by
        rw [listEntries.eq_def]
        cases node <;> rfl
      rw [hfirst, ih, List.filter_cons, showsEntry]
      cases isHidden rules base name
        (countsAsFolder leadsToFolder (base ++ [name]) node) <;> rfl

/-- A folder lists what is listed for its entries, in some order. -/
theorem inOrder_perm (branches : List Branch) :
    (inOrder branches).Perm (branches.map Branch.self ++ branches.flatMap Branch.below) := by
  have hsorted := List.mergeSort_perm branches fun a b => decide (a.name ≤ b.name)
  have hkinds := List.filter_append_perm (fun b : Branch => b.self.isFolder)
    (branches.mergeSort fun a b => decide (a.name ≤ b.name))
  exact ((hkinds.trans hsorted).map Branch.self).append (hsorted.flatMap_right Branch.below)

theorem mem_listNode_folder {entries : Entries} {l : Listed} :
    l ∈ listNode rules leadsToFolder base (.folder entries) ↔
      ∃ entry ∈ entries, showsEntry rules leadsToFolder base entry = true ∧
        (l = (branchOf rules leadsToFolder base entry).self ∨
          l ∈ (branchOf rules leadsToFolder base entry).below) := by
  rw [listNode, (inOrder_perm _).mem_iff, listEntries_eq, List.mem_append, List.map_map,
    List.flatMap_map, List.mem_map, List.mem_flatMap]
  constructor
  · rintro (⟨entry, hentry, rfl⟩ | ⟨entry, hentry, hbelow⟩)
    · obtain ⟨hmem, hshows⟩ := List.mem_filter.mp hentry
      exact ⟨entry, hmem, hshows, .inl rfl⟩
    · obtain ⟨hmem, hshows⟩ := List.mem_filter.mp hentry
      exact ⟨entry, hmem, hshows, .inr hbelow⟩
  · rintro ⟨entry, hmem, hshows, rfl | hbelow⟩
    · exact .inl ⟨entry, List.mem_filter.mpr ⟨hmem, hshows⟩, rfl⟩
    · exact .inr ⟨entry, List.mem_filter.mpr ⟨hmem, hshows⟩, hbelow⟩

/-- A path is listed if it is visible. -/
theorem mem_listNode_iff {node : DiskNode} (hnode : node.WellNamed) {l : Listed} :
    l ∈ listNode rules leadsToFolder base node ↔
      ∃ names, l.path = relative (base ++ names) ∧
        Visible rules leadsToFolder base node names l.isFolder := by
  induction hnode generalizing base l with
  | file bytes modified =>
      rw [listNode]
      · refine ⟨fun hmem => absurd hmem List.not_mem_nil, ?_⟩
        rintro ⟨names, -, hvisible⟩
        obtain ⟨entries, hfolder⟩ := hvisible.exists_folder
        cases hfolder
      · rintro entries ⟨⟩
  | link target =>
      rw [listNode]
      · refine ⟨fun hmem => absurd hmem List.not_mem_nil, ?_⟩
        rintro ⟨names, -, hvisible⟩
        obtain ⟨entries, hfolder⟩ := hvisible.exists_folder
        cases hfolder
      · rintro entries ⟨⟩
  | @folder entries distinct _ _ ih =>
      rw [mem_listNode_folder]
      constructor
      · rintro ⟨⟨name, child⟩, hentry, hshows, rfl | hbelow⟩
        · have hget := (Table.get?_eq_some_iff distinct).mpr hentry
          exact ⟨[name], rfl,
            visible_cons_iff.mpr ⟨child, hget, showsEntry_iff.mp hshows, .inl ⟨rfl, rfl⟩⟩⟩
        · have hget := (Table.get?_eq_some_iff distinct).mpr hentry
          obtain ⟨names, hpath, hvisible⟩ := (ih _ hentry).mp hbelow
          rw [← List.append_cons] at hpath
          exact ⟨name :: names, hpath,
            visible_cons_iff.mpr ⟨child, hget, showsEntry_iff.mp hshows, .inr hvisible⟩⟩
      · rintro ⟨names, hpath, hvisible⟩
        cases names with
        | nil => exact absurd rfl hvisible.named
        | cons name names =>
            obtain ⟨child, hget, hadmitted, hcase⟩ := visible_cons_iff.mp hvisible
            have hentry := Table.mem_of_get? hget
            refine ⟨(name, child), hentry, showsEntry_iff.mpr hadmitted, ?_⟩
            rcases hcase with ⟨rfl, hkind⟩ | hrest
            · refine .inl ?_
              obtain ⟨path, isFolder⟩ := l
              simp only at hpath hkind
              rw [hpath, hkind]
              rfl
            · refine .inr ((ih _ hentry).mpr ⟨names, ?_, hrest⟩)
              rw [hpath, List.append_cons]

/-- What is listed has the names of a path below the folder. -/
theorem names_of_mem_listNode {node : DiskNode} (hnode : node.WellNamed)
    (hbase : ∀ name ∈ base, IsName name) {l : Listed}
    (hl : l ∈ listNode rules leadsToFolder base node) :
    ∃ name rest, l.names = base ++ name :: rest := by
  obtain ⟨names, hpath, hvisible⟩ := (mem_listNode_iff hnode).mp hl
  obtain ⟨found, hfound, -⟩ := hvisible.itself
  have hnames : ∀ name ∈ base ++ names, IsName name :=
    List.forall_mem_append.mpr ⟨hbase, (hnode.of_at? hfound).1⟩
  obtain ⟨name, rest, rfl⟩ := List.exists_cons_of_ne_nil hvisible.named
  refine ⟨name, rest, ?_⟩
  rw [Listed.names, hpath, splitOnChar_relative (by simp) hnames]

/-- Whether what is listed first does not lie below what is listed later, and is not the same. -/
def MayPrecede (first later : Listed) : Prop :=
  ¬later.names <+: first.names

/-- Branches with different names are apart from each other. -/
theorem mayPrecede_of_ne {first later : Listed} {a b : String} {rest more : List String}
    (hfirst : first.names = base ++ a :: rest) (hlater : later.names = base ++ b :: more)
    (hne : a ≠ b) : MayPrecede first later := by
  intro hprefix
  rw [hfirst, hlater, List.prefix_append_right_inj, List.cons_prefix_cons] at hprefix
  exact hne hprefix.1.symm

/-- What lies in a folder comes after all that is of the folder's own depth. -/
theorem mayPrecede_of_deeper {first later : Listed} {a b next : String} {more : List String}
    (hfirst : first.names = base ++ [a]) (hlater : later.names = base ++ b :: next :: more) :
    MayPrecede first later := by
  intro hprefix
  have hlength := hprefix.length_le
  rw [hfirst, hlater, List.length_append, List.length_append] at hlength
  simp at hlength

/-- Whether branches of a folder with the path `base` have the names that they stand under. -/
structure Rooted (base : List String) (branches : List Branch) : Prop where
  distinct : (branches.map Branch.name).Nodup
  self : ∀ b ∈ branches, b.self.names = base ++ [b.name]
  below : ∀ b ∈ branches, ∀ l ∈ b.below, ∃ next more, l.names = base ++ b.name :: next :: more

theorem Rooted.of_perm {branches others : List Branch} (h : Rooted base branches)
    (hperm : others.Perm branches) : Rooted base others where
  distinct := (hperm.map Branch.name).nodup_iff.mpr h.distinct
  self b hb := h.self b (hperm.mem_iff.mp hb)
  below b hb := h.below b (hperm.mem_iff.mp hb)

theorem Rooted.pairwise_self {branches : List Branch} (h : Rooted base branches) :
    (branches.map Branch.self).Pairwise MayPrecede := by
  rw [List.pairwise_map]
  have hnames := List.pairwise_map.mp h.distinct
  refine hnames.imp_of_mem fun {a b} ha hb hne => ?_
  exact mayPrecede_of_ne (h.self a ha) (h.self b hb) hne

theorem Rooted.pairwise_below {branches : List Branch} (h : Rooted base branches)
    (hbelow : ∀ b ∈ branches, b.below.Pairwise MayPrecede) :
    (branches.flatMap Branch.below).Pairwise MayPrecede := by
  rw [List.pairwise_flatMap]
  refine ⟨hbelow, ?_⟩
  have hnames := List.pairwise_map.mp h.distinct
  refine hnames.imp_of_mem fun {a b} ha hb hne => ?_
  intro first hfirst later hlater
  obtain ⟨_, _, hfirst⟩ := h.below a ha first hfirst
  obtain ⟨_, _, hlater⟩ := h.below b hb later hlater
  exact mayPrecede_of_ne hfirst hlater hne

theorem Rooted.pairwise_inOrder {branches : List Branch} (h : Rooted base branches)
    (hbelow : ∀ b ∈ branches, b.below.Pairwise MayPrecede) :
    (inOrder branches).Pairwise MayPrecede := by
  rw [inOrder]
  have hsorted := List.mergeSort_perm branches fun a b => decide (a.name ≤ b.name)
  generalize (branches.mergeSort fun a b => decide (a.name ≤ b.name)) = sorted at *
  have hkinds := List.filter_append_perm (fun b : Branch => b.self.isFolder) sorted
  have hselves := (h.of_perm (hkinds.trans hsorted)).pairwise_self
  have hroots := h.of_perm hsorted
  rw [List.pairwise_append]
  refine ⟨hselves, hroots.pairwise_below fun b hb => hbelow b (hsorted.mem_iff.mp hb), ?_⟩
  intro first hfirst later hlater
  obtain ⟨a, ha, rfl⟩ := List.mem_map.mp hfirst
  obtain ⟨b, hb, hlater⟩ := List.mem_flatMap.mp hlater
  obtain ⟨next, more, hnames⟩ := hroots.below b hb later hlater
  exact mayPrecede_of_deeper (hroots.self a (hkinds.mem_iff.mp ha)) hnames

/-- Nothing is listed twice or before what leads to it. -/
theorem pairwise_listNode {node : DiskNode} (hnode : node.WellNamed)
    (hbase : ∀ name ∈ base, IsName name) :
    (listNode rules leadsToFolder base node).Pairwise MayPrecede := by
  induction hnode generalizing base with
  | file bytes modified =>
      rw [listNode]
      · exact .nil
      · rintro entries ⟨⟩
  | link target =>
      rw [listNode]
      · exact .nil
      · rintro entries ⟨⟩
  | @folder entries distinct hnames hchildren ih =>
      have hpath (entry) (hentry : entry ∈ entries) :
          ∀ name ∈ base ++ [entry.1], IsName name :=
        List.forall_mem_append.mpr ⟨hbase, by simpa using hnames entry hentry⟩
      rw [listNode, listEntries_eq]
      refine @Rooted.pairwise_inOrder base _ ⟨?_, ?_, ?_⟩ ?_
      · rw [List.map_map]
        exact distinct.sublist (List.filter_sublist.map Prod.fst)
      · intro b hb
        obtain ⟨entry, hentry, rfl⟩ := List.mem_map.mp hb
        exact splitOnChar_relative (by simp) (hpath entry (List.mem_of_mem_filter hentry))
      · intro b hb l hl
        obtain ⟨entry, hentry, rfl⟩ := List.mem_map.mp hb
        have hmem := List.mem_of_mem_filter hentry
        obtain ⟨next, more, hl⟩ :=
          names_of_mem_listNode (hchildren entry hmem) (hpath entry hmem) hl
        rw [← List.append_cons] at hl
        exact ⟨next, more, hl⟩
      · intro b hb
        obtain ⟨entry, hentry, rfl⟩ := List.mem_map.mp hb
        have hmem := List.mem_of_mem_filter hentry
        exact ih entry hmem (hpath entry hmem)

/-- Whether some names make up a path of the repository that is to be listed. -/
def Shows (t : LocalTree) (disk root : DiskNode) (names : List String) (isFolder : Bool) : Prop :=
  Visible t.rules (fun names => disk.isFolderAt (t.folder ++ names)) [] root names isFolder

/-- The type of what is listed as a folder or not. -/
def typeOf (isFolder : Bool) : EntryKind :=
  if isFolder then .tree else .blob

section Listing

variable {t : LocalTree} {disk root : DiskNode}

theorem listing_eq (hroot : disk.at? t.folder = some root) :
    t.listing disk =
      listNode t.rules (fun names => disk.isFolderAt (t.folder ++ names)) [] root := by
  rw [listing, hroot]

theorem mem_listing_iff (hroot : disk.at? t.folder = some root) (hnames : root.WellNamed)
    {l : Listed} : l ∈ t.listing disk ↔ t.Shows disk root l.names l.isFolder := by
  rw [listing_eq hroot, mem_listNode_iff hnames]
  constructor
  · rintro ⟨names, hpath, hvisible⟩
    obtain ⟨found, hfound, -⟩ := hvisible.itself
    have hsplit := splitOnChar_relative hvisible.named (hnames.of_at? hfound).1
    rw [Listed.names, hpath, List.nil_append, hsplit]
    exact hvisible
  · intro hshows
    exact ⟨l.names, (Text.intercalate_splitOnChar l.path).symm, hshows⟩

theorem pairwise_listing (hroot : disk.at? t.folder = some root) (hnames : root.WellNamed) :
    (t.listing disk).Pairwise MayPrecede := by
  rw [listing_eq hroot]
  exact pairwise_listNode hnames (by simp)

/-- The folders above something listed stand before it. -/
theorem mem_of_above (hroot : disk.at? t.folder = some root) (hnames : root.WellNamed)
    {before after : List Listed} {l : Listed} (hlisting : t.listing disk = before ++ l :: after)
    {above rest : String} (habove : l.path = above ++ "/" ++ rest) :
    ⟨above, true⟩ ∈ before := by
  have hsplit : l.names = Text.splitOnChar '/' above ++ Text.splitOnChar '/' rest := by
    rw [Listed.names, habove, Text.splitOnChar_append]
  have hne : Text.splitOnChar '/' above ≠ l.names := by
    intro heq
    rw [hsplit, List.self_eq_append_right] at heq
    exact Text.splitOnChar_ne_nil _ _ heq
  have hprefix : Text.splitOnChar '/' above <+: l.names := ⟨_, hsplit.symm⟩
  have hl : l ∈ t.listing disk := by
    rw [hlisting]
    exact List.mem_append_right _ List.mem_cons_self
  have hshows := (mem_listing_iff hroot hnames).mp hl
  have hmem : ⟨above, true⟩ ∈ t.listing disk := (mem_listing_iff hroot hnames).mpr
    (hshows.of_prefix hprefix (Text.splitOnChar_ne_nil _ _) hne)
  have hordered := pairwise_listing hroot hnames
  rw [hlisting, List.pairwise_append, List.pairwise_cons] at hordered
  rw [hlisting, List.mem_append, List.mem_cons] at hmem
  rcases hmem with hmem | hsame | hmem
  · exact hmem
  · exact absurd (congrArg Listed.names hsame) hne
  · exact absurd hprefix (hordered.2.1.1 _ hmem)

theorem nodup_paths (hroot : disk.at? t.folder = some root) (hnames : root.WellNamed) :
    ((t.listing disk).map Listed.path).Nodup := by
  rw [List.Nodup, List.pairwise_map]
  refine (pairwise_listing hroot hnames).imp fun {first later} hmay heq => ?_
  have hnames : first.names = later.names := congrArg (Text.splitOnChar '/') heq
  exact hmay (hnames ▸ List.prefix_rfl)

end Listing

end LocalTree

/--
A repository on disk lists a path exactly if it is visible: as a tree if a folder
lies there or a link to one, else as a blob. Each path is listed once, and the
folders above it stand before it.
-/
theorem files_are_visible_tree {t : LocalTree} {disk root : DiskNode}
    (hroot : disk.at? t.folder = some root) (hnames : root.WellNamed) :
    (∀ path type, (∃ file ∈ t.files disk, file.path = path ∧ file.type = type) ↔
      ∃ isFolder, type = LocalTree.typeOf isFolder ∧
        t.Shows disk root (Text.splitOnChar '/' path) isFolder) ∧
    ((t.files disk).map FileRecord.path).Nodup ∧
    ∀ before file after, t.files disk = before ++ file :: after →
      ∀ above rest, file.path = above ++ "/" ++ rest →
        ∃ folder ∈ before, folder.path = above ∧ folder.type = .tree := by
  refine ⟨?_, ?_, ?_⟩
  · intro path type
    constructor
    · rintro ⟨file, hfile, rfl, rfl⟩
      obtain ⟨l, hl, rfl⟩ := List.mem_map.mp hfile
      exact ⟨l.isFolder, rfl, (LocalTree.mem_listing_iff hroot hnames).mp hl⟩
    · rintro ⟨isFolder, rfl, hshows⟩
      have hl : ⟨path, isFolder⟩ ∈ t.listing disk :=
        (LocalTree.mem_listing_iff hroot hnames).mpr hshows
      exact ⟨_, List.mem_map_of_mem hl, rfl, rfl⟩
  · rw [LocalTree.files, List.map_map]
    exact LocalTree.nodup_paths hroot hnames
  · intro before file after hfiles above rest habove
    obtain ⟨front, back, hlisting, rfl, hback⟩ := List.map_eq_append_iff.mp hfiles
    obtain ⟨l, behind, rfl, rfl, rfl⟩ := List.map_eq_cons_iff.mp hback
    have hmem := LocalTree.mem_of_above hroot hnames hlisting habove
    exact ⟨_, List.mem_map_of_mem hmem, rfl, rfl⟩

namespace SampleTree

/-- Two files of which one is ignored, a link to their folder, and a folder that is hidden. -/
def root : DiskNode :=
  .folder [("src", .folder [("a.ts", .file [] .zero), ("a.log", .file [] .zero)]),
    ("lib", .link "src"), ("dist", .folder [("b.ts", .file [] .zero)])]

def disk : DiskNode :=
  .folder [("repo", root)]

def tree : LocalTree where
  folder := ["repo"]
  coordinates := ⟨"local", "repo", "local"⟩
  rules := IgnoreRule.ofPatterns ["*.log"]

theorem isName {name : String} (h : name ∈ ["src", "a.ts", "a.log", "lib", "dist", "b.ts"]) :
    IsName name := by
  simp only [List.mem_cons, List.not_mem_nil, or_false] at h
  rcases h with rfl | rfl | rfl | rfl | rfl | rfl <;>
    exact ⟨by decide, by decide, by decide, by decide, by decide⟩

theorem wellNamed : root.WellNamed := by
  have hfile : ∀ bytes, DiskNode.WellNamed (.file bytes .zero) := fun bytes => .file bytes _
  refine .folder (by decide) ?_ ?_
  · intro entry hentry
    simp only [List.mem_cons, List.not_mem_nil, or_false] at hentry
    rcases hentry with rfl | rfl | rfl <;> exact isName (by decide)
  · intro entry hentry
    simp only [List.mem_cons, List.not_mem_nil, or_false] at hentry
    rcases hentry with rfl | rfl | rfl
    · refine .folder (by decide) ?_ ?_ <;> intro entry hentry <;>
        simp only [List.mem_cons, List.not_mem_nil, or_false] at hentry <;>
        rcases hentry with rfl | rfl
      · exact isName (by decide)
      · exact isName (by decide)
      · exact hfile _
      · exact hfile _
    · exact .link _
    · refine .folder (by decide) ?_ ?_ <;> intro entry hentry <;>
        obtain rfl := List.mem_singleton.mp hentry
      · exact isName (by decide)
      · exact hfile _

theorem admitted {names : List String} {isFolder : Bool}
    (h : LocalTree.isHidden tree.rules names.dropLast (names.getLast?.getD "") isFolder = false)
    (hnames : names.dropLast ++ [names.getLast?.getD ""] = names) :
    LocalTree.Admitted tree.rules names isFolder := by
  rw [← hnames]
  exact LocalTree.isHidden_eq_false_iff.mp h

theorem shows_file : tree.Shows disk root ["src", "a.ts"] false where
  named := by simp
  ancestors := by
    intro front hfront hnil hne
    obtain rfl : front = ["src"] := by
      rcases List.prefix_cons_iff.mp hfront with rfl | ⟨rest, rfl, hrest⟩
      · exact absurd rfl hnil
      · rcases List.prefix_cons_iff.mp hrest with rfl | ⟨last, rfl, hlast⟩
        · rfl
        · rw [List.prefix_nil.mp hlast] at hne
          exact absurd rfl hne
    exact ⟨⟨_, rfl⟩, admitted (by decide +kernel) rfl⟩
  itself := ⟨_, rfl, rfl⟩
  admitted := admitted (by decide +kernel) rfl

end SampleTree

open SampleTree in
/-- A file is listed after its folder. What is ignored, in a hidden folder or behind a link
is not. -/
theorem files_are_visible_tree_sample :
    disk.at? tree.folder = some root ∧ root.WellNamed ∧
      (∃ before file after folder, tree.files disk = before ++ file :: after ∧
        file.path = "src/a.ts" ∧ file.type = .blob ∧ folder ∈ before ∧ folder.path = "src") ∧
      (¬∃ file ∈ tree.files disk, file.path = "src/a.log" ∧ file.type = .blob) ∧
      (¬∃ file ∈ tree.files disk, file.path = "dist/b.ts" ∧ file.type = .blob) ∧
      ¬∃ file ∈ tree.files disk, file.path = "lib/a.ts" ∧ file.type = .blob := by
  have hroot : disk.at? tree.folder = some root := rfl
  obtain ⟨hlisted, -, habove⟩ := files_are_visible_tree hroot wellNamed
  have hsplit : Text.splitOnChar '/' "src/a.ts" = ["src", "a.ts"] := by decide
  obtain ⟨file, hfile, hpath, htype⟩ :=
    (hlisted "src/a.ts" .blob).mpr ⟨false, rfl, hsplit ▸ shows_file⟩
  obtain ⟨before, after, hfiles⟩ := List.append_of_mem hfile
  obtain ⟨folder, hfolder, hname, -⟩ := habove before file after hfiles "src" "a.ts" hpath
  refine ⟨rfl, wellNamed, ⟨before, file, after, folder, hfiles, hpath, htype, hfolder, hname⟩,
    ?_, ?_, ?_⟩
  · rw [hlisted]
    rintro ⟨isFolder, hkind, hshows⟩
    have hrules := hshows.admitted.rules
    cases isFolder
    · revert hrules
      decide +kernel
    · cases hkind
  · rw [hlisted]
    rintro ⟨isFolder, -, hshows⟩
    have hfront := (hshows.ancestors ["dist"] (by decide) (by decide) (by decide)).2.name
    exact hfront "dist" rfl (by decide)
  · rw [hlisted]
    rintro ⟨isFolder, -, hshows⟩
    obtain ⟨⟨entries, hfolder⟩, -⟩ :=
      hshows.ancestors ["lib"] (by decide) (by decide) (by decide)
    cases hfolder

end RepoAtlas
