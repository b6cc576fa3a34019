import RepoAtlas.Proofs.Hosting.Containment
import RepoAtlas.Proofs.Hosting.Snapshot
import RepoAtlas.Proofs.Repository.Reading

/-!
A snapshot that lies in a folder on disk, read as a repository: its files are
listed as far as the rules show them, and read with their line ends made equal.
-/
namespace RepoAtlas

open DiskNode (Possible)

namespace Snapshot

variable {s : Snapshot} {t : LocalTree} {root names : List String} {disk node : DiskNode}

/-- The bytes of the file with some names, if there is one. -/
def bytes? (s : Snapshot) (names : List String) : Option (List UInt8) :=
  (s.files.find? fun file => file.1 == names).map Prod.snd

theorem mem_of_bytes? {bytes : List UInt8} (h : s.bytes? names = some bytes) :
    (names, bytes) ∈ s.files := by
  obtain ⟨⟨others, found⟩, hfind, rfl⟩ := Option.map_eq_some_iff.mp h
  have hnames : others = names := by simpa using List.find?_some hfind
  exact hnames ▸ List.mem_of_find?_eq_some hfind

theorem not_mem_of_bytes? (h : s.bytes? names = none) (bytes : List UInt8) :
    (names, bytes) ∉ s.files := by
  intro hmem
  rw [bytes?, Option.map_eq_none_iff, List.find?_eq_none] at h
  exact h _ hmem (by simp)

/-- The name of the list of files to ignore. -/
def ignoreName : String :=
  ".gitignore"

/-- The rules in the list of files to ignore, if the snapshot has one on top. -/
def rules (s : Snapshot) : List IgnoreRule :=
  ((s.bytes? [ignoreName]).map IgnoreRule.ofBytes).getD []

/-- Whether neither fixed names nor the rules of a snapshot keep a file of it from being listed. -/
structure Shown (s : Snapshot) (names : List String) : Prop where
  folders : ∀ front, front <+: names → front ≠ [] → front ≠ names →
    LocalTree.Admitted s.rules front true
  itself : LocalTree.Admitted s.rules names false

namespace LiesAt

/-- Names below the folder of a snapshot are those that a path can hold. -/
theorem isName_of_at? (h : s.LiesAt root disk) (hnode : disk.at? (root ++ names) = some node) :
    ∀ name ∈ root ++ names, IsName name :=
  (h.wellNamed.of_at? hnode).1

theorem isName_root (h : s.LiesAt root disk) : ∀ name ∈ root, IsName name := by
  obtain ⟨entries, hfolder⟩ := h.folder
  exact (h.wellNamed.of_at? hfolder).1

theorem not_mem_up (h : s.LiesAt root disk) (hnode : disk.at? (root ++ names) = some node) :
    ".." ∉ root ++ names :=
  fun hup => (h.isName_of_at? hnode _ hup).notUp rfl

/-- What lies below the folder of a snapshot is found by following its path. -/
theorem stat_eq (h : s.LiesAt root disk) (hpossible : Possible (root ++ names))
    (hnode : disk.at? (root ++ names) = some node) : disk.stat (root ++ names) = .ok node :=
  DiskNode.stat_of_at? (h.not_mem_up hnode) hpossible (h.linkFreeAlong names) hnode

/-- What lies below the folder of a snapshot is where its path says. -/
theorem resolve_eq (h : s.LiesAt root disk) (hnode : disk.at? (root ++ names) = some node) :
    disk.resolve (root ++ names) = .ok (root ++ names) :=
  DiskNode.resolve_of_linkFree (fun name hmem => (h.isName_of_at? hnode name hmem).null)
    (h.not_mem_up hnode) (h.linkFreeAlong names)

/-- Nothing lies under names that are neither those of a file nor of a folder. -/
theorem at?_eq_none (h : s.LiesAt root disk) (hne : names ≠ []) (hfolder : ¬s.HasFolder names)
    (hfile : ∀ bytes, (names, bytes) ∉ s.files) : disk.at? (root ++ names) = none := by
  cases hnode : disk.at? (root ++ names) with
  | none => rfl
  | some node =>
      rcases h.only names node hnode with ⟨hnil | hhas, -⟩ | ⟨bytes, modified, hmem, -⟩
      · exact absurd hnil hne
      · exact absurd hhas hfolder
      · exact absurd hmem (hfile bytes)

theorem ignoreRules_eq (h : s.LiesAt root disk) (hroot : Possible root)
    (hignore : ¬s.HasFolder [ignoreName]) : LocalTree.ignoreRules disk root = .ok s.rules := by
  have hpossible : Possible (root ++ [ignoreName]) :=
    List.forall_mem_append.mpr ⟨hroot, by decide⟩
  rw [LocalTree.ignoreRules, rules, ← ignoreName]
  cases hbytes : s.bytes? [ignoreName] with
  | some bytes =>
      obtain ⟨modified, hfile⟩ := h.files _ (mem_of_bytes? hbytes)
      have hstat := h.stat_eq hpossible hfile
      simp only [DiskNode.hasPath, DiskNode.read, hstat]
      rfl
  | none =>
      obtain ⟨entries, hfolder⟩ := h.folder
      have hmissing : disk.at? (root ++ [ignoreName]) = none :=
        h.at?_eq_none (by simp) hignore (not_mem_of_bytes? hbytes)
      have hup : ".." ∉ root ++ [ignoreName] := by
        intro hmem
        rcases List.mem_append.mp hmem with hmem | hmem
        · exact (h.isName_root _ hmem).notUp rfl
        · exact absurd hmem (by decide)
      have hfollow : disk.locate (root ++ [ignoreName]) = .ok ⟨root ++ [ignoreName], none⟩ :=
        DiskNode.follow_of_missing [] hup hpossible hfolder hmissing
      simp only [DiskNode.hasPath, DiskNode.stat, hfollow]
      rfl

/-- A folder in place of the list of files to ignore is not read as one. -/
theorem ignoreRules_of_hasFolder (h : s.LiesAt root disk) (hroot : Possible root)
    (hignore : s.HasFolder [ignoreName]) :
    LocalTree.ignoreRules disk root =
      .error (FileFault.isFolder.unexpected (DiskNode.pathText (root ++ [ignoreName]))) := by
  obtain ⟨file, hfile, ⟨rest, hrest⟩, hne⟩ := hignore
  obtain ⟨modified, hlies⟩ := h.files file hfile
  rw [← hrest, ← List.append_assoc, DiskNode.at?_append, Option.bind_eq_some_iff] at hlies
  obtain ⟨node, hnode, hbelow⟩ := hlies
  cases rest with
  | nil => exact absurd hrest (by simpa using hne)
  | cons name rest =>
      obtain ⟨entries, rfl⟩ := DiskNode.folder_of_at?_cons hbelow
      have hpossible : Possible (root ++ [ignoreName]) :=
        List.forall_mem_append.mpr ⟨hroot, by decide⟩
      have hstat := h.stat_eq hpossible hnode
      rw [LocalTree.ignoreRules, ← ignoreName]
      simp only [DiskNode.hasPath, DiskNode.read, hstat]

/-- The folder of a snapshot is opened as a repository if its rules can be read. -/
theorem openAt_eq_map (h : s.LiesAt root disk) (hreal : IsRealPath root) (hroot : Possible root)
    (repository : Coordinates) :
    LocalTree.openAt disk [] (DiskNode.pathText root) [] (some repository) =
      (LocalTree.ignoreRules disk root).map fun rules => ⟨root, repository, rules⟩ := by
  obtain ⟨entries, hfolder⟩ := h.folder
  rw [← List.append_nil root] at hfolder
  have hresolve := h.resolve_eq hfolder
  have hstat := h.stat_eq (by rwa [List.append_nil]) hfolder
  rw [List.append_nil] at hresolve hstat
  have hnames : LocalTree.namesFrom [] (DiskNode.pathText root) = root := by
    rw [LocalTree.namesFrom, hreal.text]
    rfl
  simp only [LocalTree.openAt, hnames, hresolve, DiskNode.hasPath, DiskNode.isFolderAt, hstat,
    bind, Except.bind, Except.mapError, pure, Except.pure]
  cases LocalTree.ignoreRules disk root with
  | error cause => rfl
  | ok rules => simp [IgnoreRule.ofPatterns, Except.map]

/-- A path is that of a file which is listed if it is that of a file which is shown. -/
theorem shows_iff (h : s.LiesAt t.folder disk) (hs : s.Proper) (hrules : t.rules = s.rules)
    (hnode : disk.at? t.folder = some node) :
    t.Shows disk node names false ↔ (∃ bytes, (names, bytes) ∈ s.files) ∧ s.Shown names := by
  have hat (path : List String) : disk.at? (t.folder ++ path) = node.at? path := by
    rw [DiskNode.at?_append, hnode, Option.bind_some]
  constructor
  · intro hshows
    obtain ⟨found, hfound, hkind⟩ := hshows.itself
    have hadmitted := hshows.admitted
    rw [hrules] at hadmitted
    have hfolders : ∀ front, front <+: names → front ≠ [] → front ≠ names →
        LocalTree.Admitted s.rules front true := by
      intro front hfront hnil hne
      have hancestor := (hshows.ancestors front hfront hnil hne).2
      rwa [hrules] at hancestor
    rcases h.only names found ((hat names).trans hfound) with
      ⟨-, entries, rfl⟩ | ⟨bytes, modified, hmem, -⟩
    · cases hkind
    · exact ⟨⟨bytes, hmem⟩, hfolders, hadmitted⟩
  · rintro ⟨⟨bytes, hmem⟩, hshown⟩
    obtain ⟨modified, hfile⟩ := h.files _ hmem
    rw [hat] at hfile
    refine ⟨hs.nonempty _ hmem, ?_, ⟨_, hfile, rfl⟩, ?_⟩
    · rintro front ⟨rest, rfl⟩ hnil hne
      refine ⟨?_, ?_⟩
      · rw [DiskNode.at?_append, Option.bind_eq_some_iff] at hfile
        obtain ⟨below, hbelow, hrest⟩ := hfile
        cases rest with
        | nil => exact absurd (List.append_nil front).symm hne
        | cons name rest =>
            obtain ⟨entries, rfl⟩ := DiskNode.folder_of_at?_cons hrest
            exact ⟨entries, hbelow⟩
      · rw [hrules]
        exact hshown.folders front (List.prefix_append front rest) hnil hne
    · rw [hrules]
      exact hshown.itself

/-- The text of a file is what its bytes stand for, with equal line ends. -/
theorem readText_eq (h : s.LiesAt t.folder disk) (hs : s.Proper) (hfolder : Possible t.folder)
    {file : List String × List UInt8} (hfile : file ∈ s.files) {chars : List Char}
    (hchars : Utf8.decode file.2 = .ok chars) :
    t.readText disk (LocalTree.relative file.1) =
      .ok (String.ofList (Text.universalNewlines chars)) := by
  obtain ⟨modified, hlies⟩ := h.files file hfile
  have hpath := PurePath.ofString_intercalate (hs.nonempty file hfile) (hs.named file hfile)
  have hnames : LocalTree.namesFrom t.folder (LocalTree.relative file.1) =
      t.folder ++ file.1 := by
    rw [LocalTree.namesFrom, LocalTree.relative, hpath]
    rfl
  have hpossible : Possible (t.folder ++ file.1) :=
    List.forall_mem_append.mpr ⟨hfolder, hs.possible file hfile⟩
  have hinside : t.folder.isPrefixOf (t.folder ++ file.1) = true :=
    List.isPrefixOf_iff_prefix.mpr (List.prefix_append _ _)
  simp only [LocalTree.readText, hnames, h.resolve_eq hlies, hinside, if_true, DiskNode.read,
    h.stat_eq hpossible hlies, hchars]

end LiesAt

end Snapshot

end RepoAtlas
