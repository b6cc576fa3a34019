import RepoAtlas.Hosting.Archive
import RepoAtlas.Proofs.Disk.Growth

/-!
Snapshots of repositories, and what unpacking an archive of one leaves in an
empty folder: its files under their names, and nothing else but their folders.
-/
namespace RepoAtlas

open DiskNode (BuiltAt Possible)

/-- A snapshot of a repository: the bytes of its files, by the names of their paths. -/
structure Snapshot where
  files : List (List String × List UInt8)

namespace Snapshot

variable {s : Snapshot} {root names : List String} {disk after : DiskNode}

/-- Whether names are those of a folder of a snapshot, which holds some of its files. -/
def HasFolder (s : Snapshot) (names : List String) : Prop :=
  ∃ file ∈ s.files, names <+: file.1 ∧ names ≠ file.1

instance (s : Snapshot) (names : List String) : Decidable (s.HasFolder names) :=
  inferInstanceAs (Decidable (∃ file ∈ s.files, names <+: file.1 ∧ names ≠ file.1))

/-- A part of a folder's path is the path of a folder. -/
theorem HasFolder.of_prefix {front : List String} (h : s.HasFolder names)
    (hfront : front <+: names) : s.HasFolder front := by
  obtain ⟨file, hfile, hpart, hne⟩ := h
  refine ⟨file, hfile, hfront.trans hpart, ?_⟩
  rintro rfl
  exact hne (hpart.eq_of_length_le hfront.length_le)

/-- Whether the files of a snapshot can lie on a disk together, each of them a text. -/
structure Proper (s : Snapshot) : Prop where
  nonempty : ∀ file ∈ s.files, file.1 ≠ []
  named : ∀ file ∈ s.files, ∀ name ∈ file.1, IsName name
  possible : ∀ file ∈ s.files, Possible file.1
  distinct : (s.files.map Prod.fst).Nodup
  apart : ∀ file ∈ s.files, ¬s.HasFolder file.1
  texts : ∀ file ∈ s.files, ∃ chars, Utf8.decode file.2 = .ok chars

instance (bytes : List UInt8) : Decidable (∃ chars, Utf8.decode bytes = .ok chars) :=
  match h : Utf8.decode bytes with
  | .ok chars => .isTrue ⟨chars, rfl⟩
  | .error _ => .isFalse fun ⟨_, hchars⟩ => by cases hchars

instance (s : Snapshot) : Decidable s.Proper :=
  decidable_of_iff
    ((∀ file ∈ s.files, file.1 ≠ []) ∧ (∀ file ∈ s.files, ∀ name ∈ file.1, IsName name) ∧
      (∀ file ∈ s.files, Possible file.1) ∧ (s.files.map Prod.fst).Nodup ∧
      (∀ file ∈ s.files, ¬s.HasFolder file.1) ∧
      ∀ file ∈ s.files, ∃ chars, Utf8.decode file.2 = .ok chars)
    ⟨fun ⟨nonempty, named, possible, distinct, apart, texts⟩ =>
        ⟨nonempty, named, possible, distinct, apart, texts⟩,
      fun h => ⟨h.nonempty, h.named, h.possible, h.distinct, h.apart, h.texts⟩⟩

namespace Proper

/-- The bytes of a file are determined by its names. -/
theorem bytes_eq (hs : s.Proper) {bytes others : List UInt8} (h : (names, bytes) ∈ s.files)
    (hother : (names, others) ∈ s.files) : bytes = others := by
  have heq := List.inj_on_of_nodup_map hs.distinct h hother rfl
  exact (Prod.mk.inj heq).2

/-- What leads to a file is the path of a folder. -/
theorem hasFolder_dropLast (hs : s.Proper) {file : List String × List UInt8}
    (hfile : file ∈ s.files) : s.HasFolder file.1.dropLast := by
  refine ⟨file, hfile, List.dropLast_prefix _, ?_⟩
  intro heq
  have hlength := congrArg List.length heq
  have hpos := List.length_pos_iff.mpr (hs.nonempty file hfile)
  rw [List.length_dropLast] at hlength
  omega

theorem named_of_hasFolder (hs : s.Proper) (h : s.HasFolder names) :
    ∀ name ∈ names, IsName name := by
  obtain ⟨file, hfile, hpart, -⟩ := h
  exact fun name hmem => hs.named file hfile name (hpart.subset hmem)

theorem possible_of_hasFolder (hs : s.Proper) (h : s.HasFolder names) : Possible names := by
  obtain ⟨file, hfile, hpart, -⟩ := h
  exact fun name hmem => hs.possible file hfile name (hpart.subset hmem)

end Proper

/-- Whether a member of an archive is a file or a folder of a snapshot, below a folder on top. -/
inductive IsMember (s : Snapshot) (top : String) (m : Member) : Prop where
  | file {names : List String} {bytes : List UInt8} (hfile : (names, bytes) ∈ s.files)
      (hname : PurePath.ofString m.name = ⟨"", top :: names⟩) (hkind : m.kind = .file bytes)
  | folder {names : List String} (hfolder : names = [] ∨ s.HasFolder names)
      (hname : PurePath.ofString m.name = ⟨"", top :: names⟩) (hkind : m.kind = .folder)

/-- Whether the members of an archive are those of a snapshot, below one folder on top. -/
structure Packed (s : Snapshot) (members : List Member) : Prop where
  sound : ∃ top, ∀ m ∈ members, s.IsMember top m
  complete : ∀ file ∈ s.files, ∃ m ∈ members, m.names = file.1 ∧ m.kind = .file file.2

theorem names_of_ofString {m : Member} {top : String}
    (h : PurePath.ofString m.name = ⟨"", top :: names⟩) : m.names = names := by
  rw [Member.names, h]
  rfl

/--
Whether a folder on a disk holds nothing but files and folders of a snapshot,
each under its own names.
-/
structure Fits (s : Snapshot) (root : List String) (disk : DiskNode) : Prop where
  wellNamed : disk.WellNamed
  folder : ∃ entries, disk.at? root = some (.folder entries)
  only : ∀ names node, disk.at? (root ++ names) = some node →
    (names = [] ∨ s.HasFolder names) ∧ (∃ entries, node = .folder entries) ∨
      ∃ bytes modified, (names, bytes) ∈ s.files ∧ node = .file bytes modified

namespace Fits

/-- What lies at the names of a file is the file. -/
theorem eq_file (h : s.Fits root disk) (hs : s.Proper) {file : List String × List UInt8}
    (hfile : file ∈ s.files) {node : DiskNode} (hnode : disk.at? (root ++ file.1) = some node) :
    ∃ modified, node = .file file.2 modified := by
  rcases h.only _ _ hnode with ⟨hfolder | hfolder, -⟩ | ⟨bytes, modified, hbytes, rfl⟩
  · exact absurd hfolder (hs.nonempty file hfile)
  · exact absurd hfolder (hs.apart file hfile)
  · exact ⟨modified, by rw [hs.bytes_eq hbytes hfile]⟩

theorem linkFreeAlong (h : s.Fits root disk) (names : List String) :
    disk.LinkFreeAlong (root ++ names) := by
  intro front hfront target hlink
  obtain ⟨entries, hfolder⟩ := h.folder
  rcases List.prefix_or_prefix_of_prefix hfront (List.prefix_append root names) with
    hway | ⟨rest, rfl⟩
  · exact DiskNode.linkFreeAlong_of_folder hfolder front hway target hlink
  · rcases h.only rest _ hlink with ⟨-, entries, heq⟩ | ⟨bytes, modified, -, heq⟩ <;> cases heq

/-- Nothing but folders lies on the way to a folder. -/
theorem clearAlong (h : s.Fits root disk) (hs : s.Proper)
    (hnames : names = [] ∨ s.HasFolder names) : disk.ClearAlong (root ++ names) := by
  intro front hfront node hnode
  obtain ⟨entries, hfolder⟩ := h.folder
  rcases List.prefix_or_prefix_of_prefix hfront (List.prefix_append root names) with
    ⟨rest, rfl⟩ | ⟨rest, rfl⟩
  · rw [DiskNode.at?_append, hnode, Option.bind_some] at hfolder
    cases rest with
    | nil => exact ⟨entries, Option.some.inj hfolder⟩
    | cons name rest => exact DiskNode.folder_of_at?_cons hfolder
  · have hrest : rest <+: names := (List.prefix_append_right_inj root).mp hfront
    rcases h.only rest _ hnode with ⟨-, hnode⟩ | ⟨bytes, modified, hbytes, -⟩
    · exact hnode
    · rcases hnames with rfl | hnames
      · exact absurd (List.prefix_nil.mp hrest) (hs.nonempty _ hbytes)
      · exact absurd (hnames.of_prefix hrest) (hs.apart _ hbytes)

/-- Building a folder, or a file, of the snapshot at its names leaves what fits. -/
theorem build (h : s.Fits root disk) {allowed : List UInt8 → Prop}
    (hbuilt : BuiltAt (root ++ names) allowed (some disk) after) (hafter : after.WellNamed)
    (hway : ∀ front, front <+: names → ∀ entries,
      after.at? (root ++ front) = some (.folder entries) → front = [] ∨ s.HasFolder front)
    (hfile : ∀ bytes, allowed bytes → (names, bytes) ∈ s.files) : s.Fits root after where
  wellNamed := hafter
  folder := by
    obtain ⟨entries, hentries⟩ := h.folder
    rcases hbuilt root with hsame | ⟨-, hfolder⟩ | ⟨-, hnot, -⟩
    · exact ⟨entries, hsame.trans hentries⟩
    · exact hfolder
    · exact absurd hentries (hnot entries)
  only := by
    intro path node hnode
    rcases hbuilt (root ++ path) with
      hsame | ⟨hpart, entries, hfolder⟩ | ⟨heq, -, bytes, modified, hallowed, hwritten⟩
    · exact h.only path node (hsame.symm.trans hnode)
    · have hpath : path <+: names := (List.prefix_append_right_inj root).mp hpart
      obtain rfl := Option.some.inj (hnode.symm.trans hfolder)
      exact .inl ⟨hway path hpath entries hfolder, entries, rfl⟩
    · obtain rfl := List.append_cancel_left heq
      obtain rfl := Option.some.inj (hnode.symm.trans hwritten)
      exact .inr ⟨bytes, modified, hfile bytes hallowed, rfl⟩

end Fits

/-- Where something has been built, nothing that was there is gone. -/
theorem isSome_of_builtAt {allowed : List UInt8 → Prop} {before : DiskNode} {path : List String}
    (hbuilt : BuiltAt names allowed (some before) after) (h : (before.at? path).isSome) :
    (after.at? path).isSome := by
  rcases hbuilt path with hsame | ⟨-, entries, hfolder⟩ | ⟨-, -, bytes, modified, -, hfile⟩
  · rw [hsame]
    exact h
  · rw [hfolder]
    rfl
  · rw [hfile]
    rfl

/-- What unpacking leaves: what fits, with all that was there before and at some names. -/
structure Extends (s : Snapshot) (root : List String) (disk after : DiskNode) : Prop where
  fits : s.Fits root after
  keeps : ∀ path, (disk.at? path).isSome → (after.at? path).isSome

theorem Extends.trans {middle : DiskNode} (hfirst : s.Extends root disk middle)
    (hlast : s.Extends root middle after) : s.Extends root disk after where
  fits := hlast.fits
  keeps path h := hlast.keeps path (hfirst.keeps path h)

namespace Fits

/-- The folders on the way to a folder of a snapshot can be made. -/
theorem exists_makeFolders (h : s.Fits root disk) (hs : s.Proper)
    (hroot : Possible root) (hrootNames : ∀ name ∈ root, IsName name)
    (hnames : names = [] ∨ s.HasFolder names) :
    ∃ made entries, disk.makeFolders (root ++ names) = (made, none) ∧
      s.Extends root disk made ∧ made.at? (root ++ names) = some (.folder entries) := by
  have hpossible : Possible (root ++ names) := by
    refine List.forall_mem_append.mpr ⟨hroot, ?_⟩
    rcases hnames with rfl | hnames
    · simp
    · exact hs.possible_of_hasFolder hnames
  have hnamed : ∀ name ∈ root ++ names, IsName name := by
    refine List.forall_mem_append.mpr ⟨hrootNames, ?_⟩
    rcases hnames with rfl | hnames
    · simp
    · exact hs.named_of_hasFolder hnames
  obtain ⟨made, entries, hmade, hat⟩ :=
    DiskNode.makeFolders_of_clear (h.clearAlong hs hnames) hpossible
  have hbuilt := DiskNode.builtAt_makeFolders (root ++ names) (fun _ => False) disk
  have hnamedMade := h.wellNamed.makeFolders hnamed
  rw [hmade] at hbuilt hnamedMade
  refine ⟨made, entries, hmade, ⟨h.build hbuilt hnamedMade ?_ ?_, ?_⟩, hat⟩
  · intro front hfront _ _
    rcases hnames with rfl | hnames
    · exact .inl (List.prefix_nil.mp hfront)
    · exact .inr (hnames.of_prefix hfront)
  · exact fun _ => False.elim
  · exact fun path hpath => isSome_of_builtAt hbuilt hpath

/-- A file of a snapshot can be written once its folder is there. -/
theorem exists_putFile (h : s.Fits root disk) (hs : s.Proper)
    (hrootNames : ∀ name ∈ root, IsName name) {file : List String × List UInt8}
    (hfile : file ∈ s.files) {entries : Entries}
    (hfolder : disk.at? (root ++ file.1.dropLast) = some (.folder entries)) :
    ∃ written, disk.putFile file.2 .zero (root ++ file.1) = .ok written ∧
      s.Extends root disk written ∧ (written.at? (root ++ file.1)).isSome := by
  have hlast := List.dropLast_concat_getLast (hs.nonempty file hfile)
  have hpath : root ++ file.1.dropLast ++ [file.1.getLast (hs.nonempty file hfile)] =
      root ++ file.1 := by
    rw [List.append_assoc, hlast]
  have hname := hs.possible file hfile _ (List.getLast_mem (hs.nonempty file hfile))
  have hclear : ∀ inner, disk.at? (root ++ file.1) ≠ some (.folder inner) := by
    intro inner hinner
    obtain ⟨modified, heq⟩ := h.eq_file hs hfile hinner
    cases heq
  obtain ⟨written, hwritten, hat⟩ :=
    DiskNode.putFile_of_clear file.2 .zero hfolder hname (hpath ▸ hclear)
  rw [hpath] at hwritten hat
  have hbuilt := DiskNode.builtAt_putFile (rfl : (· = file.2) file.2) hwritten
  have hnamed : written.WellNamed := by
    apply h.wellNamed.putFile _ hwritten
    exact List.forall_mem_append.mpr ⟨hrootNames, hs.named file hfile⟩
  refine ⟨written, hwritten, ⟨h.build hbuilt hnamed ?_ ?_, ?_⟩, by rw [hat]; rfl⟩
  · intro front hfront entries hentries
    refine .inr ⟨file, hfile, hfront, ?_⟩
    rintro rfl
    cases hat.symm.trans hentries
  · rintro bytes rfl
    exact hfile
  · exact fun path hsome => isSome_of_builtAt hbuilt hsome

/-- Putting a member of the snapshot where it belongs succeeds. -/
theorem exists_put (h : s.Fits root disk) (hs : s.Proper) (hroot : Possible root)
    (hrootNames : ∀ name ∈ root, IsName name) {top : String} {m : Member}
    (hm : s.IsMember top m) :
    ∃ after, m.put (root ++ m.names) disk = (after, none) ∧ s.Extends root disk after ∧
      ∀ bytes, m.kind = .file bytes → (after.at? (root ++ m.names)).isSome := by
  cases hm with
  | @file names bytes hfile hname hkind =>
      rw [names_of_ofString hname]
      have hparent : (root ++ names).dropLast = root ++ names.dropLast :=
        List.dropLast_append_of_ne_nil (hs.nonempty _ hfile)
      obtain ⟨made, entries, hmade, hextends, hat⟩ :=
        h.exists_makeFolders hs hroot hrootNames (.inr (hs.hasFolder_dropLast hfile))
      obtain ⟨written, hwritten, hfurther, hsome⟩ :=
        hextends.fits.exists_putFile hs hrootNames hfile hat
      refine ⟨written, ?_, hextends.trans hfurther, fun _ _ => hsome⟩
      simp only [Member.put, hkind, hparent, hmade, hwritten]
  | folder hfolder hname hkind =>
      rw [names_of_ofString hname]
      obtain ⟨made, entries, hmade, hextends, -⟩ :=
        h.exists_makeFolders hs hroot hrootNames hfolder
      refine ⟨made, ?_, hextends, ?_⟩
      · simp only [Member.put, hkind, hmade]
      · intro bytes hbytes
        rw [hkind] at hbytes
        cases hbytes

/-- A member of the snapshot belongs where its own names lead. -/
theorem resolve_eq (h : s.Fits root disk) (hs : s.Proper) (hrootNames : ∀ name ∈ root, IsName name)
    {top : String} {m : Member} (hm : s.IsMember top m) :
    disk.resolve (root ++ m.names) = .ok (root ++ m.names) := by
  have hnames : ∀ name ∈ m.names, IsName name := by
    cases hm with
    | file hfile hname hkind =>
        rw [names_of_ofString hname]
        exact hs.named _ hfile
    | folder hfolder hname hkind =>
        rw [names_of_ofString hname]
        rcases hfolder with rfl | hfolder
        · simp
        · exact hs.named_of_hasFolder hfolder
  have hall : ∀ name ∈ root ++ m.names, IsName name :=
    List.forall_mem_append.mpr ⟨hrootNames, hnames⟩
  apply DiskNode.resolve_of_linkFree (fun name hmem => (hall name hmem).null) _
    (h.linkFreeAlong m.names)
  exact fun hup => (hall _ hup).notUp rfl

/-- Unpacking members of the snapshot succeeds, and leaves all files among them. -/
theorem exists_unpack (h : s.Fits root disk) (hs : s.Proper) (hroot : Possible root)
    (hrootNames : ∀ name ∈ root, IsName name) {top : String} {members : List Member}
    (hmembers : ∀ m ∈ members, s.IsMember top m) :
    ∃ after, Archive.unpack root members disk = { disk := after } ∧ s.Extends root disk after ∧
      ∀ m ∈ members, ∀ bytes, m.kind = .file bytes → (after.at? (root ++ m.names)).isSome := by
  induction members generalizing disk with
  | nil => exact ⟨disk, rfl, ⟨h, fun _ hsome => hsome⟩, by simp⟩
  | cons m members ih =>
      obtain ⟨hm, hrest⟩ := List.forall_mem_cons.mp hmembers
      by_cases hempty : m.names = []
      · obtain ⟨after, hafter, hextends, hall⟩ := ih h hrest
        refine ⟨after, ?_, hextends, List.forall_mem_cons.mpr ⟨?_, hall⟩⟩
        · rw [Archive.unpack, hempty]
          exact hafter
        · intro bytes _
          obtain ⟨entries, hfolder⟩ := hextends.fits.folder
          rw [hempty, List.append_nil, hfolder]
          rfl
      · obtain ⟨put, hput, hfirst, hwritten⟩ := h.exists_put hs hroot hrootNames hm
        obtain ⟨after, hafter, hextends, hall⟩ := ih hfirst.fits hrest
        refine ⟨after, ?_, hfirst.trans hextends, List.forall_mem_cons.mpr ⟨?_, hall⟩⟩
        · have hinside : root.isPrefixOf (root ++ m.names) = true :=
            List.isPrefixOf_iff_prefix.mpr (List.prefix_append _ _)
          have hnames : m.names.isEmpty = false := by simpa using hempty
          rw [Archive.unpack, hnames, h.resolve_eq hs hrootNames hm]
          simp only [hinside, hput, hafter, if_true, Bool.false_eq_true, if_false]
        · exact fun bytes hbytes => hextends.keeps _ (hwritten bytes hbytes)

end Fits

/-- Whether a folder on a disk holds the files of a snapshot, and nothing else but their folders. -/
structure LiesAt (s : Snapshot) (root : List String) (disk : DiskNode) : Prop
    extends s.Fits root disk where
  files : ∀ file ∈ s.files, ∃ modified, disk.at? (root ++ file.1) = some (.file file.2 modified)

/-- An empty folder fits every snapshot. -/
theorem fits_of_empty (hdisk : disk.WellNamed) (hroot : disk.at? root = some (.folder [])) :
    s.Fits root disk where
  wellNamed := hdisk
  folder := ⟨[], hroot⟩
  only := by
    intro names node hnode
    rw [DiskNode.at?_append, hroot, Option.bind_some] at hnode
    cases names with
    | nil => exact .inl ⟨.inl rfl, [], (Option.some.inj hnode).symm⟩
    | cons name names => cases hnode

/-- Unpacking an archive of a snapshot into an empty folder leaves the snapshot there. -/
theorem exists_unpack_packed (hs : s.Proper) (hdisk : disk.WellNamed)
    (hempty : disk.at? root = some (.folder [])) (hroot : Possible root) {members : List Member}
    (hpacked : s.Packed members) :
    ∃ after, Archive.unpack root members disk = { disk := after } ∧ s.LiesAt root after := by
  obtain ⟨top, hmembers⟩ := hpacked.sound
  have hrootNames := (hdisk.of_at? hempty).1
  obtain ⟨after, hafter, hextends, hall⟩ :=
    (fits_of_empty hdisk hempty).exists_unpack hs hroot hrootNames hmembers
  refine ⟨after, hafter, hextends.fits, fun file hfile => ?_⟩
  obtain ⟨m, hm, hnames, hkind⟩ := hpacked.complete file hfile
  have hsome := hall m hm _ hkind
  rw [hnames] at hsome
  obtain ⟨node, hnode⟩ := Option.isSome_iff_exists.mp hsome
  obtain ⟨modified, rfl⟩ := hextends.fits.eq_file hs hfile hnode
  exact ⟨modified, hnode⟩

end Snapshot

end RepoAtlas
