import RepoAtlas.Hosting.Source
import RepoAtlas.Proofs.Disk.Build

/-!
Unpacking an archive changes nothing outside the folder it is unpacked into and
makes no link in it; so what is read from there is what the archive held.
-/
namespace RepoAtlas

open DiskNode (BuiltAt builtAt_makeFolders builtAt_putFile)

variable {root names : List String} {allowed : List UInt8 → Prop} {start disk after : DiskNode}

/--
Whether a disk came of another by changes within one folder, in which there are
no links, and no files but those with some bytes.
-/
structure Contained (root : List String) (allowed : List UInt8 → Prop)
    (start disk : DiskNode) : Prop where
  outside : ∀ path, ¬root <+: path → ¬path <+: root → disk.at? path = start.at? path
  folder : ∃ entries, disk.at? root = some (.folder entries)
  noLinks : ∀ path target, root <+: path → disk.at? path ≠ some (.link target)
  files : ∀ path bytes modified, root <+: path →
    disk.at? path = some (.file bytes modified) → allowed bytes

namespace Contained

/-- An empty folder holds no links and no files. -/
theorem of_empty (h : start.at? root = some (.folder [])) : Contained root allowed start start := by
  have hempty : ∀ path found, root <+: path → start.at? path = some found →
      found = .folder [] := by
    rintro path found ⟨rest, rfl⟩ hfound
    rw [DiskNode.at?_append, h, Option.bind_some] at hfound
    cases rest with
    | nil => exact (Option.some.inj hfound).symm
    | cons name rest => cases hfound
  refine ⟨fun _ _ _ => rfl, ⟨[], h⟩, ?_, ?_⟩
  · intro path target hpath hlink
    cases hempty path _ hpath hlink
  · intro path bytes modified hpath hfile
    cases hempty path _ hpath hfile

/-- Building at names in the folder, or on the way to it, keeps the changes within it. -/
theorem build (h : Contained root allowed start disk) (hnames : names <+: root ∨ root <+: names)
    (hbuilt : BuiltAt names allowed (some disk) after) : Contained root allowed start after where
  outside := by
    intro path hbelow habove
    rcases hbuilt path with hsame | ⟨hway, -⟩ | ⟨rfl, -⟩
    · exact hsame.trans (h.outside path hbelow habove)
    · rcases hnames with hnames | hnames
      · exact absurd (hway.trans hnames) habove
      · rcases List.prefix_or_prefix_of_prefix hway hnames with hpath | hpath
        · exact absurd hpath habove
        · exact absurd hpath hbelow
    · exact absurd hnames (not_or.mpr ⟨habove, hbelow⟩)
  folder := by
    rcases hbuilt root with hsame | ⟨-, hfolder⟩ | ⟨-, hnot, -⟩
    · obtain ⟨entries, hentries⟩ := h.folder
      exact ⟨entries, hsame.trans hentries⟩
    · exact hfolder
    · obtain ⟨entries, hentries⟩ := h.folder
      exact absurd hentries (hnot entries)
  noLinks := by
    intro path target hpath hlink
    rcases hbuilt path with hsame | ⟨-, entries, hfolder⟩ | ⟨-, -, bytes, modified, -, hfile⟩
    · exact h.noLinks path target hpath (hsame.symm.trans hlink)
    · rw [hfolder] at hlink
      cases hlink
    · rw [hfile] at hlink
      cases hlink
  files := by
    intro path bytes modified hpath hlies
    rcases hbuilt path with hsame | ⟨-, entries, hfolder⟩ | ⟨-, -, written, time, hwritten, hfile⟩
    · exact h.files path bytes modified hpath (hsame.symm.trans hlies)
    · rw [hfolder] at hlies
      cases hlies
    · rw [hfile] at hlies
      cases hlies
      exact hwritten

/-- Whatever becomes of putting a member at a place in the folder, it stays within it. -/
theorem put (h : Contained root allowed start disk) {m : Member} {target : List String}
    (htarget : root <+: target) (hallowed : ∀ bytes, m.kind = .file bytes → allowed bytes) :
    Contained root allowed start (m.put target disk).1 := by
  unfold Member.put
  cases hkind : m.kind with
  | other => exact h
  | folder => exact h.build (.inr htarget) (builtAt_makeFolders target allowed disk)
  | file bytes =>
      have hparent := List.prefix_or_prefix_of_prefix (List.dropLast_prefix target) htarget
      have hmade := h.build hparent (builtAt_makeFolders target.dropLast allowed disk)
      generalize disk.makeFolders target.dropLast = state at hmade
      obtain ⟨made, fault⟩ := state
      cases fault with
      | some fault => exact hmade
      | none =>
          simp only
          cases hwritten : made.putFile bytes .zero target with
          | error fault => exact hmade
          | ok written =>
              exact hmade.build (.inr htarget) (builtAt_putFile (hallowed bytes hkind) hwritten)

/-- Unpacking stays within the folder, also when it stops midway. -/
theorem unpack (h : Contained root allowed start disk) {members : List Member}
    (hallowed : ∀ m ∈ members, ∀ bytes, m.kind = .file bytes → allowed bytes) :
    Contained root allowed start (Archive.unpack root members disk).disk := by
  induction members generalizing disk with
  | nil => exact h
  | cons m members ih =>
      rw [List.forall_mem_cons] at hallowed
      rw [Archive.unpack]
      split
      · exact ih h hallowed.2
      · split
        · exact h
        · next target _ =>
            split
            · next htarget =>
                have hput := h.put (List.isPrefixOf_iff_prefix.mp htarget) hallowed.1
                generalize m.put target disk = state at hput
                obtain ⟨after, fault⟩ := state
                cases fault with
                | some fault => exact hput
                | none => exact ih hput hallowed.2
            · exact ih h hallowed.2

/-- No link lies on a path into the folder. -/
theorem linkFreeAlong (h : Contained root allowed start disk) (hnames : root <+: names) :
    disk.LinkFreeAlong names := by
  intro front hfront target hlink
  rcases List.prefix_or_prefix_of_prefix hfront hnames with hway | hinside
  · obtain ⟨entries, hentries⟩ := h.folder
    exact DiskNode.linkFreeAlong_of_folder hentries front hway target hlink
  · exact h.noLinks front target hinside hlink

/-- A text that is read from the folder is that of a file in it. -/
theorem readText (h : Contained root allowed start disk) {t : LocalTree} (hfolder : t.folder = root)
    {path text : String} (hread : t.readText disk path = .ok text) :
    ∃ bytes chars, allowed bytes ∧ Utf8.decode bytes = .ok chars ∧
      text = String.ofList (Text.universalNewlines chars) := by
  unfold LocalTree.readText at hread
  cases hresolve : disk.resolve (LocalTree.namesFrom t.folder path) with
  | error cause => simp [hresolve] at hread
  | ok names =>
      simp only [hresolve] at hread
      split at hread
      · next hinside =>
          rw [hfolder, List.isPrefixOf_iff_prefix] at hinside
          cases hbytes : disk.read names with
          | error fault => simp [hbytes] at hread
          | ok bytes =>
              obtain ⟨modified, hfile⟩ := DiskNode.at?_of_read
                (DiskNode.not_mem_of_resolve hresolve) (h.linkFreeAlong hinside) hbytes
              have hallowed := h.files names bytes modified hinside hfile
              cases hchars : Utf8.decode bytes with
              | error fault => simp [hbytes, hchars] at hread
              | ok chars =>
                  simp only [hbytes, hchars, Except.ok.injEq] at hread
                  exact ⟨bytes, chars, hallowed, hchars, hread.symm⟩
      · cases hread

end Contained

/-- A repository that has been opened stands where the path to it leads. -/
theorem LocalTree.resolve_of_openAt {current : List String} {shown : String}
    {excludes : List String} {coordinates : Option Coordinates} {t : LocalTree}
    (h : LocalTree.openAt disk current shown excludes coordinates = .ok t) :
    disk.resolve (LocalTree.namesFrom current shown) = .ok t.folder := by
  unfold LocalTree.openAt at h
  cases hresolve : disk.resolve (LocalTree.namesFrom current shown) with
  | error cause => simp [hresolve, bind, Except.bind] at h
  | ok folder =>
      simp only [hresolve, bind, Except.bind, pure, Except.pure] at h
      split at h
      · cases h
      · split at h
        · cases h
        · split at h
          · cases h
          · split at h
            · cases h
            · exact congrArg (fun tree => Except.ok (LocalTree.folder tree)) (Except.ok.inj h)

/-- Whether names are those of a path without links and steps upwards, which its text leads to. -/
structure IsRealPath (names : List String) : Prop where
  text : PurePath.ofString (DiskNode.pathText names) = ⟨"/", names⟩
  down : ".." ∉ names

/-- Whether bytes are those of a file among some members. -/
def HeldBy (members : List Member) (bytes : List UInt8) : Prop :=
  ∃ m ∈ members, m.kind = .file bytes

namespace HostAccess

variable {a : HostAccess} {s : HostedState}

/-- Whether the folder that an archive is unpacked into is there, under its own names. -/
structure HasScratch (a : HostAccess) : Prop where
  real : IsRealPath a.checkoutNames
  fresh : a.freshDisk.at? a.checkoutNames = some (.folder [])

theorem contained_unpack (h : a.HasScratch) (members : List Member) :
    Contained a.checkoutNames (HeldBy members) a.freshDisk
      (Archive.unpack a.checkoutNames members a.freshDisk).disk :=
  (Contained.of_empty h.fresh).unpack fun m hmem _ hkind => ⟨m, hmem, hkind⟩

/-- What is checked out is read as a folder: the one that the archive was unpacked into. -/
theorem checkOut_spec (h : a.HasScratch) {repository : Coordinates} {archive : List UInt8}
    {checkout : Checkout} (hout : (a.checkOut repository archive).value = .ok checkout) :
    ∃ members, a.members archive = some members ∧
      Contained a.checkoutNames (HeldBy members) a.freshDisk checkout.disk ∧
      checkout.tree.folder = a.checkoutNames := by
  unfold checkOut at hout
  cases hmembers : a.members archive with
  | none => simp [hmembers] at hout
  | some members =>
      have hcontained := a.contained_unpack h members
      simp only [hmembers] at hout
      split at hout
      · cases hout
      · split at hout
        · next tree hopen =>
            obtain rfl := Except.ok.inj hout
            have hresolve := LocalTree.resolve_of_openAt hopen
            have hnames : LocalTree.namesFrom [] (DiskNode.pathText a.checkoutNames) =
                a.checkoutNames := by
              rw [LocalTree.namesFrom, h.real.text]
              rfl
            rw [hnames] at hresolve
            have hfree := hcontained.linkFreeAlong List.prefix_rfl
            exact ⟨members, rfl, hcontained, DiskNode.eq_of_resolve h.real.down hfree hresolve⟩
        · cases hout

/-- A source is open when its archive has been downloaded and checked out. -/
theorem openSource_of_checkOut (hmode : s.mode = .archive) (hclosed : s.checkout = none)
    {archive : List UInt8} {checkout : Checkout}
    (hdownload : (a.online s fun c => c.downloadArchive s.repository).result = .ok archive)
    (hout : (a.checkOut s.repository archive).value = .ok checkout) :
    (a.openSource s).result = .ok () ∧ (a.openSource s).state.checkout = some checkout ∧
      (a.openSource s).state.mode = .archive := by
  unfold openSource openArchive
  simp only [hmode, hclosed, Option.isSome_none, Bool.false_eq_true, if_false, hdownload, hout]
  exact ⟨trivial, trivial, hmode⟩

/-- A source that has been opened holds what was checked out of the archive it downloaded. -/
theorem checkOut_of_openSource (hmode : s.mode = .archive) (hclosed : s.checkout = none)
    (hopen : (a.openSource s).result = .ok ()) :
    ∃ archive checkout,
      (a.online s fun c => c.downloadArchive s.repository).result = .ok archive ∧
      (a.checkOut s.repository archive).value = .ok checkout := by
  unfold openSource openArchive at hopen
  simp only [hmode, hclosed, Option.isSome_none, Bool.false_eq_true, if_false] at hopen
  cases hdownload : (a.online s fun c => c.downloadArchive s.repository).result with
  | error failure => simp [hdownload] at hopen
  | ok archive =>
      cases hout : (a.checkOut s.repository archive).value with
      | error failure => simp [hdownload, hout] at hopen
      | ok checkout => exact ⟨archive, checkout, rfl, hout⟩

end HostAccess

/--
Unpacking any members changes nothing on the disk outside the scratch folder and
makes no link in it, also when it stops midway. What is read from a source that
was opened on an archive is the text of a file in that archive.
-/
theorem archive_contained {a : HostAccess} (h : a.HasScratch) :
    (∀ members, Contained a.checkoutNames (HeldBy members) a.freshDisk
      (Archive.unpack a.checkoutNames members a.freshDisk).disk) ∧
    ∀ (s : HostedState) (path text : String), s.mode = .archive → s.checkout = none →
      (a.openSource s).result = .ok () → (a.read path (a.openSource s).state).result = .ok text →
      ∃ archive members bytes chars,
        (a.online s fun c => c.downloadArchive s.repository).result = .ok archive ∧
        a.members archive = some members ∧ HeldBy members bytes ∧
        Utf8.decode bytes = .ok chars ∧ text = String.ofList (Text.universalNewlines chars) := by
  refine ⟨a.contained_unpack h, ?_⟩
  intro s path text hmode hclosed hopen hread
  obtain ⟨archive, checkout, hdownload, hout⟩ :=
    HostAccess.checkOut_of_openSource hmode hclosed hopen
  obtain ⟨-, hstate, hstill⟩ :=
    HostAccess.openSource_of_checkOut hmode hclosed hdownload hout
  obtain ⟨members, hmembers, hcontained, hfolder⟩ := HostAccess.checkOut_spec h hout
  rw [HostAccess.read, hstate, hstill] at hread
  obtain ⟨bytes, chars, hheld, hchars, htext⟩ := hcontained.readText hfolder hread
  exact ⟨archive, members, bytes, chars, hdownload, hmembers, hheld, hchars, htext⟩

namespace SampleArchive

/-- A file, one that belongs outside, a link to a folder outside, and a file behind the link. -/
def members : List Member :=
  [⟨"top/a.ts", .file [0x61, 0x0d, 0x0a]⟩, ⟨"top/../../b", .file [0x62]⟩, ⟨"top/l", .other⟩,
    ⟨"top/l/b", .file [0x64]⟩]

/-- A disk on which there are other files, and a link that leads into the scratch folder. -/
def access : HostAccess where
  network := fun _ => .answered { status := 200 }
  members := fun _ => some members
  scratch := ["tmp", "s"]
  disk := .folder [("b", .file [0x63] .zero), ("tmp", .folder [("back", .link "s/checkout")])]

def source : HostedState where
  repository := ⟨"acme", "site", "main"⟩
  mode := .archive

/-- The disk with some entries in the folder of the archive. -/
def diskWith (entries : Entries) : DiskNode :=
  .folder [("b", .file [0x63] .zero), ("tmp", .folder [("back", .link "s/checkout"),
    ("s", .folder [("checkout", .folder entries)])])]

def unpacked : Entries :=
  [("a.ts", .file [0x61, 0x0d, 0x0a] .zero), ("l", .folder [("b", .file [0x64] .zero)])]

theorem hasScratch : access.HasScratch where
  real := ⟨by decide, by decide⟩
  fresh := rfl

theorem possible :
    ∀ name ∈ ["tmp", "s", "checkout", "a.ts", "l", "b", ".gitignore"], nameFault? name = none := by
  decide

theorem names_members :
    members.map Member.names = [["a.ts"], ["..", "..", "b"], ["l"], ["l", "b"]] := by
  decide

theorem unpack_members : (Archive.unpack access.checkoutNames members access.freshDisk) =
    { disk := diskWith unpacked, records := [Archive.skipped ⟨"top/../../b", .file [0x62]⟩] } := by
  have hnames := names_members
  simp only [members, List.map_cons, List.cons.injEq, List.map_nil, and_true] at hnames
  have hfresh : access.freshDisk = diskWith [] := rfl
  have hroot : access.checkoutNames = ["tmp", "s", "checkout"] := rfl
  rw [hfresh, hroot]
  simp [members, hnames, Archive.unpack, DiskNode.resolve, diskWith, DiskNode.replaceLinks,
    DiskNode.at?, DiskNode.child?, DiskNode.entries, Table.get?, DiskNode.normalNames, maxNesting,
    possible, Member.put, DiskNode.makeFolders, DiskNode.putFile, Table.set, Except.map, unpacked]

def tree : LocalTree where
  folder := access.checkoutNames
  coordinates := source.repository
  rules := []

theorem openAt_unpacked :
    LocalTree.openAt (diskWith unpacked) [] (DiskNode.pathText access.checkoutNames) []
      (some source.repository) = .ok tree := by
  have hnames : LocalTree.namesFrom [] (DiskNode.pathText access.checkoutNames) =
      ["tmp", "s", "checkout"] := by
    decide
  rw [LocalTree.openAt, hnames]
  simp [DiskNode.resolve, diskWith, DiskNode.replaceLinks, DiskNode.locate, DiskNode.follow,
    DiskNode.at?, DiskNode.child?, DiskNode.entries, Table.get?, DiskNode.normalNames, maxLinks,
    possible, DiskNode.hasPath, DiskNode.stat, DiskNode.isFolderAt, LocalTree.ignoreRules,
    unpacked, bind, Except.bind, Except.mapError, pure, Except.pure, IgnoreRule.ofPatterns, tree,
    HostAccess.checkoutNames, access]

theorem readText_unpacked : tree.readText (diskWith unpacked) "a.ts" = .ok "a\n" := by
  have hnames : LocalTree.namesFrom tree.folder "a.ts" = ["tmp", "s", "checkout", "a.ts"] := by
    decide
  have hchars : Utf8.decode [0x61, 0x0d, 0x0a] = .ok ['a', '\r', '\n'] := by decide
  have hfolder : tree.folder = ["tmp", "s", "checkout"] := rfl
  rw [LocalTree.readText, hnames, hfolder]
  simp [DiskNode.resolve, diskWith, DiskNode.replaceLinks, DiskNode.locate, DiskNode.follow,
    DiskNode.at?, DiskNode.child?, DiskNode.entries, Table.get?, DiskNode.normalNames, maxLinks,
    possible, DiskNode.read, DiskNode.stat, unpacked, hchars, Text.universalNewlines]

theorem download_source :
    (access.online source fun c => c.downloadArchive source.repository).result = .ok [] := by
  decide +kernel

theorem checkOut_source :
    (access.checkOut source.repository []).value = .ok ⟨diskWith unpacked, tree⟩ := by
  have hmembers : access.members [] = some members := rfl
  simp only [HostAccess.checkOut, hmembers, unpack_members, openAt_unpacked]

end SampleArchive

open SampleArchive in
/-- The file of an archive is read, and what belonged outside stays as it was. -/
theorem archive_contained_sample :
    access.HasScratch ∧ source.mode = .archive ∧ source.checkout = none ∧
      (access.openSource source).result = .ok () ∧
      (access.read "a.ts" (access.openSource source).state).result = .ok "a\n" ∧
      (∃ archive members bytes chars,
        (access.online source fun c => c.downloadArchive source.repository).result = .ok archive ∧
        access.members archive = some members ∧ HeldBy members bytes ∧
        Utf8.decode bytes = .ok chars ∧ "a\n" = String.ofList (Text.universalNewlines chars)) ∧
      (Archive.unpack access.checkoutNames members access.freshDisk).disk.at? ["b"] =
        access.freshDisk.at? ["b"] := by
  obtain ⟨hopen, hstate, hmode⟩ :=
    HostAccess.openSource_of_checkOut rfl rfl download_source checkOut_source
  have hread : (access.read "a.ts" (access.openSource source).state).result = .ok "a\n" := by
    rw [HostAccess.read, hstate, hmode]
    exact readText_unpacked
  have hcontained := archive_contained hasScratch
  refine ⟨hasScratch, rfl, rfl, hopen, hread, ?_, ?_⟩
  · exact hcontained.2 source "a.ts" "a\n" rfl rfl hopen hread
  · exact (hcontained.1 members).outside ["b"] (by decide) (by decide)

end RepoAtlas
