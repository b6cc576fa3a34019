import RepoAtlas.Proofs.Hosting.Checkout
import RepoAtlas.Proofs.Hosting.Online
import RepoAtlas.Proofs.Hosting.Provision
import RepoAtlas.Proofs.Http.Body
import RepoAtlas.Proofs.Text.Utf8

/-!
A hosting service that serves a snapshot: in its listing, file by file, and in an
archive. In each mode the source of the repository can be opened, listed and read.
-/
namespace RepoAtlas

open DiskNode (Possible)

namespace HostClient

variable {c : HostClient} {api : Bool} {address path : String}
  {params : Option (List (String × String))} {response : Response} {r : Coordinates}

/-- Whether what is asked for at an address is answered well, redirections followed. -/
structure Answers (c : HostClient) (api : Bool) (address : String)
    (params : Option (List (String × String))) (response : Response) : Prop where
  request : ∃ q, c.asked? api address params = some q ∧ (c.sent q).1 = .ok response
  status : response.status = 200

namespace Answers

theorem not_isError (h : c.Answers api address params response) : response.isError = false := by
  simp [Response.isError, h.status]

theorem outcome_get (h : c.Answers api address params response) (t : Traffic) :
    ∃ later, outcome (c.get api address params) t = (.ok (.ok response), later) := by
  obtain ⟨q, hasked, hsent⟩ := h.request
  have hget := outcome_get_of_some hasked t
  rw [hsent] at hget
  exact ⟨_, hget⟩

/-- An archive that is served is downloaded. -/
theorem outcome_downloadArchive (h : c.Answers true (c.archiveAddress r) none response)
    (t : Traffic) : (outcome (c.downloadArchive r) t).1 = .ok response.body := by
  rw [downloadArchive, outcome_bind, outcome_tell]
  simp only
  rw [outcome_bind]
  obtain ⟨later, hget⟩ := h.outcome_get _
  rw [hget]
  simp only [h.status, h.not_isError]
  rfl

/-- A file that is served by the mirror is read. -/
theorem outcome_readText (h : c.Answers false (c.rawAddress r path) none response)
    (t : Traffic) : (outcome (c.readText r path) t).1 = .ok response.text := by
  obtain ⟨later, hget⟩ := h.outcome_get t
  rw [readText, outcome_tryCatch, fetchRaw, outcome_bind, hget]
  simp only [h.not_isError]
  rfl

end Answers

/-- Whether an item of a listing tells of a file or a folder, be its texts loose or not. -/
structure Tells (item : Json) (entry : ListedEntry) : Prop where
  path : (item.get? "path").bind Json.text? = some entry.path
  kind : entry.type = .blob ∨ entry.type = .tree
  type : item.get? "type" = some (.str entry.type.label)
  url : ((item.get? "url").bind Json.text?).getD [] = entry.url

theorem Tells.ofJson_eq {item : Json} {entry : ListedEntry} (h : Tells item entry) :
    ListedEntry.ofJson item = .ok entry := by
  have hpath := h.path
  have htype := h.type
  have hurl := h.url
  cases item with
  | obj fields =>
      simp only [Json.get?] at hpath htype hurl
      obtain ⟨path, type, url⟩ := entry
      rcases h.kind with hkind | hkind <;> simp only at hkind <;> subst hkind <;>
        simp [ListedEntry.ofJson, hpath, htype, hurl, EntryKind.label]
  | _ => cases hpath

/-- Whether an item of a listing is the record of a file or a folder. -/
structure Describes (item : Json) (file : FileRecord) : Prop where
  path : item.get? "path" = some (.str file.path)
  kind : file.type = .blob ∨ file.type = .tree
  type : item.get? "type" = some (.str file.type.label)
  url : ((item.get? "url").bind Json.string?).getD "" = file.url

theorem Describes.exists_entry {item : Json} {file : FileRecord} (h : Describes item file) :
    ∃ entry, ListedEntry.ofJson item = .ok entry ∧ entry.shown = file := by
  have htells : Tells item ⟨.ofString file.path, file.type,
      ((item.get? "url").bind Json.text?).getD []⟩ :=
    ⟨by rw [h.path]; rfl, h.kind, h.type, rfl⟩
  refine ⟨_, htells.ofJson_eq, ?_⟩
  simp only [ListedEntry.shown, LooseText.shown_ofString, Json.shown_getD_text?, h.url]

theorem entriesOf_of_describes {items : List Json} {listed : List FileRecord}
    (h : List.Forall₂ Describes items listed) :
    ∃ entries, entriesOf items = .ok entries ∧ entries.map ListedEntry.shown = listed := by
  induction h with
  | nil => exact ⟨[], rfl, rfl⟩
  | cons hitem _ ih =>
      obtain ⟨entry, hentry, rfl⟩ := hitem.exists_entry
      obtain ⟨entries, hentries, rfl⟩ := ih
      refine ⟨entry :: entries, ?_, rfl⟩
      rw [entriesOf, hentry]
      simp only [hentries]
      rfl

/-- The listing in an answer is found. -/
theorem Answers.outcome_fetchListing
    (h : c.Answers true (c.treeAddress r) (some [("recursive", "1")]) response) {document : Json}
    (hdocument : response.json = .ok document) {items : List Json} {isCut : Bool}
    (hlisting : listingOf document = .ok (items, isCut)) {entries : List ListedEntry}
    (hentries : entriesOf items = .ok entries) (t : Traffic) :
    (outcome (c.fetchListing r) t).1 = .ok entries := by
  rw [fetchListing, outcome_bind, outcome_tell]
  simp only
  rw [outcome_bind]
  obtain ⟨later, hget⟩ := h.outcome_get _
  have hread (failure : Failure) : documentOf response failure = .ok document := by
    rw [documentOf, hdocument]
  rw [hget]
  simp only [h.status, h.not_isError]
  rw [if_neg (by decide), if_neg Bool.false_ne_true, outcome_bind, outcome_lift, hread]
  simp only
  rw [outcome_bind, outcome_lift, hlisting]
  simp only [hentries]
  cases isCut with
  | false => exact congrArg Prod.fst (outcome_lift _ _)
  | true =>
      rw [if_pos rfl, outcome_bind, outcome_tell]
      exact congrArg Prod.fst (outcome_lift _ _)

/-- The records of a listing are those of its entries. -/
theorem outcome_fetchTree (c : HostClient) (r : Coordinates) (t : Traffic) :
    (outcome (c.fetchTree r) t).1 =
      (outcome (c.fetchListing r) t).1.map (List.map ListedEntry.shown) := by
  rw [fetchTree, outcome_bind]
  generalize outcome (c.fetchListing r) t = found
  rcases found with ⟨_ | _, later⟩ <;> rfl

theorem Answers.outcome_fetchTree
    (h : c.Answers true (c.treeAddress r) (some [("recursive", "1")]) response) {document : Json}
    (hdocument : response.json = .ok document) {items : List Json} {isCut : Bool}
    (hlisting : listingOf document = .ok (items, isCut)) {listed : List FileRecord}
    (hitems : List.Forall₂ Describes items listed) (t : Traffic) :
    (outcome (c.fetchTree r) t).1 = .ok listed := by
  obtain ⟨entries, hentries, rfl⟩ := entriesOf_of_describes hitems
  rw [HostClient.outcome_fetchTree, h.outcome_fetchListing hdocument hlisting hentries]
  rfl

end HostClient

/-- The paths of the files among some records. -/
def blobPaths (files : List FileRecord) : List String :=
  (files.filter fun file => file.type == .blob).map FileRecord.path

theorem mem_blobPaths {files : List FileRecord} {path : String} :
    path ∈ blobPaths files ↔ ∃ file ∈ files, file.type = .blob ∧ file.path = path := by
  simp [blobPaths, and_assoc]

/-- A text in which all lines end alike. -/
def Text.withEqualLineEnds (text : String) : String :=
  String.ofList (Text.universalNewlines text.toList)

namespace Snapshot

variable {s : Snapshot}

/-- The paths of the files of a snapshot. -/
def paths (s : Snapshot) : List String :=
  s.files.map fun file => LocalTree.relative file.1

/-- The text of a file with some bytes. -/
def textOf (bytes : List UInt8) : String :=
  String.ofList (Utf8.decodeLossy bytes)

/-- Whether some holdings are those of a snapshot: the files that are shown, with texts in
some shape. -/
structure Holds (s : Snapshot) (shown : List String → Prop) (shape : String → String)
    (w : Holdings) : Prop where
  nodup : (blobPaths w.listed).Nodup
  mem_iff : ∀ path, path ∈ blobPaths w.listed ↔
    ∃ file ∈ s.files, path = LocalTree.relative file.1 ∧ shown file.1
  text : ∀ file ∈ s.files, w.text? (LocalTree.relative file.1) = some (shape (textOf file.2))

theorem Proper.split_relative (hs : s.Proper) {file : List String × List UInt8}
    (hfile : file ∈ s.files) : Text.splitOnChar '/' (LocalTree.relative file.1) = file.1 :=
  LocalTree.splitOnChar_relative (hs.nonempty file hfile) (hs.named file hfile)

/-- Files with one path are the same. -/
theorem Proper.eq_of_relative (hs : s.Proper) {file other : List String × List UInt8}
    (hfile : file ∈ s.files) (hother : other ∈ s.files)
    (heq : LocalTree.relative file.1 = LocalTree.relative other.1) : file = other := by
  have hnames : file.1 = other.1 := by
    rw [← hs.split_relative hfile, heq, hs.split_relative hother]
  exact List.inj_on_of_nodup_map hs.distinct hfile hother hnames

theorem Proper.nodup_paths (hs : s.Proper) : s.paths.Nodup :=
  (List.Nodup.of_map _ hs.distinct).map_on fun _ hfile _ hother heq =>
    hs.eq_of_relative hfile hother heq

variable {t : LocalTree} {disk : DiskNode}

theorem blobPaths_files (t : LocalTree) (disk : DiskNode) :
    blobPaths (t.files disk) =
      ((t.listing disk).filter fun l => !l.isFolder).map Listed.path := by
  rw [blobPaths, LocalTree.files, List.filter_map, List.map_map]
  have hkinds (l : Listed) : ((if l.isFolder then EntryKind.tree else .blob) == .blob) =
      !l.isFolder := by
    cases l.isFolder <;> rfl
  simp only [Function.comp_def, hkinds]

/-- In a folder where a snapshot lies, each file is listed once. -/
theorem LiesAt.nodup_blobPaths (h : s.LiesAt t.folder disk) : (blobPaths (t.files disk)).Nodup := by
  obtain ⟨entries, hfolder⟩ := h.folder
  rw [blobPaths_files]
  exact (LocalTree.nodup_paths hfolder (h.wellNamed.of_at? hfolder).2).sublist
    (List.filter_sublist.map Listed.path)

/-- In a folder where a snapshot lies, the files that are listed are those that are shown. -/
theorem LiesAt.mem_blobPaths_iff (h : s.LiesAt t.folder disk) (hs : s.Proper)
    (hrules : t.rules = s.rules) {path : String} :
    path ∈ blobPaths (t.files disk) ↔
      ∃ file ∈ s.files, path = LocalTree.relative file.1 ∧ s.Shown file.1 := by
  obtain ⟨entries, hfolder⟩ := h.folder
  have hlisted : path ∈ blobPaths (t.files disk) ↔ ⟨path, false⟩ ∈ t.listing disk := by
    rw [blobPaths_files, List.mem_map]
    constructor
    · rintro ⟨⟨shown, isFolder⟩, hl, rfl⟩
      obtain ⟨hmem, hkind⟩ := List.mem_filter.mp hl
      obtain rfl : isFolder = false := by simpa using hkind
      exact hmem
    · exact fun hmem => ⟨_, List.mem_filter.mpr ⟨hmem, rfl⟩, rfl⟩
  rw [hlisted, LocalTree.mem_listing_iff hfolder (h.wellNamed.of_at? hfolder).2,
    h.shows_iff hs hrules hfolder]
  constructor
  · rintro ⟨⟨bytes, hmem⟩, hshown⟩
    exact ⟨_, hmem, (Text.intercalate_splitOnChar path).symm, hshown⟩
  · rintro ⟨file, hmem, rfl, hshown⟩
    have hnames : Listed.names ⟨LocalTree.relative file.1, false⟩ = file.1 :=
      hs.split_relative hmem
    rw [hnames]
    exact ⟨⟨file.2, hmem⟩, hshown⟩

end Snapshot

theorem blobPaths_hosted (r : Coordinates) (files : List FileRecord) :
    blobPaths (files.map (HostAccess.hostedRecord r)) = blobPaths files := by
  rw [blobPaths, List.filter_map, List.map_map]
  rfl

namespace HostAccess

open Snapshot HostClient

variable {a : HostAccess} {r : Coordinates} {s : Snapshot}

/-- The client of a source that is not closed. -/
def openClient (a : HostAccess) : HostClient where
  settings := a.settings
  network := a.network

/-- Whether a service serves a snapshot: its listing, each of its files, and an archive of it. -/
structure Serves (a : HostAccess) (r : Coordinates) (s : Snapshot) : Prop where
  permitted : refusal? a.settings = none
  tree : ∃ response document items isCut listed,
    a.openClient.Answers true (a.openClient.treeAddress r) (some [("recursive", "1")]) response ∧
      response.json = .ok document ∧ HostClient.listingOf document = .ok (items, isCut) ∧
      List.Forall₂ Describes items listed ∧ (blobPaths listed).Perm s.paths
  raw : ∀ file ∈ s.files, ∃ response,
    a.openClient.Answers false (a.openClient.rawAddress r (LocalTree.relative file.1)) none
        response ∧
      Charset.ofContentType (response.header? "content-type") = .utf8 ∧ response.body = file.2
  archive : ∃ response members,
    a.openClient.Answers true (a.openClient.archiveAddress r) none response ∧
      a.members response.body = some members ∧ s.Packed members

/-- Whether there is a scratch folder into which an archive can be unpacked. -/
structure CanUnpack (a : HostAccess) : Prop extends a.HasScratch where
  wellNamed : a.freshDisk.WellNamed
  possible : Possible a.checkoutNames

theorem result_online (t : HostedState) {α : Type} (ask : HostClient → Online α) :
    (a.online t ask).result = (outcome (ask (a.client t)) {}).1 := rfl

theorem list_opened_remote (a : HostAccess) (r : Coordinates) :
    a.list (a.opened r .remote) = a.online (a.opened r .remote) fun c => c.fetchTree r := rfl

theorem read_opened_remote (a : HostAccess) (r : Coordinates) (path : String) :
    a.read path (a.opened r .remote) =
      a.online (a.opened r .remote) fun c => c.readText r path := rfl

/-- File by file, a source lists all files of a snapshot that is served. -/
theorem Serves.list_remote (h : a.Serves r s) :
    ∃ listed, (a.list (a.opened r .remote)).result = .ok listed ∧
      (blobPaths listed).Perm s.paths := by
  obtain ⟨response, document, items, isCut, listed, hanswers, hjson, hlisting, hitems, hpaths⟩ :=
    h.tree
  refine ⟨listed, ?_, hpaths⟩
  rw [list_opened_remote, result_online]
  exact hanswers.outcome_fetchTree hjson hlisting hitems {}

/-- File by file, a source reads each file of a snapshot that is served as it is. -/
theorem Serves.read_remote (h : a.Serves r s) {file : List String × List UInt8}
    (hfile : file ∈ s.files) :
    (a.read (LocalTree.relative file.1) (a.opened r .remote)).result = .ok (textOf file.2) := by
  obtain ⟨response, hanswers, hcharset, hbody⟩ := h.raw file hfile
  have htext : response.text = textOf file.2 := by
    rw [Response.text, hcharset, hbody]
    rfl
  rw [← htext, read_opened_remote, result_online]
  exact hanswers.outcome_readText {}

/-- What an archive of a snapshot leaves in the scratch folder is opened as a repository. -/
theorem checkOut_of_packed (hroom : a.CanUnpack) (hs : s.Proper)
    (hignore : ¬s.HasFolder [ignoreName]) {archive : List UInt8} {members : List Member}
    (hmembers : a.members archive = some members) (hpacked : s.Packed members) (r : Coordinates) :
    ∃ disk, (Archive.unpack a.checkoutNames members a.freshDisk).disk = disk ∧
      s.LiesAt a.checkoutNames disk ∧
      (a.checkOut r archive).value = .ok ⟨disk, ⟨a.checkoutNames, r, s.rules⟩⟩ := by
  obtain ⟨disk, hunpack, hlies⟩ :=
    exists_unpack_packed hs hroom.wellNamed hroom.fresh hroom.possible hpacked
  refine ⟨disk, by rw [hunpack], hlies, ?_⟩
  simp only [checkOut, hmembers, hunpack, hlies.openAt_eq_map hroom.real hroom.possible r,
    hlies.ignoreRules_eq hroom.possible hignore, Except.map]

theorem checkOut_of_failure {archive : List UInt8} {members : List Member}
    (hmembers : a.members archive = some members) {failure : Failure}
    (hfails : (Archive.unpack a.checkoutNames members a.freshDisk).failure = some failure)
    (r : Coordinates) : (a.checkOut r archive).value = .error failure := by
  simp only [checkOut, hmembers, hfails]

/-- An archive with a folder in place of the list of files to ignore is not checked out. -/
theorem checkOut_of_hasFolder (hroom : a.CanUnpack) (hs : s.Proper)
    (hignore : s.HasFolder [ignoreName]) {archive : List UInt8} {members : List Member}
    (hmembers : a.members archive = some members) (hpacked : s.Packed members) (r : Coordinates) :
    (a.checkOut r archive).value = .error (.unexpected
      (FileFault.isFolder.unexpected (DiskNode.pathText (a.checkoutNames ++ [ignoreName])))) := by
  obtain ⟨disk, hunpack, hlies⟩ :=
    exists_unpack_packed hs hroom.wellNamed hroom.fresh hroom.possible hpacked
  simp only [checkOut, hmembers, hunpack, hlies.openAt_eq_map hroom.real hroom.possible r,
    hlies.ignoreRules_of_hasFolder hroom.possible hignore, Except.map]

/-- A snapshot that is served can be opened as what its archive leaves. -/
theorem Serves.open_archive (h : a.Serves r s) (hroom : a.CanUnpack) (hs : s.Proper)
    (hignore : ¬s.HasFolder [ignoreName]) :
    ∃ archive members disk, a.members archive = some members ∧
      (Archive.unpack a.checkoutNames members a.freshDisk).disk = disk ∧
      s.LiesAt a.checkoutNames disk ∧
      (a.openSource (unopened r .archive)).result = .ok () ∧
      (a.opened r .archive).checkout = some ⟨disk, ⟨a.checkoutNames, r, s.rules⟩⟩ ∧
      (a.opened r .archive).mode = .archive := by
  obtain ⟨response, members, hanswers, hmembers, hpacked⟩ := h.archive
  obtain ⟨disk, hunpack, hlies, hout⟩ := checkOut_of_packed hroom hs hignore hmembers hpacked r
  have hclient : a.client (unopened r .archive) = a.openClient := rfl
  have hdownload : (a.online (unopened r .archive) fun c =>
      c.downloadArchive (unopened r .archive).repository).result = .ok response.body := by
    rw [result_online, hclient]
    exact hanswers.outcome_downloadArchive {}
  refine ⟨response.body, members, disk, hmembers, hunpack, hlies, ?_⟩
  rw [opened]
  exact openSource_of_checkOut rfl rfl hdownload hout

theorem list_of_checkout (a : HostAccess) {t : HostedState} {disk : DiskNode} {tree : LocalTree}
    (hmode : t.mode = .archive) (hcheckout : t.checkout = some ⟨disk, tree⟩) :
    (a.list t).result = .ok ((tree.files disk).map (hostedRecord t.repository)) := by
  rw [list, hmode, hcheckout]

/-- File by file, a source holds the whole snapshot. -/
theorem Serves.holds_remote (h : a.Serves r s) (hs : s.Proper) :
    s.Holds (fun _ => True) id (a.holdings r .remote) := by
  obtain ⟨listed, hlist, hpaths⟩ := h.list_remote
  refine ⟨?_, ?_, ?_⟩
  · rw [listed_holdings hlist]
    exact hpaths.nodup_iff.mpr hs.nodup_paths
  · intro path
    rw [listed_holdings hlist, hpaths.mem_iff, paths, List.mem_map]
    simp only [and_true, eq_comm]
  · intro file hfile
    exact text?_holdings (h.read_remote hfile)

/-- In an archive, a source holds the files that are shown, with equal line ends. -/
theorem Serves.holds_archive (h : a.Serves r s) (hroom : a.CanUnpack) (hs : s.Proper)
    (hignore : ¬s.HasFolder [ignoreName]) :
    s.Holds s.Shown Text.withEqualLineEnds (a.holdings r .archive) := by
  obtain ⟨-, -, disk, -, -, hlies, -, hcheckout, hmode⟩ := h.open_archive hroom hs hignore
  have hlist := list_of_checkout a hmode hcheckout
  refine ⟨?_, ?_, ?_⟩
  · rw [listed_holdings hlist, blobPaths_hosted]
    exact hlies.nodup_blobPaths (t := ⟨a.checkoutNames, r, s.rules⟩)
  · intro path
    rw [listed_holdings hlist, blobPaths_hosted]
    exact hlies.mem_blobPaths_iff (t := ⟨a.checkoutNames, r, s.rules⟩) hs rfl
  · intro file hfile
    obtain ⟨chars, hchars⟩ := hs.texts file hfile
    apply text?_holdings
    rw [read, hmode, hcheckout]
    simp only
    rw [LiesAt.readText_eq (t := ⟨a.checkoutNames, r, s.rules⟩) hlies hs hroom.possible hfile
      hchars, Text.withEqualLineEnds, textOf, Utf8.decodeLossy,
      Utf8.decodeLossyFrom_of_decodeFrom hchars, String.toList_ofList]

/-- A source that holds a snapshot, and can be opened and listed, offers it. -/
theorem holds_offers {mode : Mode} {shown : List String → Prop} {shape : String → String}
    (h : s.Holds shown shape (a.holdings r mode)) (hpermitted : refusal? a.settings = none)
    (hopen : (a.openSource (unopened r mode)).result = .ok ()) {listed : List FileRecord}
    (hlist : (a.list (a.opened r mode)).result = .ok listed) :
    a.source.Offers (.hosted r mode) r (a.holdings r mode) (unopened r mode).Like
      (a.opened r mode).Like := by
  apply offers_holdings hpermitted hopen hlist
  intro file hfile hblob
  have hmem : file.path ∈ blobPaths (a.holdings r mode).listed := by
    rw [listed_holdings hlist]
    exact mem_blobPaths.mpr ⟨file, hfile, hblob, rfl⟩
  obtain ⟨held, hheld, hpath, -⟩ := (h.mem_iff _).mp hmem
  have htext := h.text held hheld
  rw [← hpath, holdings] at htext
  cases hread : (a.read file.path (a.opened r mode)).result with
  | ok text => exact ⟨text, rfl⟩
  | error failure =>
      simp only [hread] at htext
      cases htext

/-- In each mode, a source offers what it holds of a snapshot that is served. -/
theorem Serves.offers (h : a.Serves r s) (hroom : a.CanUnpack) (hs : s.Proper)
    (hignore : ¬s.HasFolder [ignoreName]) (mode : Mode) :
    a.source.Offers (.hosted r mode) r (a.holdings r mode) (unopened r mode).Like
      (a.opened r mode).Like := by
  cases mode with
  | remote =>
      obtain ⟨listed, hlist, -⟩ := h.list_remote
      exact holds_offers (h.holds_remote hs) h.permitted rfl hlist
  | archive =>
      obtain ⟨-, -, disk, -, -, -, hopen, hcheckout, hmode⟩ := h.open_archive hroom hs hignore
      exact holds_offers (h.holds_archive hroom hs hignore) h.permitted hopen
        (list_of_checkout a hmode hcheckout)

end HostAccess

end RepoAtlas
