import RepoAtlas.Proofs.Graph.Order
import RepoAtlas.Proofs.Hosting.Service

/-!
The two modes of getting at a hosted repository. They agree on the files that an
archive shows, up to line ends, and store what they find in the same place.
-/
namespace RepoAtlas

open Snapshot (ignoreName textOf)

/-- A text without carriage returns has equal line ends. -/
theorem Text.withEqualLineEnds_eq_self {text : String} (h : '\r' ∉ text.toList) :
    withEqualLineEnds text = text := by
  have hchars : ∀ chars : List Char, '\r' ∉ chars → universalNewlines chars = chars := by
    intro chars hchars
    induction chars with
    | nil => rfl
    | cons c chars ih =>
        rw [List.mem_cons, not_or] at hchars
        rw [universalNewlines.eq_def]
        split
        · next heq => cases heq
        · next heq => exact absurd (List.cons.inj heq).1.symm hchars.1
        · next heq => exact absurd (List.cons.inj heq).1.symm hchars.1
        · next heq =>
            obtain ⟨rfl, rfl⟩ := List.cons.inj heq
            rw [ih hchars.2]
  rw [withEqualLineEnds, hchars _ h, String.ofList_toList]

/-- Whether the file at a path may be looked into, be it any file or a source file. -/
def isChoosable (allFiles : Bool) (path : String) : Bool :=
  !isExcluded path && (allFiles || isSourceFile path)

namespace Holdings

variable {w : Holdings} {s : AnalysisSettings} {allFiles : Bool}

/-- The paths of the files that are looked into. -/
def chosenPaths (w : Holdings) (s : AnalysisSettings) (allFiles : Bool) : List String :=
  (w.chosen s allFiles).map FileRecord.path

/-- The files that may be looked into are taken in the order of their ranks. -/
theorem chosenPaths_eq (w : Holdings) (s : AnalysisSettings) (allFiles : Bool) :
    w.chosenPaths s allFiles = limited s.maxFiles
      (((blobPaths w.listed).filter (isChoosable allFiles)).mergeSort
        fun path other => candidateRank path ≤ candidateRank other) := by
  have hselected : (AnalysisPlan.keptFiles w.listed).filter (isSelectable allFiles) =
      (w.listed.filter fun file => file.type == .blob).filter
        fun file => isChoosable allFiles file.path := by
    rw [AnalysisPlan.keptFiles, List.filter_filter, List.filter_filter]
    apply List.filter_congr
    intro file _
    rw [isSelectable, isChoosable]
    cases file.type == .blob <;> cases isExcluded file.path <;> simp
  have hpaths : (blobPaths w.listed).filter (isChoosable allFiles) =
      ((AnalysisPlan.keptFiles w.listed).filter (isSelectable allFiles)).map FileRecord.path := by
    rw [hselected, blobPaths, List.filter_map]
    rfl
  rw [chosenPaths, chosen, selectCandidates, map_limited, hpaths]
  apply congrArg
  apply List.map_mergeSort
  exact fun _ _ _ _ => rfl

/-- Under a limit that lets all files through, all that may be looked into is. -/
theorem chosenPaths_perm (allFiles : Bool)
    (h : LetsThrough s.maxFiles (blobPaths w.listed).length) :
    (w.chosenPaths s allFiles).Perm ((blobPaths w.listed).filter (isChoosable allFiles)) := by
  have hlength := List.length_filter_le (isChoosable allFiles) (blobPaths w.listed)
  rw [chosenPaths_eq, limited_of_letsThrough]
  · exact List.mergeSort_perm _ _
  · rw [List.length_mergeSort]
    intro n hn hpos
    have hcount := h n hn hpos
    omega

theorem foundIn_chosen (w : Holdings) (s : AnalysisSettings) (allFiles : Bool) :
    w.foundIn (w.chosen s allFiles) = (w.chosenPaths s allFiles).filterMap w.entityIn := by
  rw [foundIn, chosenPaths, List.filterMap_map]
  rfl

/-- What is found in different files is in different files. -/
theorem OfModules.nodup_files (h : w.OfModules) {paths : List String} (hpaths : paths.Nodup) :
    ((paths.filterMap w.entityIn).map Entity.file).Nodup := by
  have hfiles : (paths.filterMap w.entityIn).map Entity.file =
      paths.filter fun path => (w.entityIn path).isSome := by
    rw [List.map_filterMap, ← List.filterMap_eq_filter]
    apply List.filterMap_congr
    intro path _
    cases hentity : w.entityIn path with
    | none => simp [Option.guard, hentity]
    | some e =>
        obtain ⟨text, -, hfind⟩ := Option.bind_eq_some_iff.mp hentity
        rw [h] at hfind
        simp [Option.guard, hentity, (file_of_ofFile hfind).1]
  rw [hfiles]
  exact hpaths.filter _

end Holdings

namespace Snapshot

/-- Whether an archive shows the file of a snapshot at a path. -/
def ShowsPath (s : Snapshot) (path : String) : Prop :=
  s.Shown (Text.splitOnChar '/' path)

variable {s : Snapshot} {remote archive : Holdings} {settings : AnalysisSettings} {allFiles : Bool}

/-- What is looked into is shown and may be looked into, under a limit that lets all files
through. -/
theorem Holds.mem_chosenPaths_iff {w : Holdings} {shown : List String → Prop}
    {shape : String → String} (h : s.Holds shown shape w) (allFiles : Bool)
    (hlimit : LetsThrough settings.maxFiles s.files.length) :
    (w.chosenPaths settings allFiles).Nodup ∧
      ∀ path, path ∈ w.chosenPaths settings allFiles ↔
        (∃ file ∈ s.files, path = LocalTree.relative file.1 ∧ shown file.1) ∧
          isChoosable allFiles path = true := by
  have hsubset : blobPaths w.listed ⊆ s.paths := by
    intro path hpath
    obtain ⟨file, hfile, rfl, -⟩ := (h.mem_iff path).mp hpath
    exact List.mem_map_of_mem hfile
  have hcount : (blobPaths w.listed).length ≤ s.files.length := by
    have hlength := (h.nodup.subperm hsubset).length_le
    rwa [paths, List.length_map] at hlength
  have hperm := w.chosenPaths_perm (s := settings) allFiles fun n hn hpos =>
    (Int.ofNat_le.mpr hcount).trans (hlimit n hn hpos)
  refine ⟨hperm.nodup_iff.mpr (h.nodup.filter _), fun path => ?_⟩
  rw [hperm.mem_iff, List.mem_filter, h.mem_iff]

end Snapshot

/-- Whether all that remote mode looks into is shown in archives, and without carriage returns. -/
def Snapshot.Plain (s : Snapshot) (remote : Holdings) (settings : AnalysisSettings)
    (allFiles : Bool) : Prop :=
  ∀ path ∈ remote.chosenPaths settings allFiles,
    s.ShowsPath path ∧ ∀ text, remote.text? path = some text → '\r' ∉ text.toList

/-- Whether the same is found in two holdings, up to order. -/
structure SameFindings (w v : Holdings) (settings : AnalysisSettings) (allFiles : Bool) : Prop where
  candidates : (w.chosenPaths settings allFiles).Perm (v.chosenPaths settings allFiles)
  texts : ∀ path ∈ w.chosenPaths settings allFiles, v.text? path = w.text? path
  entities : Unambiguous (w.foundIn (w.chosen settings allFiles)) →
    SameEntities (w.findings settings allFiles).entities (v.findings settings allFiles).entities
  /-- Candidates in the same order make for the same entities in the same order. -/
  in_order : w.chosenPaths settings allFiles = v.chosenPaths settings allFiles →
    (w.findings settings allFiles).entities = (v.findings settings allFiles).entities

/--
How what the two modes hold of a snapshot goes together: archive mode looks into the
same files as remote mode, those apart that are not shown, and reads the same texts,
up to line ends.
-/
structure ModesAgree (s : Snapshot) (remote archive : Holdings) (settings : AnalysisSettings)
    (allFiles : Bool) : Prop where
  chosen_remote : ∀ path, path ∈ remote.chosenPaths settings allFiles ↔
    path ∈ s.paths ∧ isChoosable allFiles path = true
  chosen_archive : ∀ path, path ∈ archive.chosenPaths settings allFiles ↔
    path ∈ remote.chosenPaths settings allFiles ∧ s.ShowsPath path
  once : (remote.chosenPaths settings allFiles).Nodup ∧
    (archive.chosenPaths settings allFiles).Nodup
  texts : ∀ file ∈ s.files,
    remote.text? (LocalTree.relative file.1) = some (textOf file.2) ∧
      archive.text? (LocalTree.relative file.1) =
        some (Text.withEqualLineEnds (textOf file.2))
  same : s.Plain remote settings allFiles → SameFindings remote archive settings allFiles

section Agreement

variable {s : Snapshot} {remote archive : Holdings} {settings : AnalysisSettings} {allFiles : Bool}

/-- The same texts at the same paths hold the same entities. -/
theorem entityIn_eq_of_text?_eq {w v : Holdings} (hw : w.OfModules) (hv : v.OfModules)
    {path : String} (h : v.text? path = w.text? path) : v.entityIn path = w.entityIn path := by
  rw [Holdings.entityIn, Holdings.entityIn, h]
  congr 1
  funext text
  rw [hv, hw]

/-- The same is found where the same texts are read at the same paths. -/
theorem sameFindings_of_texts {w v : Holdings} (hw : w.OfModules) (hv : v.OfModules)
    (hnodup : (w.chosenPaths settings allFiles).Nodup)
    (hpaths : (w.chosenPaths settings allFiles).Perm (v.chosenPaths settings allFiles))
    (htexts : ∀ path ∈ w.chosenPaths settings allFiles, v.text? path = w.text? path) :
    SameFindings w v settings allFiles := by
  have hfound : v.foundIn (v.chosen settings allFiles) =
      (v.chosenPaths settings allFiles).filterMap w.entityIn := by
    rw [Holdings.foundIn_chosen]
    apply List.filterMap_congr
    exact fun path hpath =>
      entityIn_eq_of_text?_eq hw hv (htexts path (hpaths.mem_iff.mpr hpath))
  refine ⟨hpaths, htexts, fun hunambiguous => ?_, fun heq => ?_⟩
  · rw [Holdings.foundIn_chosen] at hunambiguous
    rw [Holdings.findings, Holdings.findings, hfound, Holdings.foundIn_chosen]
    exact resolve_of_perm (hpaths.filterMap _) (hw.nodup_files hnodup) hunambiguous
  · rw [Holdings.findings, Holdings.findings, hfound, Holdings.foundIn_chosen, heq]

/-- Holdings of one snapshot, whole and as an archive shows it, agree. -/
theorem modesAgree_of_holds (hs : s.Proper) (hremote : s.Holds (fun _ => True) id remote)
    (harchive : s.Holds s.Shown Text.withEqualLineEnds archive) (hmodules : remote.OfModules)
    (hothers : archive.OfModules) (hlimit : LetsThrough settings.maxFiles s.files.length) :
    ModesAgree s remote archive settings allFiles := by
  obtain ⟨hnodup, hchosen⟩ := hremote.mem_chosenPaths_iff allFiles hlimit
  obtain ⟨hnodup', hchosen'⟩ := harchive.mem_chosenPaths_iff allFiles hlimit
  have hchosen_archive : ∀ path, path ∈ archive.chosenPaths settings allFiles ↔
      path ∈ remote.chosenPaths settings allFiles ∧ s.ShowsPath path := by
    intro path
    rw [hchosen, hchosen']
    constructor
    · rintro ⟨⟨file, hfile, rfl, hshown⟩, hchoosable⟩
      refine ⟨⟨⟨file, hfile, rfl, trivial⟩, hchoosable⟩, ?_⟩
      rwa [Snapshot.ShowsPath, hs.split_relative hfile]
    · rintro ⟨⟨⟨file, hfile, rfl, -⟩, hchoosable⟩, hshows⟩
      rw [Snapshot.ShowsPath, hs.split_relative hfile] at hshows
      exact ⟨⟨file, hfile, rfl, hshows⟩, hchoosable⟩
  refine ⟨?_, hchosen_archive, ⟨hnodup, hnodup'⟩, ?_, ?_⟩
  · intro path
    rw [hchosen, Snapshot.paths, List.mem_map]
    simp only [and_true, eq_comm]
  · exact fun file hfile => ⟨hremote.text file hfile, harchive.text file hfile⟩
  · intro hplain
    have hpaths : ∀ path, path ∈ remote.chosenPaths settings allFiles ↔
        path ∈ archive.chosenPaths settings allFiles := by
      intro path
      rw [hchosen_archive]
      exact ⟨fun hpath => ⟨hpath, (hplain path hpath).1⟩, And.left⟩
    apply sameFindings_of_texts hmodules hothers hnodup
      ((List.perm_ext_iff_of_nodup hnodup hnodup').mpr hpaths)
    intro path hpath
    obtain ⟨⟨file, hfile, rfl, -⟩, -⟩ := (hchosen path).mp hpath
    have htext : remote.text? (LocalTree.relative file.1) = some (textOf file.2) :=
      hremote.text file hfile
    rw [htext, harchive.text file hfile,
      Text.withEqualLineEnds_eq_self ((hplain _ hpath).2 _ htext)]

end Agreement

/--
A request in some mode for a hosted repository of which the cache holds no record, or
is not asked for one, in a world that looks into files as usual and stores what it finds.
-/
structure FreshRequest (a : HostAccess) (r : Coordinates) (mode : Mode)
    (laws : WorldLaws HostedState) (plan : AnalysisPlan) (request : AnalysisRequest)
    (world : World HostedState) : Prop where
  source : laws.source = a.source
  examine : ∀ path text, laws.examine path text = .ok <$> Entity.ofFile path text
  cached : plan.cached = true
  location : Coordinates.ofLocation request.location request.branch = .ok r
  mode : AnalysisPlan.modeOf plan.settings request = .ok mode
  miss : request.useCache = true → (laws.cache.get laws.context.now
    (AnalysisPlan.cacheLocation r) r.branch world.folder).result = .ok none

/--
For a snapshot that is served as it is, a run in either mode stores, in one and the
same place of the cache, what is found in what the mode holds of the snapshot. What
the modes hold agrees: up to the files that an archive does not show, and line ends.
-/
theorem modes_agree_on_shown_files {a : HostAccess} {r : Coordinates} {s : Snapshot}
    (hs : s.Proper) (hserves : a.Serves r s) (hroom : a.CanUnpack)
    (hignore : ¬s.HasFolder [ignoreName]) :
    (∀ {mode : Mode} {laws : WorldLaws HostedState} {plan : AnalysisPlan}
      {request : AnalysisRequest} {world : World HostedState},
      FreshRequest a r mode laws plan request world →
      Keeps ((a.holdings r mode).findings plan.settings request.allFiles) r
        (Script.history laws.handler (plan.analyze request) world)) ∧
    ∀ settings allFiles, LetsThrough settings.maxFiles s.files.length →
      ModesAgree s (a.holdings r .remote) (a.holdings r .archive) settings allFiles := by
  constructor
  · intro mode laws plan request world h
    have hoffers := hserves.offers hroom hs hignore mode
    rw [← h.source] at hoffers
    exact AnalysisPlan.keeps_of_offers hoffers h.examine (a.ofModules_holdings r mode) h.cached
      h.location h.mode h.miss
  · intro settings allFiles hlimit
    exact modesAgree_of_holds hs (hserves.holds_remote hs)
      (hserves.holds_archive hroom hs hignore) (a.ofModules_holdings r .remote)
      (a.ofModules_holdings r .archive) hlimit

namespace SampleModes

open HostAccess

def repository : Coordinates := ⟨"acme", "site", "main"⟩

/-- A listing of the files of a snapshot. -/
def document (s : Snapshot) : Json :=
  .obj [("tree", .arr (s.paths.map fun path => .obj [("path", .str path), ("type", .str "blob")]))]

/-- What is answered at a path by a service and a mirror that have a snapshot. -/
def answer (s : Snapshot) (path : String) : Response :=
  if path = "/repos/acme/site/git/trees/main" then
    { status := 200, body := Utf8.encode (document s).compact }
  else if path = "/repos/acme/site/tarball/main" then { status := 200 }
  else
    match s.files.find? fun file => path == "/acme/site/main/" ++ LocalTree.relative file.1 with
    | some file => { status := 200, body := file.2 }
    | none => { status := 404 }

def members (s : Snapshot) : List Member :=
  s.files.map fun file => ⟨LocalTree.relative ("top" :: file.1), .file file.2⟩

def settings : HostSettings where
  apiBase := "http://api"
  rawBase := "http://raw"

def access (s : Snapshot) : HostAccess where
  settings
  network := fun q => .answered (answer s q.address.path)
  members := fun _ => some (members s)
  scratch := ["tmp", "s"]

def page : List UInt8 :=
  Utf8.encode "import { Card } from '../lib/b'\nexport default function Page() {}"

def card : List UInt8 :=
  Utf8.encode "export function Card() {}"

/-- A page and two components of one name, in the order in which a service lists them. -/
def plain : Snapshot where
  files := [(["app", "page.tsx"], page), (["lib", "a", "z.tsx"], card), (["lib", "b.tsx"], card)]

/-- A file with a carriage return, and one in a folder that is never listed. -/
def mixed : Snapshot where
  files := [(["b.ts"], [0x61, 0x0d, 0x0a]), (["coverage", "c.ts"], [0x62])]

/-- A file in a folder that takes the place of the list of files to ignore. -/
def ruled : Snapshot where
  files := [([ignoreName, "a.ts"], [0x61])]

def longName : String :=
  String.ofList (List.replicate 256 'a')

/-- A file with a name that no folder can hold. -/
def long : Snapshot where
  files := [([longName], [0x61])]

def samples : List Snapshot :=
  [plain, mixed]

theorem proper : ∀ s ∈ samples, s.Proper := by
  decide +kernel

theorem canUnpack (s : Snapshot) : (access s).CanUnpack := by
  have hnames : (access s).checkoutNames = ["tmp", "s", "checkout"] := rfl
  refine ⟨⟨?_, rfl⟩, ?_, ?_⟩
  · rw [hnames]
    exact ⟨by decide, by decide⟩
  · have hempty : (DiskNode.folder []).WellNamed := .folder (by simp) (by simp) (by simp)
    exact .single (by decide) (.single (by decide) (.single (by decide) hempty))
  · rw [hnames]
    decide

/-- Where the request for an address leads. -/
def pathAsked (s : Snapshot) (api : Bool) (address : String)
    (params : Option (List (String × String))) : Option String :=
  ((access s).openClient.asked? api address params).map fun q => q.address.path

theorem pathAsked_samples : ∀ s ∈ samples,
    pathAsked s true ((access s).openClient.treeAddress repository) (some [("recursive", "1")]) =
        some "/repos/acme/site/git/trees/main" ∧
      pathAsked s true ((access s).openClient.archiveAddress repository) none =
        some "/repos/acme/site/tarball/main" ∧
      ∀ file ∈ s.files,
        pathAsked s false ((access s).openClient.rawAddress repository
            (LocalTree.relative file.1)) none =
          some ("/acme/site/main/" ++ LocalTree.relative file.1) := by
  decide +kernel

theorem answer_samples : ∀ s ∈ samples, ∀ file ∈ s.files,
    ∃ response ∈ [answer s ("/acme/site/main/" ++ LocalTree.relative file.1)],
      response.status = 200 ∧ response.headers = [] ∧ response.body = file.2 := by
  decide +kernel

theorem answers {s : Snapshot} {api : Bool} {address path : String}
    {params : Option (List (String × String))}
    (hasked : pathAsked s api address params = some path)
    (hstatus : (answer s path).status = 200) :
    (access s).openClient.Answers api address params (answer s path) := by
  obtain ⟨q, hq, rfl⟩ := Option.map_eq_some_iff.mp hasked
  have hstays : (answer s q.address.path).redirection? = none := by
    simp [Response.redirection?, hstatus]
  have hnetwork : (access s).openClient.network q = .answered (answer s q.address.path) := rfl
  refine ⟨⟨q, hq, ?_⟩, hstatus⟩
  rw [HostClient.sent, Request.send.eq_def]
  simp only [hnetwork, hstays]

theorem readable_document (s : Snapshot) : Json.Readable Json.maxDepth (document s) := by
  have hitem (path : String) :
      Json.Readable 978 (.obj [("path", .str path), ("type", .str "blob")]) := by
    refine .obj (by simp) fun field hfield => ?_
    simp only [List.mem_cons, List.not_mem_nil, or_false] at hfield
    rcases hfield with rfl | rfl <;> exact .str _
  refine .obj (List.nodup_singleton _) fun field hfield => ?_
  obtain rfl := List.mem_singleton.mp hfield
  refine .arr fun item hmem => ?_
  obtain ⟨path, -, rfl⟩ := List.mem_map.mp hmem
  exact hitem path

/-- The records of the files of a snapshot, as a service lists them. -/
def records (s : Snapshot) : List FileRecord :=
  s.paths.map fun path => ⟨path, .blob, ""⟩

/-- What the service lists of a sample. -/
theorem tree_samples {s : Snapshot} (h : s ∈ samples) :
    ∃ response document items isCut,
      (access s).openClient.Answers true ((access s).openClient.treeAddress repository)
          (some [("recursive", "1")]) response ∧
        response.json = .ok document ∧ HostClient.listingOf document = .ok (items, isCut) ∧
        List.Forall₂ HostClient.Describes items (records s) := by
  have hbody : (answer s "/repos/acme/site/git/trees/main").body =
      Utf8.encode (document s).compact := by
    rw [answer, if_pos rfl]
  have hjson : (answer s "/repos/acme/site/git/trees/main").json = .ok (document s) :=
    Response.json_of_compact hbody (readable_document s)
  have hstatus : (answer s "/repos/acme/site/git/trees/main").status = 200 := by
    rw [answer, if_pos rfl]
  refine ⟨_, _, _, false, answers (pathAsked_samples s h).1 hstatus, hjson, rfl, ?_⟩
  rw [records, List.forall₂_map_left_iff, List.forall₂_map_right_iff, List.forall₂_same]
  exact fun path _ => ⟨rfl, .inl rfl, rfl, rfl⟩

theorem blobPaths_records (s : Snapshot) : blobPaths (records s) = s.paths := by
  rw [records, blobPaths, List.filter_map, List.map_map]
  simp [Function.comp_def]

theorem packed {s : Snapshot} (hnames : ∀ file ∈ s.files, ∀ name ∈ file.1, IsName name) :
    s.Packed (members s) := by
  have hpath : ∀ file ∈ s.files,
      PurePath.ofString (LocalTree.relative ("top" :: file.1)) = ⟨"", "top" :: file.1⟩ := by
    intro file hfile
    apply PurePath.ofString_intercalate (List.cons_ne_nil _ _)
    exact List.forall_mem_cons.mpr ⟨by decide, hnames file hfile⟩
  refine ⟨⟨"top", fun m hm => ?_⟩, fun file hfile => ?_⟩
  · obtain ⟨file, hfile, rfl⟩ := List.mem_map.mp hm
    exact .file hfile (hpath file hfile) rfl
  · exact ⟨_, List.mem_map_of_mem hfile, Snapshot.names_of_ofString (hpath file hfile), rfl⟩

theorem serves {s : Snapshot} (h : s ∈ samples) : (access s).Serves repository s := by
  obtain ⟨-, harchive, hraw⟩ := pathAsked_samples s h
  obtain ⟨response, document, items, isCut, hanswers, hjson, hlisting, hitems⟩ := tree_samples h
  have hpermitted : HostClient.refusal? settings = none := by decide
  refine ⟨hpermitted, ?_, ?_, ?_⟩
  · refine ⟨response, document, items, isCut, records s, hanswers, hjson, hlisting, hitems, ?_⟩
    rw [blobPaths_records]
  · intro file hfile
    obtain ⟨response, hmem, hstatus, hheaders, hbody⟩ := answer_samples s h file hfile
    obtain rfl := List.mem_singleton.mp hmem
    refine ⟨_, answers (hraw file hfile) hstatus, ?_, hbody⟩
    rw [Response.header?, hheaders]
    rfl
  · have hstatus : (answer s "/repos/acme/site/tarball/main").status = 200 := by
      rw [answer, if_neg (by decide), if_pos rfl]
    exact ⟨_, members s, answers harchive hstatus, rfl, packed (proper s h).named⟩


/-- What a mode holds of a sample. -/
def holdingsOf (s : Snapshot) (mode : Mode) : Holdings :=
  (access s).holdings repository mode

theorem not_hasFolder : ∀ s ∈ samples, ¬s.HasFolder [ignoreName] := by
  decide

theorem agree {s : Snapshot} (h : s ∈ samples) :
    ModesAgree s (holdingsOf s .remote) (holdingsOf s .archive) {} false := by
  have hs := proper s h
  have harchive := (serves h).holds_archive (canUnpack s) hs (not_hasFolder s h)
  exact modesAgree_of_holds hs ((serves h).holds_remote hs) harchive
    ((access s).ofModules_holdings repository .remote)
    ((access s).ofModules_holdings repository .archive) (fun _ hn => by cases hn)

theorem differ_mixed :
    "coverage/c.ts" ∈ (holdingsOf mixed .remote).chosenPaths {} false ∧
      "coverage/c.ts" ∉ (holdingsOf mixed .archive).chosenPaths {} false ∧
      "b.ts" ∈ (holdingsOf mixed .remote).chosenPaths {} false ∧
      (holdingsOf mixed .remote).text? "b.ts" = some "a\r\n" ∧
      (holdingsOf mixed .archive).text? "b.ts" = some "a\n" := by
  have hagree := agree (s := mixed) (by simp [samples])
  obtain ⟨hremote, harchive⟩ := hagree.texts (["b.ts"], [0x61, 0x0d, 0x0a]) List.mem_cons_self
  refine ⟨?_, ?_, ?_, hremote, harchive⟩
  · exact (hagree.chosen_remote _).mpr (by decide)
  · intro hchosen
    obtain ⟨-, hshown⟩ := (hagree.chosen_archive _).mp hchosen
    have hnames : Text.splitOnChar '/' "coverage/c.ts" = ["coverage", "c.ts"] := by decide
    rw [Snapshot.ShowsPath, hnames] at hshown
    have hfolder := hshown.folders ["coverage"] (by decide) (by decide) (by decide)
    exact absurd (hfolder.name "coverage" rfl) (by decide)
  · exact (hagree.chosen_remote _).mpr (by decide)

/-- The disk with some entries in the folder of the archive. -/
def diskWith (entries : Entries) : DiskNode :=
  .folder [("tmp", .folder [("s", .folder [("checkout", .folder entries)])])]

/-- What the archive of the page and the components leaves. -/
def unpacked : Entries :=
  [("app", .folder [("page.tsx", .file page .zero)]),
    ("lib", .folder [("a", .folder [("z.tsx", .file card .zero)]), ("b.tsx", .file card .zero)])]

theorem possible :
    ∀ name ∈ ["tmp", "s", "checkout", "app", "page.tsx", "lib", "a", "z.tsx", "b.tsx"],
      nameFault? name = none := by
  decide

theorem names_members : (members plain).map Member.names =
    [["app", "page.tsx"], ["lib", "a", "z.tsx"], ["lib", "b.tsx"]] := by
  decide

theorem unpack_plain :
    Archive.unpack (access plain).checkoutNames (members plain) (access plain).freshDisk =
      { disk := diskWith unpacked } := by
  have hnames := names_members
  simp only [members, plain, List.map_cons, List.cons.injEq, List.map_nil, and_true] at hnames
  have hfresh : (access plain).freshDisk = diskWith [] := rfl
  have hroot : (access plain).checkoutNames = ["tmp", "s", "checkout"] := rfl
  rw [hfresh, hroot]
  simp [members, plain, hnames, Archive.unpack, DiskNode.resolve, diskWith, DiskNode.replaceLinks,
    DiskNode.at?, DiskNode.child?, DiskNode.entries, Table.get?, DiskNode.normalNames, maxNesting,
    possible, Member.put, DiskNode.makeFolders, DiskNode.putFile, Table.set, Except.map, unpacked]

theorem listing_unpacked :
    LocalTree.listing ⟨(access plain).checkoutNames, repository, plain.rules⟩ (diskWith unpacked) =
      [⟨"app", true⟩, ⟨"lib", true⟩, ⟨"app/page.tsx", false⟩, ⟨"lib/a", true⟩,
        ⟨"lib/b.tsx", false⟩, ⟨"lib/a/z.tsx", false⟩] := by
  have hroot : (access plain).checkoutNames = ["tmp", "s", "checkout"] := rfl
  have hrules : plain.rules = [] := rfl
  rw [hroot, hrules]
  simp [LocalTree.listing, diskWith, unpacked, DiskNode.at?, DiskNode.child?, DiskNode.entries,
    Table.get?, LocalTree.listNode, LocalTree.listEntries, LocalTree.isHidden, hiddenFolders,
    hiddenFiles, shouldIgnore, LocalTree.relative, LocalTree.inOrder, mergeSort_pair]

theorem listed_remote : (holdingsOf plain .remote).listed = records plain := by
  obtain ⟨response, document, items, isCut, hanswers, hjson, hlisting, hitems⟩ :=
    tree_samples (s := plain) (by simp [samples])
  apply listed_holdings
  rw [list_opened_remote, result_online]
  exact hanswers.outcome_fetchTree hjson hlisting hitems {}

theorem blobPaths_archive : blobPaths (holdingsOf plain .archive).listed =
    ["app/page.tsx", "lib/b.tsx", "lib/a/z.tsx"] := by
  have hplain : plain ∈ samples := by simp [samples]
  obtain ⟨archive, found, disk, hmembers, hunpack, -, -, hcheckout, hmode⟩ :=
    (serves hplain).open_archive (canUnpack plain) (proper plain hplain)
      (not_hasFolder plain hplain)
  obtain rfl : members plain = found := Option.some.inj hmembers
  rw [unpack_plain] at hunpack
  subst hunpack
  rw [holdingsOf, listed_holdings (list_of_checkout _ hmode hcheckout), blobPaths_hosted,
    Snapshot.blobPaths_files, listing_unpacked]
  rfl

/-- Remote mode takes the components in another order than archive mode. -/
theorem chosenPaths_plain (limits : AnalysisSettings) :
    (holdingsOf plain .remote).chosenPaths limits false =
        limited limits.maxFiles ["app/page.tsx", "lib/a/z.tsx", "lib/b.tsx"] ∧
      (holdingsOf plain .archive).chosenPaths limits false =
        limited limits.maxFiles ["app/page.tsx", "lib/b.tsx", "lib/a/z.tsx"] := by
  have hchoosable : ∀ path ∈ ["app/page.tsx", "lib/a/z.tsx", "lib/b.tsx"],
      isChoosable false path = true := by
    decide
  have hranks : candidateRank "app/page.tsx" = 0 ∧ candidateRank "lib/a/z.tsx" = 8 ∧
      candidateRank "lib/b.tsx" = 8 := by
    decide
  have hremote : blobPaths (holdingsOf plain .remote).listed =
      ["app/page.tsx", "lib/a/z.tsx", "lib/b.tsx"] := by
    rw [listed_remote, blobPaths_records]
    rfl
  constructor
  · rw [Holdings.chosenPaths_eq, hremote, List.filter_eq_self.mpr hchoosable,
      List.mergeSort_of_pairwise]
    simp [hranks]
  · rw [Holdings.chosenPaths_eq, blobPaths_archive, List.filter_eq_self.mpr,
      List.mergeSort_of_pairwise]
    · simp [hranks]
    · intro path hpath
      apply hchoosable
      simpa [or_comm] using hpath

def pageFound : Entity where
  name := "Page"
  role := .page
  file := "app/page.tsx"
  uses := ["Card", "b", "B"]
  exports := ["Page"]
  content := textOf page

def cardFound (file : String) : Entity where
  name := "Card"
  role := .utility
  file
  exports := ["Card"]
  content := textOf card

theorem found_plain : (Entity.ofFile "app/page.tsx" (textOf page)).value = some pageFound ∧
    ∀ file ∈ ["lib/a/z.tsx", "lib/b.tsx"],
      (Entity.ofFile file (textOf card)).value = some (cardFound file) := by
  decide +kernel

theorem ends_plain : ∀ file ∈ plain.files, '\r' ∉ (textOf file.2).toList := by
  decide +kernel

/-- The texts of the sample are the same in both modes. -/
theorem text?_plain (mode : Mode) : ∀ file ∈ plain.files,
    (holdingsOf plain mode).text? (LocalTree.relative file.1) = some (textOf file.2) := by
  intro file hfile
  obtain ⟨hremote, harchive⟩ := (agree (s := plain) (by simp [samples])).texts file hfile
  cases mode with
  | remote => exact hremote
  | archive => rwa [Text.withEqualLineEnds_eq_self (ends_plain file hfile)] at harchive

theorem entityIn_plain (mode : Mode) :
    (holdingsOf plain mode).entityIn "app/page.tsx" = some pageFound ∧
      (holdingsOf plain mode).entityIn "lib/a/z.tsx" = some (cardFound "lib/a/z.tsx") ∧
      (holdingsOf plain mode).entityIn "lib/b.tsx" = some (cardFound "lib/b.tsx") := by
  obtain ⟨hpage, hcard⟩ := found_plain
  have hfind := (access plain).ofModules_holdings repository mode
  have htexts := text?_plain mode
  have hentity {path text : String} {e : Entity}
      (htext : (holdingsOf plain mode).text? path = some text)
      (hfound : (Entity.ofFile path text).value = some e) :
      (holdingsOf plain mode).entityIn path = some e := by
    rw [Holdings.entityIn, htext, Option.bind_some, holdingsOf, hfind, hfound]
  refine ⟨hentity ?_ hpage, hentity ?_ (hcard _ ?_), hentity ?_ (hcard _ ?_)⟩
  · exact htexts (["app", "page.tsx"], page) (by simp [plain])
  · exact htexts (["lib", "a", "z.tsx"], card) (by simp [plain])
  · simp
  · exact htexts (["lib", "b.tsx"], card) (by simp [plain])
  · simp

theorem entities_plain :
    ((holdingsOf plain .remote).findings {} false).entities =
        resolve [pageFound, cardFound "lib/a/z.tsx", cardFound "lib/b.tsx"] ∧
      ((holdingsOf plain .archive).findings {} false).entities =
        resolve [pageFound, cardFound "lib/b.tsx", cardFound "lib/a/z.tsx"] := by
  obtain ⟨hremote, harchive⟩ := chosenPaths_plain {}
  obtain ⟨hpage, hfar, hnear⟩ := entityIn_plain .remote
  obtain ⟨hpage', hfar', hnear'⟩ := entityIn_plain .archive
  constructor
  · rw [Holdings.findings, Holdings.foundIn_chosen, hremote]
    simp [limited, hpage, hfar, hnear]
  · rw [Holdings.findings, Holdings.foundIn_chosen, harchive]
    simp [limited, hpage', hfar', hnear']

/-- The component below another folder has a user in archive mode, but none in remote mode. -/
theorem not_sameEntities_plain :
    ¬SameEntities ((holdingsOf plain .remote).findings {} false).entities
      ((holdingsOf plain .archive).findings {} false).entities := by
  have hremote : cardFound "lib/a/z.tsx" ∈
      resolve [pageFound, cardFound "lib/a/z.tsx", cardFound "lib/b.tsx"] := by
    decide
  have harchive : ∀ e ∈ resolve [pageFound, cardFound "lib/b.tsx", cardFound "lib/a/z.tsx"],
      e.file = "lib/a/z.tsx" → e.usedBy = ["Page"] := by
    decide
  rw [entities_plain.1, entities_plain.2]
  intro hsame
  obtain ⟨e, hmem, halike⟩ := hsame.exists_alike hremote
  have hfile : e.file = "lib/a/z.tsx" := congrArg Entity.file halike.apart
  have husers := halike.users
  rw [harchive e hmem hfile] at husers
  exact absurd husers.length_eq (by decide)

theorem plain_plain : plain.Plain (holdingsOf plain .remote) {} false := by
  have hagree := agree (s := plain) (by simp [samples])
  obtain ⟨hremote, harchive⟩ := chosenPaths_plain {}
  intro path hpath
  constructor
  · apply ((hagree.chosen_archive path).mp _).2
    rw [hremote] at hpath
    rw [harchive]
    simpa [limited, or_comm] using hpath
  · intro text htext
    obtain ⟨hmem, -⟩ := (hagree.chosen_remote path).mp hpath
    obtain ⟨file, hfile, rfl⟩ := List.mem_map.mp hmem
    rw [text?_plain .remote file hfile] at htext
    obtain rfl := Option.some.inj htext
    exact ends_plain file hfile

/-- An archive with a folder in place of the list of files to ignore is not checked out. -/
theorem checkOut_ruled : ((access ruled).checkOut repository []).value.isOk = false := by
  have hs : ruled.Proper := by decide
  have hfolder : ruled.HasFolder [ignoreName] := by decide
  have hmembers : (access ruled).members [] = some (members ruled) := rfl
  rw [checkOut_of_hasFolder (canUnpack ruled) hs hfolder hmembers (packed hs.named) repository]
  rfl

/-- A file with a name that no folder can hold ends the unpacking of an archive. -/
theorem unpack_of_fault {name : String} {fault : FileFault} (hname : IsName name)
    (hfault : nameFault? name = some fault) (bytes : List UInt8) :
    (Archive.unpack (access ⟨[([name], bytes)]⟩).checkoutNames (members ⟨[([name], bytes)]⟩)
      (access ⟨[([name], bytes)]⟩).freshDisk).failure = some Archive.failed := by
  have hpath : PurePath.ofString (LocalTree.relative ["top", name]) = ⟨"", ["top", name]⟩ := by
    apply PurePath.ofString_intercalate (List.cons_ne_nil _ _)
    exact List.forall_mem_cons.mpr ⟨by decide, List.forall_mem_singleton.mpr hname⟩
  have hnames : Member.names ⟨LocalTree.relative ["top", name], .file bytes⟩ = [name] :=
    Snapshot.names_of_ofString hpath
  have hfresh : (access ⟨[([name], bytes)]⟩).freshDisk = diskWith [] := rfl
  have hroot : (access ⟨[([name], bytes)]⟩).checkoutNames = ["tmp", "s", "checkout"] := rfl
  rw [hfresh, hroot]
  simp [members, hnames, Archive.unpack, DiskNode.resolve, diskWith, DiskNode.replaceLinks,
    DiskNode.at?, DiskNode.child?, DiskNode.entries, Table.get?, DiskNode.normalNames, maxNesting,
    possible, Member.put, DiskNode.makeFolders, DiskNode.putFile, Table.set, Except.map, hfault,
    hname.null, hname.notUp]

theorem toList_longName : longName.toList = List.replicate 256 'a' :=
  String.toList_ofList

theorem isName_longName : IsName longName := by
  have hfirst : longName.toList.head? = some 'a' := by
    rw [toList_longName]
    rfl
  refine ⟨?_, ?_, ?_, ?_, ?_⟩
  · intro heq
    rw [heq] at hfirst
    cases hfirst
  · intro heq
    rw [heq] at hfirst
    exact absurd hfirst (by decide)
  · intro heq
    rw [heq] at hfirst
    exact absurd hfirst (by decide)
  · rw [toList_longName]
    exact fun hmem => absurd (List.eq_of_mem_replicate hmem) (by decide)
  · rw [toList_longName]
    exact fun hmem => absurd (List.eq_of_mem_replicate hmem) (by decide)

theorem nameFault?_longName : nameFault? longName = some .longName := by
  have hchar : Utf8.encodeChar 'a' = [0x61] := by decide
  have hnull : longName.toList.contains '\x00' = false := by
    rw [toList_longName, List.contains_replicate]
    rfl
  have hlength : maxNameBytes < (Utf8.encode longName).length := by
    rw [Utf8.encode, toList_longName, List.flatMap_replicate, hchar,
      List.flatten_replicate_singleton, List.length_replicate]
    decide
  rw [nameFault?, hnull, if_neg Bool.false_ne_true, if_pos hlength]

theorem checkOut_long : ((access long).checkOut repository []).value = .error Archive.failed :=
  checkOut_of_failure (rfl : (access long).members [] = some (members long))
    (unpack_of_fault isName_longName nameFault?_longName [0x61]) repository

/-- The first two files that may be looked into are not the same ones. -/
theorem chosenPaths_limited :
    "lib/a/z.tsx" ∈ (holdingsOf plain .remote).chosenPaths { maxFiles := some 2 } false ∧
      "lib/a/z.tsx" ∉ (holdingsOf plain .archive).chosenPaths { maxFiles := some 2 } false := by
  obtain ⟨hremote, harchive⟩ := chosenPaths_plain { maxFiles := some 2 }
  rw [hremote, harchive]
  decide

def request : AnalysisRequest where
  location := "acme/site"
  mode := some "archive"

def plan : AnalysisPlan := {}

def laws : WorldLaws HostedState where
  source := (access plain).source
  cache := { directory := ".cache/repos", ttl := .whole 60, maxBytes := 1000 }
  context := { now := .ofInt 1000, stamp := .ofInt 1000, temporary := ".tmp-x1.part" }

def world : World HostedState where
  source := default

theorem ofLocation_request :
    Coordinates.ofLocation request.location request.branch = .ok repository := by
  have hfound : Coordinates.ofLocation? "acme/site" (some "main") = some repository := by
    decide
  rw [Coordinates.ofLocation]
  simp only [request, hfound]

theorem freshRequest : FreshRequest (access plain) repository .archive laws plan request world where
  source := rfl
  examine _ _ := rfl
  cached := rfl
  location := ofLocation_request
  mode := rfl
  miss _ := rfl

/-- What archive mode finds in the page and the components is stored, and goes with remote mode. -/
theorem modes_agree_on_components :
    plain.Proper ∧ (access plain).Serves repository plain ∧ (access plain).CanUnpack ∧
      ¬plain.HasFolder [ignoreName] ∧
      FreshRequest (access plain) repository .archive laws plan request world ∧
      LetsThrough plan.settings.maxFiles plain.files.length ∧
      Keeps (((access plain).holdings repository .archive).findings plan.settings
          request.allFiles) repository
        (Script.history laws.handler (plan.analyze request) world) ∧
      ModesAgree plain ((access plain).holdings repository .remote)
        ((access plain).holdings repository .archive) plan.settings request.allFiles := by
  have hplain : plain ∈ samples := by simp [samples]
  have hs := proper plain hplain
  have hignore := not_hasFolder plain hplain
  have hlimit : LetsThrough plan.settings.maxFiles plain.files.length := fun _ hn => by cases hn
  obtain ⟨hkeeps, hagree⟩ :=
    modes_agree_on_shown_files hs (serves hplain) (canUnpack plain) hignore
  exact ⟨hs, serves hplain, canUnpack plain, hignore, freshRequest, hlimit, hkeeps freshRequest,
    hagree plan.settings request.allFiles hlimit⟩

/--
A file in a folder that is never listed is looked into in remote mode alone, and a
carriage return is read in remote mode alone. Where two components have one name, or
there is a limit, it matters in which order files are listed. Some archives are not
checked out at all.
-/
theorem modes_not_always_the_same :
    (∀ s ∈ samples, s.Proper ∧ (access s).Serves repository s ∧ (access s).CanUnpack ∧
      ¬s.HasFolder [ignoreName]) ∧
    ("coverage/c.ts" ∈ (holdingsOf mixed .remote).chosenPaths {} false ∧
      "coverage/c.ts" ∉ (holdingsOf mixed .archive).chosenPaths {} false ∧
      "b.ts" ∈ (holdingsOf mixed .remote).chosenPaths {} false ∧
      (holdingsOf mixed .remote).text? "b.ts" = some "a\r\n" ∧
      (holdingsOf mixed .archive).text? "b.ts" = some "a\n") ∧
    (plain.Plain (holdingsOf plain .remote) {} false ∧
      ¬SameEntities ((holdingsOf plain .remote).findings {} false).entities
        ((holdingsOf plain .archive).findings {} false).entities) ∧
    ("lib/a/z.tsx" ∈ (holdingsOf plain .remote).chosenPaths { maxFiles := some 2 } false ∧
      "lib/a/z.tsx" ∉ (holdingsOf plain .archive).chosenPaths { maxFiles := some 2 } false) ∧
    (ruled.Packed (members ruled) ∧
      ((access ruled).checkOut repository []).value.isOk = false) ∧
    (long.Packed (members long) ∧ ((access long).checkOut repository []).value.isOk = false) := by
  have hlong : ∀ file ∈ long.files, ∀ name ∈ file.1, IsName name := by
    simp [long, isName_longName]
  refine ⟨fun s hmem => ?_, differ_mixed, ⟨plain_plain, not_sameEntities_plain⟩,
    chosenPaths_limited, ⟨packed (by decide), checkOut_ruled⟩, packed hlong, ?_⟩
  · exact ⟨proper s hmem, serves hmem, canUnpack s, not_hasFolder s hmem⟩
  · rw [checkOut_long]
    rfl

end SampleModes

end RepoAtlas
