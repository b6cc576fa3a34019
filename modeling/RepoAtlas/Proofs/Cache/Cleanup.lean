import RepoAtlas.Proofs.Cache.Survival

/-!
What a folder holds after a record has been stored: the records in it count and
fit under the ceiling together, and all else is as it was.
-/
namespace RepoAtlas

/-- A record's own file is not nested too deeply. -/
theorem CacheRecord.not_nested_toBytes {record : CacheRecord} (h : record.Timed) :
    ¬Nested record.toBytes := by
  intro hnested
  have hdocument := document_toBytes h
  rcases document_cases record.toBytes with ⟨-, _, _, hcorrupt, -⟩ | ⟨hnot, -⟩ | ⟨hnot, -⟩
  · rw [hdocument] at hcorrupt
    cases hcorrupt
  · exact hnot hnested
  · exact hnot hnested

/-- The bytes that the files of records take together. -/
def RepoCache.storedBytes (c : RepoCache) (entries : Entries) : Int :=
  ((entries.filter fun entry => isRecordName entry.1).map fun entry =>
    (c.extentOf entry.1 entry.2).1).sum

/-- A folder as a disk holds it: each name stands once and is one that a folder can hold. -/
structure SoundFolder (entries : Entries) : Prop where
  distinct : (entries.map Prod.fst).Nodup
  possible : ∀ entry ∈ entries, nameFault? entry.1 = none

theorem SoundFolder.filter {entries : Entries} (h : SoundFolder entries)
    (p : String × DiskNode → Bool) : SoundFolder (entries.filter p) :=
  ⟨h.distinct.sublist (List.filter_sublist.map _),
    fun entry hmem => h.possible entry (List.mem_of_mem_filter hmem)⟩

/-- A folder in which what has the name of a record is a file that can be read. -/
structure LegibleFolder (entries : Entries) : Prop extends SoundFolder entries where
  files : FilesUnder (isRecordName · = true) entries
  legible : ∀ entry ∈ entries, isRecordName entry.1 = true →
    ∀ bytes modified, entry.2 = .file bytes modified → ¬CacheRecord.Nested bytes

namespace RepoCache

variable {c : RepoCache} {now : Binary64} {entries : Entries}

/-- Whether bytes are a document of this version that has not expired. -/
def holdsCurrent (c : RepoCache) (now : Binary64) (bytes : List UInt8) : Bool :=
  match CacheRecord.document bytes with
  | .ok document => CacheRecord.isCurrent c.version now document
  | .error _ => false

theorem holdsCurrent_toBytes {record : CacheRecord} (h : record.Timed) :
    c.holdsCurrent now record.toBytes =
      (record.version == c.version && now.lt record.expiresAt) := by
  rw [← record.isCurrent_toJson]
  simp only [holdsCurrent, CacheRecord.document_toBytes h]

/-- What is told about the file of a record. -/
def summaryOf (c : RepoCache) (now : Binary64) (entry : String × DiskNode) : RecordSummary where
  key := (PurePath.splitSuffix entry.1).1
  modified := (c.extentOf entry.1 entry.2).2
  size := (c.extentOf entry.1 entry.2).1
  valid := match entry.2 with
    | .file bytes _ => c.holdsCurrent now bytes
    | _ => false

theorem recordName_key_summaryOf {entry : String × DiskNode}
    (hname : isRecordName entry.1 = true) :
    recordName (c.summaryOf now entry).key = entry.1 :=
  recordName_of_isRecordName hname

/-- No record has to go where there is one that counts and fits. -/
theorem planEvictions_summaryOf {name : String} {bytes : List UInt8} {modified : Binary64}
    (hcounts : c.holdsCurrent now bytes = true) (hfits : (bytes.length : Int) ≤ c.maxBytes) :
    planEvictions c.maxBytes [c.summaryOf now (name, .file bytes modified)] = [] := by
  apply planEvictions_eq_nil
  · simpa [summaryOf] using hcounts
  · simpa [summaryOf, totalSize, extentOf] using hfits

theorem ne_parent_of_isRecordName {name : String} (hname : isRecordName name = true) :
    name ≠ ".." := by
  rw [← recordName_of_isRecordName hname]
  exact recordName_ne_parent _

theorem summary?_of_file {name : String} (hname : isRecordName name = true)
    (hpossible : nameFault? name = none) {bytes : List UInt8} {modified : Binary64}
    (hget : Table.get? name entries = some (.file bytes modified))
    (hlegible : ¬CacheRecord.Nested bytes) :
    c.summary? now entries name = .ok (some (c.summaryOf now (name, .file bytes modified))) := by
  have hstat := stat_of_file (ne_parent_of_isRecordName hname) hpossible hget
  rw [summary?, hstat]
  rcases CacheRecord.document_cases bytes with
    ⟨hnested, -⟩ | ⟨-, corrupt, hdocument, hdeep⟩ | ⟨-, v, hdocument⟩
  · exact absurd hnested hlegible
  · simp only [hdocument, hdeep, summaryOf, holdsCurrent]
  · simp only [hdocument, summaryOf, holdsCurrent]

/-- Whether some summaries tell about each record of a folder once. -/
def TellsAll (c : RepoCache) (now : Binary64) (entries : Entries)
    (found : List RecordSummary) : Prop :=
  found.Perm ((entries.filter fun entry => isRecordName entry.1).map (c.summaryOf now))

theorem summaries_tellsAll (c : RepoCache) (now : Binary64) (h : LegibleFolder entries) :
    ∃ found, c.summaries now entries = .ok found ∧ c.TellsAll now entries found := by
  have hsummary : ∀ name ∈ recordNames entries, c.summary? now entries name =
      .ok (some (c.summaryOf now (name, (Table.get? name entries).getD default))) := by
    intro name hmem
    obtain ⟨hin, hname⟩ := List.mem_filter.mp (List.mem_mergeSort.mp hmem)
    obtain ⟨⟨name, node⟩, hentry, rfl⟩ := List.mem_map.mp hin
    obtain ⟨bytes, modified, hnode⟩ := h.files _ hentry hname
    obtain rfl : node = .file bytes modified := hnode
    have hget := (Table.get?_eq_some_iff h.distinct).mpr hentry
    rw [summary?_of_file hname (h.possible _ hentry) hget (h.legible _ hentry hname _ _ rfl), hget]
    rfl
  have hall := mapM_ok (f := id) hsummary
  rw [List.map_id] at hall
  refine ⟨(recordNames entries).map fun name =>
    c.summaryOf now (name, (Table.get? name entries).getD default), ?_, ?_⟩
  · rw [summaries, hall]
    refine congrArg Except.ok ?_
    simp
  · have hnames : (recordNames entries).Perm
        ((entries.filter fun entry => isRecordName entry.1).map Prod.fst) := by
      rw [recordNames, List.filter_map]
      exact List.mergeSort_perm _ _
    refine (hnames.map _).trans (List.Perm.of_eq ?_)
    rw [List.map_map]
    refine List.map_congr_left fun entry hmem => ?_
    have hget := (Table.get?_eq_some_iff h.distinct).mpr (List.mem_of_mem_filter hmem)
    simp only [Function.comp_apply, hget, Option.getD_some]

namespace TellsAll

variable {found : List RecordSummary}

theorem mem_iff (h : c.TellsAll now entries found) {s : RecordSummary} :
    s ∈ found ↔ ∃ entry ∈ entries, isRecordName entry.1 = true ∧ c.summaryOf now entry = s := by
  rw [List.Perm.mem_iff h, List.mem_map]
  simp only [List.mem_filter, and_assoc]

/-- The keys of the records of a folder are distinct, as their names are. -/
theorem nodup_keys (h : c.TellsAll now entries found) (hsound : SoundFolder entries) :
    (found.map RecordSummary.key).Nodup := by
  rw [(h.map RecordSummary.key).nodup_iff]
  apply List.Nodup.of_map recordName
  have hnames : ((((entries.filter fun entry => isRecordName entry.1).map
      (c.summaryOf now)).map RecordSummary.key).map recordName) =
        (entries.filter fun entry => isRecordName entry.1).map Prod.fst := by
    rw [List.map_map, List.map_map]
    exact List.map_congr_left fun entry hmem =>
      recordName_key_summaryOf (List.mem_filter.mp hmem).2
  rw [hnames]
  exact hsound.distinct.sublist (List.filter_sublist.map _)

end TellsAll

/-- Whether the file of a record stays when a folder is cleaned up by a choice of keys. -/
def keeps (doomed : List String) (entry : String × DiskNode) : Bool :=
  !(isRecordName entry.1 && doomed.contains (PurePath.splitSuffix entry.1).1)

/-- Cleaning up a folder takes away the files of the chosen records. -/
theorem evict_eq (c : RepoCache) (now : Binary64) (h : LegibleFolder entries) :
    ∃ found reports, c.evict now entries =
        .ok (entries.filter (keeps (planEvictions c.maxBytes found)), reports) ∧
      c.TellsAll now entries found := by
  obtain ⟨found, hfound, htells⟩ := summaries_tellsAll c now h
  have hnames : ∀ key ∈ (planEvictions c.maxBytes found).mergeSort fun a b => a ≤ b,
      isRecordName (recordName key) = true := by
    intro key hmem
    obtain ⟨s, hs, rfl⟩ := exists_of_mem_planEvictions (List.mem_mergeSort.mp hmem)
    obtain ⟨entry, -, hrecord, rfl⟩ := htells.mem_iff.mp hs
    rwa [recordName_key_summaryOf hrecord]
  have hkept : (fun entry : String × DiskNode =>
      !(((planEvictions c.maxBytes found).mergeSort fun a b => a ≤ b).map
        recordName).contains entry.1) = keeps (planEvictions c.maxBytes found) := by
    funext entry
    refine congrArg not ?_
    rw [Bool.eq_iff_iff, Bool.and_eq_true, List.contains_iff_mem, List.contains_iff_mem,
      List.mem_map]
    constructor
    · rintro ⟨key, hkey, hname⟩
      have hrecord : isRecordName entry.1 = true := hname ▸ hnames key hkey
      have hstem := recordName_inj (hname.trans (recordName_of_isRecordName hrecord).symm)
      exact ⟨hrecord, hstem ▸ List.mem_mergeSort.mp hkey⟩
    · rintro ⟨hrecord, hdoomed⟩
      exact ⟨_, List.mem_mergeSort.mpr hdoomed, recordName_of_isRecordName hrecord⟩
  have hleft := h.files.foldl_evictOne_fst c _ hnames []
  rw [hkept] at hleft
  have hevict : c.evict now entries = .ok (((planEvictions c.maxBytes found).mergeSort
      fun a b => a ≤ b).foldl c.evictOne (entries, [])) := by
    rw [evict, hfound]
    rfl
  rw [hevict]
  generalize ((planEvictions c.maxBytes found).mergeSort
    fun a b => a ≤ b).foldl c.evictOne (entries, []) = state at hleft
  obtain ⟨left, reports⟩ := state
  exact ⟨found, reports, congrArg (fun rest => Except.ok (rest, reports)) hleft, htells⟩

theorem keeps_of_not_record (doomed : List String) {entry : String × DiskNode}
    (hname : isRecordName entry.1 = false) : keeps doomed entry = true := by
  rw [keeps, hname]
  rfl

theorem keeps_of_record (c : RepoCache) (now : Binary64) (doomed : List String)
    {entry : String × DiskNode} (hname : isRecordName entry.1 = true) :
    keeps doomed entry = !doomed.contains (c.summaryOf now entry).key := by
  rw [keeps, hname]
  rfl

namespace TellsAll

variable {found : List RecordSummary}

/-- The records that stay take as much as what was told about them says. -/
theorem storedBytes_filter_keeps (h : c.TellsAll now entries found) (doomed : List String) :
    c.storedBytes (entries.filter (keeps doomed)) =
      totalSize (found.filter fun s => !doomed.contains s.key) := by
  have hkept : (entries.filter (keeps doomed)).filter (fun entry => isRecordName entry.1) =
      (entries.filter fun entry => isRecordName entry.1).filter fun entry =>
        !doomed.contains (c.summaryOf now entry).key := by
    rw [List.filter_comm]
    exact List.filter_congr fun entry hmem =>
      keeps_of_record c now doomed (List.mem_filter.mp hmem).2
  rw [totalSize_eq_of_perm (List.Perm.filter _ h), List.filter_map, storedBytes, hkept, totalSize,
    List.map_map]
  rfl

/-- What the file of a record that stays holds counts. -/
theorem valid_of_kept (h : c.TellsAll now entries found) {entry : String × DiskNode}
    (hmem : entry ∈ entries.filter (keeps (planEvictions c.maxBytes found)))
    (hname : isRecordName entry.1 = true) : (c.summaryOf now entry).valid = true := by
  obtain ⟨hentry, hkept⟩ := List.mem_filter.mp hmem
  have hfound : c.summaryOf now entry ∈ found := h.mem_iff.mpr ⟨entry, hentry, hname, rfl⟩
  rw [keeps_of_record c now _ hname] at hkept
  apply valid_of_not_mem_planEvictions hfound
  simpa using hkept

/-- The newest record stays if it counts and fits on its own. -/
theorem newest_mem_kept (h : c.TellsAll now entries found) (hsound : SoundFolder entries)
    {entry : String × DiskNode} (hmem : entry ∈ entries) (hname : isRecordName entry.1 = true)
    (hvalid : (c.summaryOf now entry).valid = true)
    (hnewest : ∀ other ∈ entries, isRecordName other.1 = true → other.1 ≠ entry.1 →
      (c.extentOf other.1 other.2).2.lt (c.extentOf entry.1 entry.2).2 = true)
    (hfits : (c.extentOf entry.1 entry.2).1 ≤ c.maxBytes) :
    entry ∈ entries.filter (keeps (planEvictions c.maxBytes found)) := by
  have hfound : c.summaryOf now entry ∈ found := h.mem_iff.mpr ⟨entry, hmem, hname, rfl⟩
  have hlast := dropWhile_inOrderOfGoing (h.nodup_keys hsound) hfound hvalid (by
    intro told htold _ hkey
    obtain ⟨other, hother, hrecord, rfl⟩ := h.mem_iff.mp htold
    apply hnewest other hother hrecord
    intro heq
    exact hkey (congrArg (fun name => (PurePath.splitSuffix name).1) heq))
  have hkept : (c.summaryOf now entry).key ∉ planEvictions c.maxBytes found := by
    apply not_mem_planEvictions
    · intro told htold hkey
      obtain rfl := List.inj_on_of_nodup_map (h.nodup_keys hsound) htold hfound hkey
      exact hvalid
    · change totalSize ((inOrderOfGoing found).dropWhile fun told =>
        told.key != (c.summaryOf now entry).key) ≤ c.maxBytes
      rw [hlast]
      simpa [totalSize, summaryOf] using hfits
  rw [List.mem_filter, keeps_of_record c now _ hname]
  exact ⟨hmem, by simpa using hkept⟩

end TellsAll

/--
Whether a record is stored without trouble, in a folder where all that has the
name of a record is a file and every other one is older.
-/
structure StoresNewest (c : RepoCache) (context : PutContext) (record : CacheRecord)
    (folder : CacheFolder) (before : Entries) : Prop where
  folder : folder.make = .ok before
  sound : SoundFolder before
  files : FilesUnder (isRecordName · = true) before
  untroubled : ∀ step, context.trouble step = none
  temporary : ∃ tag, context.temporary = ".tmp-" ++ tag ++ ".part"
  fresh : context.temporary ∉ before.map Prod.fst
  newest : ∀ entry ∈ before, isRecordName entry.1 = true → entry.1 ≠ recordName record.key →
    (c.extentOf entry.1 entry.2).2.lt context.stamp = true

/-- Whether the other records of a folder can be read: none is nested too deeply. -/
def LegibleBeside (record : CacheRecord) (before : Entries) : Prop :=
  ∀ entry ∈ before, isRecordName entry.1 = true → entry.1 ≠ recordName record.key →
    ∀ bytes modified, entry.2 = .file bytes modified → ¬CacheRecord.Nested bytes

/-- What a folder holds after a record has been stored in it. -/
structure CleanedUp (c : RepoCache) (context : PutContext) (record : CacheRecord)
    (before left : Entries) : Prop where
  current : ∀ entry ∈ left, isRecordName entry.1 = true → ∃ bytes modified,
    entry.2 = .file bytes modified ∧ c.holdsCurrent context.now bytes = true
  ceiling : c.storedBytes left ≤ c.maxBytes
  older : ∀ entry ∈ left, entry.1 ≠ recordName record.key → entry ∈ before
  others : ∀ name, isRecordName name = false → Table.get? name left = Table.get? name before
  temporary : context.temporary ∉ left.map Prod.fst

namespace StoresNewest

variable {context : PutContext} {record : CacheRecord} {folder : CacheFolder} {before : Entries}

theorem temporary_ne (h : c.StoresNewest context record folder before) (key : String) :
    context.temporary ≠ recordName key := by
  obtain ⟨tag, htag⟩ := h.temporary
  rw [htag]
  exact Sound.temporary_ne_recordName tag key

/-- The folder between writing and cleaning up. -/
def written (context : PutContext) (record : CacheRecord) (before : Entries) : Entries :=
  Table.set (recordName record.key) (.file record.toBytes context.stamp) before

theorem writeRecord (h : c.StoresNewest context record folder before)
    (hkey : IsRecordKey record.key) :
    c.writeRecord context (recordName record.key) record.toBytes before =
      (written context record before, none) :=
  h.files.writeRecord_eq c h.untroubled hkey.isRecordName (h.temporary_ne _) h.fresh _

theorem mem_written (h : c.StoresNewest context record folder before) {entry : String × DiskNode}
    (hmem : entry ∈ written context record before) :
    entry = (recordName record.key, .file record.toBytes context.stamp) ∨
      entry ∈ before ∧ entry.1 ≠ recordName record.key :=
  Table.mem_set_of_nodup h.sound.distinct hmem

theorem legible_written (h : c.StoresNewest context record folder before)
    (hkey : IsRecordKey record.key) (htimed : record.Timed)
    (hlegible : LegibleBeside record before) : LegibleFolder (written context record before) where
  distinct := by
    rw [written, Table.map_fst_set]
    exact Text.nodup_addNew h.sound.distinct
  possible := by
    intro entry hmem
    rcases h.mem_written hmem with rfl | ⟨hbefore, -⟩
    · exact hkey.nameFault?
    · exact h.sound.possible entry hbefore
  files := by
    intro entry hmem hname
    rcases h.mem_written hmem with rfl | ⟨hbefore, -⟩
    · exact ⟨_, _, rfl⟩
    · exact h.files entry hbefore hname
  legible := by
    intro entry hmem hname bytes modified hfile
    rcases h.mem_written hmem with rfl | ⟨hbefore, hother⟩
    · obtain ⟨rfl, -⟩ := DiskNode.file.inj hfile
      exact CacheRecord.not_nested_toBytes htimed
    · exact hlegible entry hbefore hname hother bytes modified hfile

/-- What is left after cleaning up all that the folder holds once the record is written. -/
def leftOver (c : RepoCache) (context : PutContext) (record : CacheRecord) (before : Entries)
    (found : List RecordSummary) : Entries :=
  (written context record before).filter (keeps (planEvictions c.maxBytes found))

theorem putRecord_eq (h : c.StoresNewest context record folder before)
    (hkey : IsRecordKey record.key) {left : Entries} {reports : List LogRecord}
    (hevict : c.evict context.now (written context record before) = .ok (left, reports)) :
    c.putRecord context record folder =
      ⟨.present left, .ok (), .info logger (s!"Cached {record.entities.length} entities for " ++
        record.location ++ "#" ++ record.branch) :: reports⟩ := by
  simp only [RepoCache.putRecord, h.untroubled, h.folder, h.writeRecord hkey, hevict]

theorem cleanedUp (h : c.StoresNewest context record folder before)
    (hkey : IsRecordKey record.key) (hmax : 0 ≤ c.maxBytes)
    (hfolder : LegibleFolder (written context record before)) {found : List RecordSummary}
    (htells : c.TellsAll context.now (written context record before) found) :
    CleanedUp c context record before (leftOver c context record before found) where
  current := by
    intro entry hmem hname
    obtain ⟨bytes, modified, hfile⟩ := hfolder.files.filter _ entry hmem hname
    have hvalid := htells.valid_of_kept hmem hname
    rw [summaryOf, hfile] at hvalid
    exact ⟨bytes, modified, hfile, hvalid⟩
  ceiling := by
    rw [leftOver, htells.storedBytes_filter_keeps]
    exact totalSize_kept_le hmax (htells.nodup_keys hfolder.toSoundFolder)
  older := by
    intro entry hmem hother
    rcases h.mem_written (List.mem_of_mem_filter hmem) with rfl | ⟨hbefore, -⟩
    · exact absurd rfl hother
    · exact hbefore
  others := by
    intro name hname
    have hne : recordName record.key ≠ name := by
      rintro rfl
      simp [hkey.isRecordName] at hname
    rw [leftOver, Table.get?_filter_of_kept fun _ => keeps_of_not_record _ hname, written,
      Table.get?_set_of_ne hne]
  temporary := by
    intro hmem
    obtain ⟨entry, hentry, hname⟩ := List.mem_map.mp hmem
    rcases h.mem_written (List.mem_of_mem_filter hentry) with rfl | ⟨hbefore, -⟩
    · exact h.temporary_ne _ hname.symm
    · exact h.fresh (hname ▸ List.mem_map_of_mem hbefore)

/-- The record that was written is left if it counts and fits on its own. -/
theorem get?_leftOver (h : c.StoresNewest context record folder before)
    (hkey : IsRecordKey record.key) (hcounts : c.holdsCurrent context.now record.toBytes = true)
    (hfits : record.toBytes.length ≤ c.maxBytes)
    (hsound : SoundFolder (written context record before)) {found : List RecordSummary}
    (htells : c.TellsAll context.now (written context record before) found) :
    Table.get? (recordName record.key) (leftOver c context record before found) =
      some (.file record.toBytes context.stamp) := by
  have hget : Table.get? (recordName record.key) (written context record before) =
      some (.file record.toBytes context.stamp) := Table.get?_set_self _ _ _
  have hvalid : (c.summaryOf context.now
      (recordName record.key, .file record.toBytes context.stamp)).valid = true := by
    simp only [summaryOf, hcounts]
  have hkept := htells.newest_mem_kept hsound (Table.mem_of_get? hget) hkey.isRecordName hvalid (by
    intro other hother hname hne
    rcases h.mem_written hother with rfl | ⟨hbefore, -⟩
    · exact absurd rfl hne
    · exact h.newest other hbefore hname hne) hfits
  exact (Table.get?_eq_some_iff (hsound.filter _).distinct).mpr hkept

/-- Storing a record leaves the folder cleaned up, and the record in it if it counts and fits. -/
theorem putRecord (h : c.StoresNewest context record folder before)
    (hkey : IsRecordKey record.key) (htimed : record.Timed)
    (hversion : record.version = c.version) (hmax : 0 ≤ c.maxBytes)
    (hlegible : LegibleBeside record before) :
    (c.putRecord context record folder).result = .ok () ∧ ∃ left,
      (c.putRecord context record folder).folder = .present left ∧
      CleanedUp c context record before left ∧
      (context.now.lt record.expiresAt = true → record.toBytes.length ≤ c.maxBytes →
        Table.get? (recordName record.key) left =
          some (.file record.toBytes context.stamp)) := by
  have hfolder := h.legible_written hkey htimed hlegible
  obtain ⟨found, reports, hevict, htells⟩ := c.evict_eq context.now hfolder
  rw [h.putRecord_eq hkey hevict]
  refine ⟨rfl, _, rfl, h.cleanedUp hkey hmax hfolder htells, fun hlives hfits => ?_⟩
  have hcounts : c.holdsCurrent context.now record.toBytes = true := by
    simp [holdsCurrent_toBytes htimed, hversion, hlives]
  exact h.get?_leftOver hkey hcounts hfits hfolder.toSoundFolder htells

end StoresNewest

end RepoCache

/--
After a put that stores the newest record, among records that can be read, the
records in the folder count and fit under the ceiling together, older ones that
stay and all other files are as they were, and no temporary file is left. The new
record is there whenever it expires after the clock and fits on its own.
-/
theorem put_cleans_up {c : RepoCache} {context : PutContext} {location branch : String}
    {entities : List Entity} {files : List FileRecord} {repository : Coordinates}
    {record : CacheRecord} {folder : CacheFolder} {before : Entries}
    (hdigest : c.digest = Sha256.hexDigest) (hmax : 0 ≤ c.maxBytes) (hclock : context.now.Valid)
    (hnew : c.newRecord context.now location branch entities files repository = .ok record)
    (hstores : c.StoresNewest context record folder before)
    (hlegible : RepoCache.LegibleBeside record before) :
    let stored := c.put context location branch entities files repository folder
    stored.result = .ok () ∧ ∃ left, stored.folder = .present left ∧
      RepoCache.CleanedUp c context record before left ∧
      (context.now.lt record.expiresAt = true → record.toBytes.length ≤ c.maxBytes →
        Table.get? (recordName record.key) left =
          some (.file record.toBytes context.stamp)) := by
  obtain ⟨hkey, hversion, htimed, -⟩ := RepoCache.newRecord_eq_ok hnew hclock
  have hrecordKey : IsRecordKey record.key := by
    rw [hkey, RepoCache.key, hdigest]
    exact isRecordKey_hexDigest _
  simp only [RepoCache.put, hnew]
  exact hstores.putRecord hrecordKey htimed hversion hmax hlegible

namespace BusyCache

open SampleCache (files siteAt)

def cache : RepoCache where
  directory := "cache"
  ttl := .whole 60

def context : PutContext where
  now := .ofInt 1000
  stamp := .ofInt 1000
  temporary := ".tmp-" ++ "x1" ++ ".part"

/-- The record of another repository, with what came before it in the folder. -/
def shop : CacheRecord where
  key := cacheKey "acme/shop" "main"
  location := "acme/shop"
  branch := "main"
  timestamp := .ofInt 1000
  expiresAt := .ofInt 1060
  version := "1.0.0"
  entities := []
  files := files
  repository := ⟨"acme", "shop", "main"⟩

def before : Entries :=
  [("notes.txt", .file [0x61] .zero), ("broken.json", .file [0xff] .zero),
    ("expired.json", .file (siteAt 900).toBytes (.ofInt 900)),
    ("other.json", .file (siteAt 990).toBytes (.ofInt 990))]

theorem storesNewest :
    cache.StoresNewest context shop (.present before) before where
  folder := rfl
  sound := ⟨by decide, by decide +kernel⟩
  files := by
    intro entry hmem _
    simp only [before, List.mem_cons, List.not_mem_nil, or_false] at hmem
    rcases hmem with rfl | rfl | rfl | rfl <;> exact ⟨_, _, rfl⟩
  untroubled _ := rfl
  temporary := ⟨"x1", rfl⟩
  fresh := by decide
  newest := by decide +kernel

theorem timed_siteAt (now : Int) : (siteAt now).Timed :=
  ⟨Binary64.valid_ofInt now, Binary64.valid_ofInt (now + 60)⟩

theorem legibleBeside : RepoCache.LegibleBeside shop before := by
  intro entry hmem hname _ bytes modified hfile
  simp only [before, List.mem_cons, List.not_mem_nil, or_false] at hmem
  rcases hmem with rfl | rfl | rfl | rfl
  · exact absurd hname (by decide)
  · obtain ⟨rfl, -⟩ := DiskNode.file.inj hfile
    rintro ⟨text, list, htext, -⟩
    obtain ⟨fault, hfault⟩ := TroubledCache.decode_notText
    rw [hfault] at htext
    cases htext
  · obtain ⟨rfl, -⟩ := DiskNode.file.inj hfile
    exact CacheRecord.not_nested_toBytes (timed_siteAt 900)
  · obtain ⟨rfl, -⟩ := DiskNode.file.inj hfile
    exact CacheRecord.not_nested_toBytes (timed_siteAt 990)

end BusyCache

open BusyCache in
/-- A put into a folder with an unreadable record, an expired one and one that counts. -/
theorem put_cleans_up_busy :
    cache.digest = Sha256.hexDigest ∧ 0 ≤ cache.maxBytes ∧ context.now.Valid ∧
      cache.newRecord context.now "acme/shop" "main" [] SampleCache.files
        ⟨"acme", "shop", "main"⟩ = .ok shop ∧
      cache.StoresNewest context shop (.present before) before ∧
      RepoCache.LegibleBeside shop before ∧
      context.now.lt shop.expiresAt = true ∧ shop.toBytes.length ≤ cache.maxBytes ∧
      ∃ left, (cache.put context "acme/shop" "main" [] SampleCache.files
          ⟨"acme", "shop", "main"⟩ (.present before)).folder = .present left ∧
        RepoCache.CleanedUp cache context shop before left ∧
        Table.get? (recordName shop.key) left = some (.file shop.toBytes context.stamp) := by
  have hclock : context.now.Valid := Binary64.valid_ofInt 1000
  have hnew : cache.newRecord context.now "acme/shop" "main" [] SampleCache.files
      ⟨"acme", "shop", "main"⟩ = .ok shop := by
    decide +kernel
  have hlives : context.now.lt shop.expiresAt = true := by decide +kernel
  have hfits : (shop.toBytes.length : Int) ≤ cache.maxBytes := by
    rw [CacheRecord.length_toBytes]
    decide +kernel
  obtain ⟨-, left, hleft, hclean, hkept⟩ :=
    put_cleans_up rfl (by decide) hclock hnew storesNewest legibleBeside
  exact ⟨rfl, by decide, hclock, hnew, storesNewest, legibleBeside, hlives, hfits, left, hleft,
    hclean, hkept hlives hfits⟩

namespace BriefCache

/-- A time to live that is lost when it is added to a time of the clock. -/
def ttl : Quantity := .real (.finite false 1 Binary64.minExponent)

def cache : RepoCache where
  directory := "cache"
  ttl := ttl

def context : PutContext where
  now := .ofInt 1000
  stamp := .ofInt 1000
  temporary := ".tmp-" ++ "x1" ++ ".part"

/-- The record that expires at the time it is stored. -/
def record : CacheRecord where
  key := cacheKey "acme/widgets" "main"
  location := "acme/widgets"
  branch := "main"
  timestamp := .ofInt 1000
  expiresAt := .ofInt 1000
  version := "1.0.0"
  entities := []
  files := []
  repository := ⟨"acme", "widgets", "main"⟩

theorem storesNewest : cache.StoresNewest context record .absent [] where
  folder := rfl
  sound := ⟨List.nodup_nil, by simp⟩
  files := by simp [FilesUnder]
  untroubled _ := rfl
  temporary := ⟨"x1", rfl⟩
  fresh := by simp
  newest := by simp

theorem not_always_kept :
    ¬∀ (c : RepoCache) (context : PutContext) (location branch : String)
        (entities : List Entity) (files : List FileRecord) (repository : Coordinates)
        (record : CacheRecord) (folder : CacheFolder) (before : Entries),
      c.digest = Sha256.hexDigest → 0 ≤ c.maxBytes → context.now.Valid →
      c.newRecord context.now location branch entities files repository = .ok record →
      c.StoresNewest context record folder before →
      ∃ left, (c.put context location branch entities files repository folder).folder =
          .present left ∧
        RepoCache.CleanedUp c context record before left ∧
        (c.ttl.isPositive = true → record.toBytes.length ≤ c.maxBytes →
          Table.get? (recordName record.key) left =
            some (.file record.toBytes context.stamp)) := by
  intro hkept
  have hclock : context.now.Valid := Binary64.valid_ofInt 1000
  have htimed : record.Timed := ⟨hclock, hclock⟩
  obtain ⟨left, -, hclean, hget⟩ := hkept cache context "acme/widgets" "main" [] []
    ⟨"acme", "widgets", "main"⟩ record .absent [] rfl (by decide) hclock
    (by decide +kernel) storesNewest
  have hfits : (record.toBytes.length : Int) ≤ cache.maxBytes := by
    rw [CacheRecord.length_toBytes]
    decide +kernel
  have hmem := Table.mem_of_get? (hget (by decide +kernel) hfits)
  have hkey : IsRecordKey record.key := isRecordKey_hexDigest _
  obtain ⟨bytes, modified, hfile, hcurrent⟩ := hclean.current _ hmem hkey.isRecordName
  obtain ⟨rfl, -⟩ := DiskNode.file.inj hfile
  rw [RepoCache.holdsCurrent_toBytes htimed, Bool.and_eq_true] at hcurrent
  exact absurd hcurrent.2 (by decide +kernel)

end BriefCache

end RepoAtlas
