import RepoAtlas.Proofs.Cache.Folder
import RepoAtlas.Proofs.Cache.Reference

/-!
A cache behaves like a table in memory: the folder holds one file for each
record of the table, and every operation keeps it so.
-/
namespace RepoAtlas

/-- The name of the file of the record under a fingerprint. -/
def fileName (fingerprint : String) : String :=
  recordName (Sha256.hexDigest fingerprint)

def StoredRecord.file (s : StoredRecord) : DiskNode :=
  .file s.record.toBytes s.written

/-- The table in memory with the settings of a cache. -/
def RepoCache.inMemory (c : RepoCache) (now : Binary64) (records : Table StoredRecord) :
    CacheMap where
  ttl := c.ttl
  maxBytes := c.maxBytes
  version := c.version
  now := now
  records := records

/-- The files of the records of a table. -/
def folderOf (records : Table StoredRecord) : Entries :=
  Table.rename fileName StoredRecord.file records

/--
What holds of the records of a table throughout: each stands once under its own
key, and loses nothing when it is written down.
-/
structure Sound (used : List String) (records : Table StoredRecord) : Prop where
  keys : (records.map Prod.fst).Nodup
  known : ∀ entry ∈ records, entry.1 ∈ used
  key : ∀ entry ∈ records, entry.2.record.key = Sha256.hexDigest entry.1
  faithful : ∀ entry ∈ records, entry.2.record.Faithful

/-- Whether the digests of some texts tell them apart. -/
def Apart (used : List String) : Prop :=
  ∀ a ∈ used, ∀ b ∈ used, Sha256.hexDigest a = Sha256.hexDigest b → a = b

theorem onlyFiles_folderOf (records : Table StoredRecord) : OnlyFiles (folderOf records) := by
  intro entry hmem
  obtain ⟨source, -, rfl⟩ := List.mem_map.mp hmem
  exact ⟨_, _, rfl⟩

theorem Apart.fileName_inj {used : List String} (happart : Apart used) {a b : String}
    (ha : a ∈ used) (hb : b ∈ used) (heq : fileName a = fileName b) : a = b :=
  happart a ha b hb (recordName_inj heq)

/-- Where every item has a value, going through the items gives their values. -/
theorem mapM_ok {α β γ ε : Type} {f : α → β} {g : β → Except ε γ} {value : α → γ} {items : List α}
    (h : ∀ item ∈ items, g (f item) = .ok (value item)) :
    (items.map f).mapM g = .ok (items.map value) := by
  induction items with
  | nil => rfl
  | cons item items ih =>
      rw [List.map_cons, List.mapM_cons, h item (by simp),
        ih fun other hmem => h other (List.mem_cons_of_mem _ hmem)]
      rfl

namespace Sound

variable {used : List String} {records : Table StoredRecord}

theorem nil : Sound used [] :=
  ⟨List.nodup_nil, by simp, by simp, by simp⟩

theorem filter (h : Sound used records) (p : String × StoredRecord → Bool) :
    Sound used (records.filter p) :=
  ⟨h.keys.sublist (List.filter_sublist.map _),
    fun entry hmem => h.known entry (List.mem_of_mem_filter hmem),
    fun entry hmem => h.key entry (List.mem_of_mem_filter hmem),
    fun entry hmem => h.faithful entry (List.mem_of_mem_filter hmem)⟩

theorem set (h : Sound used records) {fingerprint : String} {stored : StoredRecord}
    (hused : fingerprint ∈ used) (hkey : stored.record.key = Sha256.hexDigest fingerprint)
    (hfaithful : stored.record.Faithful) : Sound used (Table.set fingerprint stored records) := by
  refine ⟨?_, fun entry hmem => ?_, fun entry hmem => ?_, fun entry hmem => ?_⟩
  · rw [Table.map_fst_set]
    exact Text.nodup_addNew h.keys
  · rcases Table.mem_set hmem with rfl | hmem
    · exact hused
    · exact h.known entry hmem
  · rcases Table.mem_set hmem with rfl | hmem
    · exact hkey
    · exact h.key entry hmem
  · rcases Table.mem_set hmem with rfl | hmem
    · exact hfaithful
    · exact h.faithful entry hmem

variable {fingerprint : String}

theorem apart (h : Sound used records) (happart : Apart used) (hused : fingerprint ∈ used) :
    ∀ k ∈ records.map Prod.fst, fileName k = fileName fingerprint → k = fingerprint := by
  intro k hmem heq
  obtain ⟨entry, hentry, rfl⟩ := List.mem_map.mp hmem
  exact happart.fileName_inj (h.known entry hentry) hused heq

theorem get?_folderOf (h : Sound used records) (happart : Apart used) (hused : fingerprint ∈ used) :
    Table.get? (fileName fingerprint) (folderOf records) =
      (Table.get? fingerprint records).map StoredRecord.file :=
  Table.get?_rename _ (h.apart happart hused)

theorem set_folderOf (h : Sound used records) (happart : Apart used) (hused : fingerprint ∈ used)
    (stored : StoredRecord) :
    Table.set (fileName fingerprint) stored.file (folderOf records) =
      folderOf (Table.set fingerprint stored records) :=
  Table.set_rename _ (h.apart happart hused) stored

/-- Taking away a record's file is taking away the record. -/
theorem filter_ne_folderOf (h : Sound used records) (happart : Apart used)
    (hused : fingerprint ∈ used) :
    (folderOf records).filter (fun e => e.1 != fileName fingerprint) =
      folderOf (records.filter fun e => e.1 != fingerprint) := by
  rw [folderOf, Table.filter_rename StoredRecord.file (fun name => name != fileName fingerprint)]
  refine congrArg folderOf (List.filter_congr fun entry hmem => ?_)
  rw [Bool.eq_iff_iff, bne_iff_ne, bne_iff_ne]
  refine not_congr ⟨?_, fun heq => heq ▸ rfl⟩
  exact happart.fileName_inj (h.known entry hmem) hused

/-- Asking the folder for a record's file finds the bytes of the record. -/
theorem read_folderOf (h : Sound used records) (happart : Apart used) (hused : fingerprint ∈ used) :
    (CacheFolder.present (folderOf records)).read (fileName fingerprint) =
      match Table.get? fingerprint records with
      | some stored => .ok stored.record.toBytes
      | none => .error .missing := by
  have hstat := (onlyFiles_folderOf records).stat_recordName (isRecordKey_hexDigest fingerprint)
  rw [fileName] at *
  rw [CacheFolder.read, DiskNode.read, hstat]
  have hget := h.get?_folderOf happart hused
  rw [fileName] at hget
  rw [hget]
  cases Table.get? fingerprint records <;> rfl

/-- A stored record counts for its folder exactly when it counts in memory. -/
theorem isCurrent_toJson (stored : StoredRecord) (version : String) (now : Binary64) :
    CacheRecord.isCurrent version now stored.record.toJson = stored.isCurrent version now :=
  stored.record.isCurrent_toJson version now

/-- Asking for a record answers what the table answers, and removes what the table removes. -/
theorem get_folderOf (h : Sound used records) (happart : Apart used) (c : RepoCache)
    (hdigest : c.digest = Sha256.hexDigest) (now : Binary64) (location branch : String)
    (hused : RepoAtlas.fingerprint location branch ∈ used) :
    let found := c.get now location branch (.present (folderOf records))
    let expected := (c.inMemory now records).get location branch
    found.folder = .present (folderOf expected.1.records) ∧ found.result = .ok expected.2 := by
  have hkey : c.key location branch = Sha256.hexDigest (RepoAtlas.fingerprint location branch) := by
    rw [RepoCache.key, hdigest]
  have hread := h.read_folderOf happart hused
  rw [fileName] at hread
  simp only [RepoCache.get, CacheMap.get, RepoCache.inMemory, hkey, hread]
  cases hget : Table.get? (RepoAtlas.fingerprint location branch) records with
  | none => exact ⟨rfl, rfl⟩
  | some stored =>
      have hmem := Table.mem_of_get? hget
      have hfaithful := h.faithful _ hmem
      have hrecord := CacheRecord.ofJson_toJson hfaithful
      rw [h.key _ hmem] at hrecord
      simp only [RepoCache.judge, CacheRecord.document_toBytes hfaithful.toTimed,
        isCurrent_toJson, hkey]
      by_cases hcurrent : stored.isCurrent c.version now
      · simp only [hcurrent, if_true, hrecord, and_self]
      · simp only [hcurrent, if_false, Bool.false_eq_true, RepoCache.miss, and_true]
        have hdiscard := (onlyFiles_folderOf records).discard_fst c
          (fileName (RepoAtlas.fingerprint location branch))
        rw [h.filter_ne_folderOf happart hused] at hdiscard
        exact congrArg CacheFolder.present hdiscard

theorem map_fst_folderOf (h : Sound used records) :
    (folderOf records).map Prod.fst =
      (records.map Prod.snd).map fun stored => recordName stored.record.key := by
  rw [folderOf, Table.rename, List.map_map, List.map_map]
  refine List.map_congr_left fun entry hmem => ?_
  simp only [Function.comp_apply, h.key entry hmem]
  rfl

/-- The files of records are listed in the order in which the table lists its records. -/
theorem recordNames_folderOf (h : Sound used records) :
    recordNames (folderOf records) =
      ((records.map Prod.snd).mergeSort StoredRecord.notAfter).map
        fun stored => recordName stored.record.key := by
  have hnames : ((folderOf records).map Prod.fst).filter isRecordName =
      (folderOf records).map Prod.fst := by
    refine List.filter_eq_self.mpr fun name hmem => ?_
    obtain ⟨entry, hentry, rfl⟩ := List.mem_map.mp hmem
    obtain ⟨source, -, rfl⟩ := List.mem_map.mp hentry
    exact (isRecordKey_hexDigest source.1).isRecordName
  rw [recordNames, hnames, h.map_fst_folderOf]
  symm
  apply List.map_mergeSort
  intro a _ b _
  rfl

/-- The file of a record is described as the record is. -/
theorem summary?_folderOf (h : Sound used records) (happart : Apart used) (c : RepoCache)
    (now : Binary64) {stored : StoredRecord} (hmem : stored ∈ records.map Prod.snd) :
    c.summary? now (folderOf records) (recordName stored.record.key) =
      .ok (some (stored.summary c.version now)) := by
  obtain ⟨⟨fingerprint, stored⟩, hentry, rfl⟩ := List.mem_map.mp hmem
  have hget := (Table.get?_eq_some_iff h.keys).mpr hentry
  have hfile := h.get?_folderOf happart (h.known _ hentry)
  have hkey : Sha256.hexDigest fingerprint = stored.record.key := (h.key _ hentry).symm
  have hrecordKey := isRecordKey_hexDigest fingerprint
  rw [hget, fileName, hkey] at hfile
  rw [hkey] at hrecordKey
  have hstat := (onlyFiles_folderOf records).stat_recordName hrecordKey
  rw [hfile] at hstat
  simp only [RepoCache.summary?, hstat, StoredRecord.file, Option.map_some, RepoCache.extentOf,
    hrecordKey.splitSuffix_recordName, CacheRecord.document_toBytes (h.faithful _ hentry).toTimed,
    isCurrent_toJson, CacheRecord.length_toBytes]
  rfl

theorem summaries_folderOf (h : Sound used records) (happart : Apart used) (c : RepoCache)
    (now : Binary64) :
    c.summaries now (folderOf records) = .ok (c.inMemory now records).summaries := by
  have hfound : (recordNames (folderOf records)).mapM (c.summary? now (folderOf records)) =
      .ok (((records.map Prod.snd).mergeSort StoredRecord.notAfter).map
        fun stored => some (stored.summary c.version now)) := by
    rw [h.recordNames_folderOf]
    refine mapM_ok fun stored hmem => ?_
    exact h.summary?_folderOf happart c now (List.mem_mergeSort.mp hmem)
  rw [RepoCache.summaries, hfound, CacheMap.summaries]
  refine congrArg Except.ok ?_
  simp [RepoCache.inMemory]

/-- Cleaning up the folder removes the files of the records that the table drops. -/
theorem evict_folderOf (h : Sound used records) (happart : Apart used) (c : RepoCache)
    (now : Binary64) :
    ∃ reports, c.evict now (folderOf records) =
      .ok (folderOf (c.inMemory now records).evict.records, reports) := by
  have hevict : c.evict now (folderOf records) =
      .ok (((planEvictions c.maxBytes (c.inMemory now records).summaries).mergeSort
        fun a b => a ≤ b).foldl c.evictOne (folderOf records, [])) := by
    rw [RepoCache.evict, h.summaries_folderOf happart c now]
    rfl
  have hmap : (c.inMemory now records).evict.records =
      records.filter fun entry => !(planEvictions c.maxBytes
        (c.inMemory now records).summaries).contains entry.2.record.key := rfl
  rw [hevict, hmap]
  generalize planEvictions c.maxBytes (c.inMemory now records).summaries = doomed
  have hfold := (onlyFiles_folderOf records).foldl_evictOne_fst c
    (doomed.mergeSort fun a b => a ≤ b) []
  have hkept : (folderOf records).filter (fun e =>
      !((doomed.mergeSort fun a b => a ≤ b).map recordName).contains e.1) =
        folderOf (records.filter fun e => !doomed.contains e.2.record.key) := by
    rw [folderOf, Table.filter_rename StoredRecord.file (fun name =>
      !((doomed.mergeSort fun a b => a ≤ b).map recordName).contains name)]
    refine congrArg folderOf (List.filter_congr fun entry hmem => congrArg not ?_)
    rw [Bool.eq_iff_iff, List.contains_iff_mem, List.contains_iff_mem, h.key entry hmem,
      List.mem_map]
    constructor
    · rintro ⟨key, hkey, heq⟩
      rw [← recordName_inj heq]
      exact List.mem_mergeSort.mp hkey
    · exact fun hkey => ⟨_, List.mem_mergeSort.mpr hkey, rfl⟩
  rw [hkept] at hfold
  generalize (doomed.mergeSort fun a b => a ≤ b).foldl c.evictOne (folderOf records, []) = state
    at hfold
  obtain ⟨rest, reports⟩ := state
  exact ⟨reports, congrArg (fun left => Except.ok (left, reports)) hfold⟩

/-- No temporary name is one of a record's file: it ends otherwise. -/
theorem temporary_ne_recordName (tag key : String) :
    ".tmp-" ++ tag ++ ".part" ≠ recordName key := by
  intro heq
  have hlast := congrArg (fun name => name.toList.getLast?) heq
  simp only [String.toList_append, toList_recordName] at hlast
  rw [List.getLast?_append_of_ne_nil _ (by decide), List.getLast?_append_of_ne_nil _ (by decide)]
    at hlast
  cases hlast

theorem temporary_not_mem_folderOf (records : Table StoredRecord) (tag : String) :
    ".tmp-" ++ tag ++ ".part" ∉ (folderOf records).map Prod.fst := by
  intro hmem
  obtain ⟨entry, hentry, hname⟩ := List.mem_map.mp hmem
  obtain ⟨source, -, rfl⟩ := List.mem_map.mp hentry
  exact temporary_ne_recordName tag _ hname.symm

/-- The table keeps its records sound when it is cleaned up. -/
theorem evict_inMemory (h : Sound used records) (c : RepoCache) (now : Binary64) :
    Sound used (c.inMemory now records).evict.records :=
  h.filter _

/-- Storing a record puts its file into the folder and cleans up, as the table does. -/
theorem putRecord_folderOf (h : Sound used records) (happart : Apart used) (c : RepoCache)
    {context : PutContext} (htrouble : ∀ step, context.trouble step = none) (tag : String)
    (htemporary : context.temporary = ".tmp-" ++ tag ++ ".part") {record : CacheRecord}
    {fingerprint : String} (hused : fingerprint ∈ used)
    (hkey : record.key = Sha256.hexDigest fingerprint) (hfaithful : record.Faithful)
    {folder : CacheFolder} (hfolder : folder.make = .ok (folderOf records)) :
    (c.putRecord context record folder).folder = .present (folderOf
      (c.inMemory context.now
        (Table.set fingerprint ⟨record, context.stamp⟩ records)).evict.records) := by
  have hstored : Sound used (Table.set fingerprint ⟨record, context.stamp⟩ records) :=
    h.set hused hkey hfaithful
  have hwrite := (onlyFiles_folderOf records).writeRecord_eq c htrouble
    (htemporary ▸ temporary_ne_recordName tag record.key)
    (htemporary ▸ temporary_not_mem_folderOf records tag) record.toBytes
  have hset := h.set_folderOf happart hused ⟨record, context.stamp⟩
  rw [fileName, ← hkey, StoredRecord.file] at hset
  rw [hset] at hwrite
  obtain ⟨reports, hevict⟩ := hstored.evict_folderOf happart c context.now
  simp only [RepoCache.putRecord, htrouble, hfolder, hwrite, hevict]

end Sound

/-- Clearing takes away every file. -/
theorem clear_folderOf (records : Table StoredRecord) (c : RepoCache) :
    (c.clear (.present (folderOf records))).folder = .present [] := by
  have hnames : ∀ entry ∈ folderOf records, entry.1 ∈ recordNames (folderOf records) := by
    intro entry hmem
    obtain ⟨source, -, rfl⟩ := List.mem_map.mp hmem
    rw [recordNames, List.mem_mergeSort, List.mem_filter]
    exact ⟨List.mem_map_of_mem hmem, (isRecordKey_hexDigest source.1).isRecordName⟩
  have hfold := (onlyFiles_folderOf records).foldl_clearOne_fst c
    (recordNames (folderOf records)) 0 []
  have hnone : (folderOf records).filter
      (fun e => !(recordNames (folderOf records)).contains e.1) = [] := by
    rw [List.filter_eq_nil_iff]
    intro entry hmem
    simpa using hnames entry hmem
  rw [hnone] at hfold
  simp only [RepoCache.clear, CacheFolder.list]
  generalize (recordNames (folderOf records)).foldl c.clearOne (folderOf records, 0, []) = state
    at hfold
  obtain ⟨rest, count, reports⟩ := state
  exact congrArg CacheFolder.present hfold

theorem RepoCache.stats_folder (c : RepoCache) (folder : CacheFolder) :
    (c.stats folder).folder = folder := by
  rw [RepoCache.stats]
  split <;> rfl

/-- Asking for a record changes at most which records there are, to some of them. -/
theorem CacheMap.get_fst (m : CacheMap) (location branch : String) :
    ∃ p, (m.get location branch).1 = { m with records := m.records.filter p } := by
  have hall : m = { m with records := m.records.filter fun _ => true } := by
    rw [List.filter_true]
  rw [CacheMap.get]
  split
  · exact ⟨_, hall⟩
  · split
    · exact ⟨_, hall⟩
    · exact ⟨_, rfl⟩

section NewRecord

variable {c : RepoCache} {location branch : String} {entities : List Entity}
  {files : List FileRecord} {repository : Coordinates}

/-- A new record holds what is put, and its times can be written down. -/
theorem RepoCache.newRecord_eq_ok {now : Binary64} {record : CacheRecord}
    (hnew : c.newRecord now location branch entities files repository = .ok record)
    (hclock : now.Valid) :
    record.key = c.key location branch ∧ record.version = c.version ∧ record.Timed ∧
      record.entities = entities ∧ record.files = files ∧ record.repository = repository := by
  rw [RepoCache.newRecord] at hnew
  cases httl : c.ttl.toReal with
  | error failure =>
      rw [httl] at hnew
      cases hnew
  | ok ttl =>
      rw [httl] at hnew
      cases hnew
      exact ⟨rfl, rfl, ⟨hclock, Binary64.valid_add _ _⟩, rfl, rfl, rfl⟩

theorem RepoCache.newRecord_spec {now : Binary64} {record : CacheRecord}
    (hnew : c.newRecord now location branch entities files repository = .ok record)
    (hclock : now.Valid) (hentities : ∀ e ∈ entities, e.Described)
    (hfiles : ∀ file ∈ files, file.Typed) :
    record.key = c.key location branch ∧ record.Faithful := by
  obtain ⟨hkey, -, htimed, hentitiesKept, hfilesKept, -⟩ :=
    RepoCache.newRecord_eq_ok hnew hclock
  exact ⟨hkey, htimed, hentitiesKept ▸ hentities, hfilesKept ▸ hfiles⟩

/-- The table sets the record that the cache would store, if there is one. -/
theorem CacheMap.put_inMemory (hdigest : c.digest = Sha256.hexDigest) (now : Binary64)
    (records : Table StoredRecord) (stamp : Binary64) :
    (c.inMemory now records).put location branch entities files repository stamp =
      match c.newRecord now location branch entities files repository with
      | .error _ => c.inMemory now records
      | .ok record =>
        (c.inMemory now
          (Table.set (fingerprint location branch) ⟨record, stamp⟩ records)).evict := by
  have hkey : c.key location branch = cacheKey location branch := by
    rw [RepoCache.key, hdigest]
    rfl
  rw [CacheMap.put, RepoCache.newRecord, hkey]
  simp only [RepoCache.inMemory]
  cases c.ttl.toReal <;> rfl

end NewRecord

/-- Whether a cache and a table in memory stand for the same records. -/
structure Represents (used : List String) (s : OpenCache) (m : CacheMap) : Prop where
  settings : m = s.cache.inMemory s.now m.records
  digest : s.cache.digest = Sha256.hexDigest
  clock : s.now.Valid
  sound : Sound used m.records
  folder : s.folder = .present (folderOf m.records) ∨ s.folder = .absent ∧ m.records = []

namespace Represents

variable {used : List String} {s : OpenCache} {m : CacheMap}

/-- A folder that is not there yet is made without entries. -/
theorem make_folder (h : Represents used s m) : s.folder.make = .ok (folderOf m.records) := by
  rcases h.folder with hfolder | ⟨hfolder, hnil⟩
  · rw [hfolder]
    rfl
  · rw [hfolder, hnil]
    rfl

/-- What is stored in the folder is what is set in the table. -/
theorem put (h : Represents used s m) (happart : Apart used) {location branch : String}
    (hused : fingerprint location branch ∈ used) {entities : List Entity}
    (hentities : ∀ e ∈ entities, e.Described) {files : List FileRecord}
    (hfiles : ∀ file ∈ files, file.Typed) (repository : Coordinates) (stamp : Binary64)
    (tag : String) :
    Represents used (s.step (.put location branch entities files repository stamp tag)).1
      (m.put location branch entities files repository stamp) := by
  rw [h.settings, CacheMap.put_inMemory h.digest, OpenCache.step, RepoCache.put]
  cases hnew : s.cache.newRecord s.now location branch entities files repository with
  | error failure =>
      simp only [OpenCache.context, hnew]
      rw [← h.settings]
      exact h
  | ok record =>
      obtain ⟨hkey, hfaithful⟩ := RepoCache.newRecord_spec hnew h.clock hentities hfiles
      rw [RepoCache.key, h.digest] at hkey
      simp only [OpenCache.context, hnew]
      exact {
        settings := rfl
        digest := h.digest
        clock := h.clock
        sound := (h.sound.set hused hkey hfaithful).evict_inMemory s.cache s.now
        folder := Or.inl (h.sound.putRecord_folderOf happart s.cache (fun _ => rfl) tag
          rfl hused hkey hfaithful h.make_folder) }

/-- What the folder is asked for is answered as by the table. -/
theorem get (h : Represents used s m) (happart : Apart used) {location branch : String}
    (hused : fingerprint location branch ∈ used) :
    Represents used (s.step (.get location branch)).1 (m.get location branch).1 ∧
      (s.cache.get s.now location branch s.folder).result = .ok (m.get location branch).2 := by
  obtain ⟨p, hfst⟩ := CacheMap.get_fst m location branch
  have hrecords : Sound used (m.get location branch).1.records := by
    rw [hfst]
    exact h.sound.filter p
  have hsettings : (m.get location branch).1 =
      s.cache.inMemory s.now (m.get location branch).1.records := by
    rw [hfst, h.settings]
    rfl
  rcases h.folder with hfolder | ⟨hfolder, hnil⟩
  · have hget := h.sound.get_folderOf happart s.cache h.digest s.now location branch hused
    rw [← h.settings, ← hfolder] at hget
    exact ⟨⟨hsettings, h.digest, h.clock, hrecords, Or.inl hget.1⟩, hget.2⟩
  · have hmap : m.get location branch = (m, none) := by
      rw [CacheMap.get, hnil]
      rfl
    have hcache : s.cache.get s.now location branch s.folder = ⟨.absent, .ok none, []⟩ := by
      rw [hfolder]
      rfl
    refine ⟨⟨hsettings, h.digest, h.clock, hrecords, Or.inr ?_⟩, ?_⟩
    · rw [hmap]
      exact ⟨congrArg CacheStep.folder hcache, hnil⟩
    · rw [hcache, hmap]

theorem clear (h : Represents used s m) :
    Represents used (s.step .clear).1 { m with records := [] } := by
  refine ⟨?_, h.digest, h.clock, .nil, ?_⟩
  · rw [h.settings]
    rfl
  · rcases h.folder with hfolder | ⟨hfolder, -⟩
    · refine Or.inl ?_
      have hclear := clear_folderOf m.records s.cache
      rw [← hfolder] at hclear
      exact hclear
    · refine Or.inr ⟨?_, rfl⟩
      simp only [OpenCache.step, hfolder]
      rfl

/-- Every operation keeps the cache and the table alike and answers alike. -/
theorem step (h : Represents used s m) (happart : Apart used) {operation : CacheOperation}
    (hadmissible : operation.Admissible)
    (hused : ∀ text ∈ operation.fingerprint?, text ∈ used) :
    Represents used (s.step operation).1 (m.step operation).1 ∧
      (s.step operation).2 = (m.step operation).2.map .ok := by
  cases operation with
  | put location branch entities files repository stamp tag =>
      exact ⟨h.put happart (hused _ rfl) hadmissible.1 hadmissible.2 repository stamp tag, rfl⟩
  | get location branch =>
      obtain ⟨hnext, hresult⟩ := h.get happart (hused _ rfl)
      exact ⟨hnext, congrArg (fun answer => [answer]) hresult⟩
  | stats =>
      refine ⟨⟨h.settings, h.digest, h.clock, h.sound, ?_⟩, rfl⟩
      rw [OpenCache.step, RepoCache.stats_folder]
      exact h.folder
  | clear => exact ⟨h.clear, rfl⟩
  | advance now =>
      refine ⟨⟨?_, h.digest, hadmissible, h.sound, h.folder⟩, rfl⟩
      rw [h.settings]
      rfl
  | reopen ttl maxBytes version =>
      refine ⟨⟨?_, h.digest, h.clock, h.sound, h.folder⟩, rfl⟩
      rw [h.settings]
      rfl

/-- Sequences of operations are answered alike. -/
theorem answers (h : Represents used s m) (happart : Apart used)
    {operations : List CacheOperation}
    (hadmissible : ∀ operation ∈ operations, operation.Admissible)
    (hused : ∀ operation ∈ operations, ∀ text ∈ operation.fingerprint?, text ∈ used) :
    s.answers operations = (m.answers operations).map .ok := by
  induction operations generalizing s m with
  | nil => rfl
  | cons operation rest ih =>
      obtain ⟨hnext, hanswer⟩ := h.step happart (hadmissible operation (by simp))
        (hused operation (by simp))
      rw [OpenCache.answers, CacheMap.answers, hanswer, List.map_append,
        ih hnext (fun other hmem => hadmissible other (List.mem_cons_of_mem _ hmem))
          fun other hmem => hused other (List.mem_cons_of_mem _ hmem)]

end Represents

/-- The texts that tell the records of some operations apart. -/
def fingerprintsOf (operations : List CacheOperation) : List String :=
  operations.filterMap CacheOperation.fingerprint?

/--
A cache that starts with an empty folder answers every sequence of operations as
a table in memory does, if no two of the fingerprints that occur have the same
digest.
-/
theorem cache_answers_as_map {s : OpenCache} (hdigest : s.cache.digest = Sha256.hexDigest)
    (hempty : s.folder = .absent ∨ s.folder = .present []) (hclock : s.now.Valid)
    {operations : List CacheOperation}
    (hadmissible : ∀ operation ∈ operations, operation.Admissible)
    (happart : Apart (fingerprintsOf operations)) :
    s.answers operations = ((s.cache.inMemory s.now []).answers operations).map .ok := by
  have hstart : Represents (fingerprintsOf operations) s (s.cache.inMemory s.now []) :=
    ⟨rfl, hdigest, hclock, .nil, hempty.symm.imp_right fun habsent => ⟨habsent, rfl⟩⟩
  refine hstart.answers happart hadmissible fun operation hmem text htext => ?_
  exact List.mem_filterMap.mpr ⟨operation, hmem, htext⟩

namespace SampleCache

def card : Entity where
  name := "Card"
  role := .component
  file := "Card.tsx"
  props := [⟨"title", "string", true, some "\"on top\""⟩, ⟨"size", "number", false, none⟩]
  exports := ["Card"]
  content := "'\u2028é'\n"

def files : List FileRecord :=
  [⟨"Card.tsx", .blob, "raw/Card.tsx"⟩]

def opened : OpenCache where
  cache := { directory := "cache", ttl := .whole 60 }
  now := .ofInt 1000
  folder := .absent

def storeSite (stamp : Int) : CacheOperation :=
  .put "acme/site" "main" [card] files ⟨"acme", "site", "main"⟩ (.ofInt stamp) "x1"

def storeShop (stamp : Int) : CacheOperation :=
  .put "acme/shop" "main" [] files ⟨"acme", "shop", "main"⟩ (.ofInt stamp) "x2"

def askSite : CacheOperation := .get "Acme/Site.git" "main"

def askShop : CacheOperation := .get "acme/shop/" "main"

/-- A record that is found until it expires, until another version asks, and until all go. -/
def siteOperations : List CacheOperation :=
  [askSite, storeSite 1000, askSite, .advance (.ofInt 1060), askSite, storeSite 1060, .stats,
    askSite, .reopen (.whole 60) 1000 "2.0.0", askSite, .reopen (.whole 60) 1000 "1.0.0", askSite,
    storeSite 1061, .clear, askSite]

/-- Two records under a ceiling that only one of them fits, and other versions. -/
def operations : List CacheOperation :=
  siteOperations ++ [storeSite 1062, storeShop 1063, askSite, askShop,
    .reopen (.whole 60) 5000 "2.0.0", storeSite 1064, .reopen (.whole 60) 5000 "1.0.0", askShop]

/-- The record of the site that is stored at a time. -/
def siteAt (now : Int) : CacheRecord where
  key := cacheKey "acme/site" "main"
  location := "acme/site"
  branch := "main"
  timestamp := .ofInt now
  expiresAt := .ofInt (now + 60)
  version := "1.0.0"
  entities := [card]
  files := files
  repository := ⟨"acme", "site", "main"⟩

theorem apart : Apart (fingerprintsOf operations) := by
  have hkinds : ∀ text ∈ fingerprintsOf operations,
      text = "acme/site#main" ∨ text = "acme/shop#main" := by
    decide +kernel
  have hdigests : Sha256.hexDigest "acme/site#main" ≠ Sha256.hexDigest "acme/shop#main" := by
    decide +kernel
  intro a ha b hb heq
  rcases hkinds a ha with rfl | rfl <;> rcases hkinds b hb with rfl | rfl
  · rfl
  · exact absurd heq hdigests
  · exact absurd heq.symm hdigests
  · rfl

end SampleCache

open SampleCache in
/-- A folder that is opened with several settings, and what it answers on the way. -/
theorem cache_answers_as_map_sample :
    opened.cache.digest = Sha256.hexDigest ∧ opened.folder = .absent ∧ opened.now.Valid ∧
      (∀ operation ∈ operations, operation.Admissible) ∧ Apart (fingerprintsOf operations) ∧
      opened.answers operations =
        ((opened.cache.inMemory opened.now []).answers operations).map .ok ∧
      opened.answers siteOperations =
        [none, some (siteAt 1000), none, some (siteAt 1060), none, none, none].map .ok := by
  have hclock : opened.now.Valid := Binary64.valid_ofInt 1000
  have hadmissible : ∀ operation ∈ operations, operation.Admissible := by decide +kernel
  have hsite : ∀ operation ∈ siteOperations, operation ∈ operations :=
    fun _ hmem => List.mem_append_left _ hmem
  have hsiteApart : Apart (fingerprintsOf siteOperations) := by
    have hsubset : fingerprintsOf siteOperations ⊆ fingerprintsOf operations :=
      List.filterMap_subset _ hsite
    exact fun a ha b hb => apart a (hsubset ha) b (hsubset hb)
  refine ⟨rfl, rfl, hclock, hadmissible, apart,
    cache_answers_as_map rfl (Or.inl rfl) hclock hadmissible apart, ?_⟩
  rw [cache_answers_as_map rfl (Or.inl rfl) hclock
    (fun operation hmem => hadmissible operation (hsite operation hmem)) hsiteApart]
  refine congrArg (List.map Except.ok) ?_
  decide +kernel

end RepoAtlas
