import RepoAtlas.Proofs.Cache.Eviction
import RepoAtlas.Proofs.Cache.Refinement
import RepoAtlas.Proofs.Cache.Trouble

/-!
A record that has just been stored is found again: cleaning up takes it away only
if it does not fit together with the records that would go after it.
-/
namespace RepoAtlas

/-- The records that count, from the one with a key on, in the order in which they go. -/
def lastToGo (key : String) (summaries : List RecordSummary) : List RecordSummary :=
  ((summaries.filter RecordSummary.valid).mergeSort RecordSummary.notAfter).dropWhile
    fun s => s.key != key

section Eviction

variable {key : String} {maxBytes : Int}

/-- What is cut off ends before the records that fit. -/
theorem not_mem_cutOldest {sorted : List RecordSummary}
    (hfits : totalSize (sorted.dropWhile fun s => s.key != key) ≤ maxBytes) :
    key ∉ cutOldest maxBytes (totalSize sorted) sorted := by
  induction sorted with
  | nil => simp [cutOldest]
  | cons s rest ih =>
      rw [cutOldest]
      split
      · simp
      · next hover =>
          have hother : s.key ≠ key := by
            intro heq
            rw [List.dropWhile_cons_of_neg (by simp [heq])] at hfits
            exact hover hfits
          rw [List.dropWhile_cons_of_pos (by simp [hother])] at hfits
          have hrest : totalSize (s :: rest) - s.size = totalSize rest := by
            simp only [totalSize, List.map_cons, List.foldr_cons]
            omega
          rw [hrest, List.mem_cons, not_or]
          exact ⟨hother.symm, ih hfits⟩

/-- A record that counts stays if it fits together with those that would go after it. -/
theorem not_mem_planEvictions {summaries : List RecordSummary}
    (hvalid : ∀ s ∈ summaries, s.key = key → s.valid = true)
    (hfits : totalSize (lastToGo key summaries) ≤ maxBytes) :
    key ∉ planEvictions maxBytes summaries := by
  rw [planEvictions, Text.mem_distinct, List.mem_append, not_or]
  constructor
  · intro hmem
    obtain ⟨s, hinvalid, hkey⟩ := List.mem_map.mp hmem
    obtain ⟨hs, hnot⟩ := List.mem_filter.mp hinvalid
    simp [hvalid s hs hkey] at hnot
  · rw [← totalSize_eq_of_perm (inOrderOfGoing_perm summaries)]
    exact not_mem_cutOldest hfits

end Eviction

/-- Where going through some items succeeds, each value comes of an item. -/
theorem mem_of_mapM_ok {α β ε : Type} {f : α → Except ε β} {items : List α} {values : List β}
    (h : items.mapM f = .ok values) {value : β} (hmem : value ∈ values) :
    ∃ item ∈ items, f item = .ok value := by
  induction items generalizing values with
  | nil =>
      obtain rfl := Except.ok.inj h
      cases hmem
  | cons item items ih =>
      rw [List.mapM_cons] at h
      cases hitem : f item with
      | error failure => simp [hitem, bind, Except.bind] at h
      | ok first =>
          cases hitems : items.mapM f with
          | error failure => simp [hitem, hitems, bind, Except.bind] at h
          | ok rest =>
              simp only [hitem, hitems, bind, Except.bind, pure, Except.pure,
                Except.ok.injEq] at h
              subst h
              rcases List.mem_cons.mp hmem with rfl | hmem
              · exact ⟨item, List.mem_cons_self, hitem⟩
              · obtain ⟨other, hother, heq⟩ := ih hitems hmem
                exact ⟨other, List.mem_cons_of_mem _ hother, heq⟩

namespace RepoCache

variable {c : RepoCache} {context : PutContext} {record : CacheRecord} {folder : CacheFolder}
  {entries written : Entries}

/-- Whether the file of a record is written, and what is in the folder then. -/
def Writes (c : RepoCache) (context : PutContext) (record : CacheRecord) (folder : CacheFolder)
    (written : Entries) : Prop :=
  context.trouble .makeFolder = none ∧ ∃ entries, folder.make = .ok entries ∧
    c.writeRecord context (recordName record.key) record.toBytes entries = (written, none)

/-- Whether a record fits under the ceiling of a folder, with those that would go after it. -/
def FitsAmong (c : RepoCache) (now : Binary64) (key : String) (entries : Entries) : Prop :=
  ∀ found, c.summaries now entries = .ok found →
    totalSize (lastToGo key found) ≤ c.maxBytes

theorem get?_of_writeRecord {name : String} {bytes : List UInt8}
    (h : c.writeRecord context name bytes entries = (written, none)) :
    Table.get? name written = some (.file bytes context.stamp) := by
  unfold writeRecord at h
  simp only at h
  repeat' split at h
  all_goals simp only [Prod.mk.injEq, reduceCtorEq, and_false, and_true] at h
  rw [← h]
  exact Table.get?_set_self _ _ _

theorem get?_discard {name other : String} (hne : name ≠ other) :
    Table.get? name (c.discard other entries).1 = Table.get? name entries := by
  unfold discard removeFile
  cases Table.get? other entries with
  | none => rfl
  | some node =>
      cases node with
      | folder inner => rfl
      | _ => exact Table.get?_filter_ne hne entries

theorem get?_foldl_evictOne {name : String} {keys : List String} (h : name ∉ keys.map recordName)
    (records : List LogRecord) :
    Table.get? name (keys.foldl c.evictOne (entries, records)).1 = Table.get? name entries := by
  induction keys generalizing entries records with
  | nil => rfl
  | cons key keys ih =>
      rw [List.map_cons, List.mem_cons, not_or] at h
      rw [List.foldl_cons]
      exact (ih h.2 _).trans (get?_discard h.1)

/-- The file of a record that counts, as the choice of records to remove is told about it. -/
theorem valid_of_summary? {now : Binary64} {bytes : List UInt8} {modified : Binary64}
    {document : Json} {key : String} (hkey : IsRecordKey key)
    (hget : Table.get? (recordName key) entries = some (.file bytes modified))
    (hdocument : CacheRecord.document bytes = .ok document)
    (hcurrent : CacheRecord.isCurrent c.version now document = true) {s : RecordSummary}
    (h : c.summary? now entries (recordName key) = .ok (some s)) : s.valid = true := by
  have hstat := stat_of_file (recordName_ne_parent key) hkey.nameFault? hget
  simp only [summary?, hstat, hdocument, hcurrent, Except.ok.injEq, Option.some.injEq] at h
  rw [← h]

/-- What is told about a record is told about its file. -/
theorem summary?_of_mem_summaries {now : Binary64} {found : List RecordSummary}
    (h : c.summaries now entries = .ok found) {s : RecordSummary} (hmem : s ∈ found) :
    c.summary? now entries (recordName s.key) = .ok (some s) := by
  unfold summaries at h
  cases hall : (recordNames entries).mapM (c.summary? now entries) with
  | error failure => simp [hall, bind, Except.bind] at h
  | ok values =>
      simp only [hall, bind, Except.bind, pure, Except.pure, Except.ok.injEq] at h
      subst h
      obtain ⟨value, hvalue, hsome⟩ := List.mem_filterMap.mp hmem
      obtain rfl : value = some s := hsome
      obtain ⟨name, hname, hsummary⟩ := mem_of_mapM_ok hall hvalue
      have hrecord : isRecordName name = true :=
        (List.mem_filter.mp (List.mem_mergeSort.mp hname)).2
      have hkey : s.key = (PurePath.splitSuffix name).1 := by
        unfold summary? at hsummary
        simp only at hsummary
        repeat' split at hsummary
        all_goals simp only [Except.ok.injEq, Option.some.injEq, reduceCtorEq] at hsummary
        all_goals rw [← hsummary]
      rw [hkey, recordName_of_isRecordName hrecord]
      exact hsummary

/-- Cleaning up keeps the file of a record that counts and fits. -/
theorem get?_of_evict {now : Binary64} {bytes : List UInt8} {modified : Binary64}
    {document : Json} {key : String} (hkey : IsRecordKey key)
    (hget : Table.get? (recordName key) entries = some (.file bytes modified))
    (hdocument : CacheRecord.document bytes = .ok document)
    (hcurrent : CacheRecord.isCurrent c.version now document = true)
    (hfits : c.FitsAmong now key entries) {left : Entries} {reports : List LogRecord}
    (h : c.evict now entries = .ok (left, reports)) :
    Table.get? (recordName key) left = some (.file bytes modified) := by
  unfold evict at h
  cases hfound : c.summaries now entries with
  | error failure => simp [hfound, bind, Except.bind] at h
  | ok found =>
      simp only [hfound, bind, Except.bind, pure, Except.pure, Except.ok.injEq] at h
      have hvalid : ∀ s ∈ found, s.key = key → s.valid = true := by
        intro s hmem hs
        have hsummary := summary?_of_mem_summaries hfound hmem
        rw [hs] at hsummary
        exact valid_of_summary? hkey hget hdocument hcurrent hsummary
      have hkept := not_mem_planEvictions hvalid (hfits found hfound)
      have hname : recordName key ∉
          ((planEvictions c.maxBytes found).mergeSort fun a b => a ≤ b).map recordName := by
        intro hmem
        obtain ⟨doomed, hdoomed, heq⟩ := List.mem_map.mp hmem
        rw [recordName_inj heq] at hdoomed
        exact hkept (List.mem_mergeSort.mp hdoomed)
      have hleft : Table.get? (recordName key) (((planEvictions c.maxBytes found).mergeSort
          fun a b => a ≤ b).foldl c.evictOne (entries, [])).1 =
            Table.get? (recordName key) entries := get?_foldl_evictOne hname []
      rw [h] at hleft
      exact hleft.trans hget

/-- What stands under the name of a record's file can be read from the folder. -/
theorem read_of_get? {key : String} (hkey : IsRecordKey key) {bytes : List UInt8}
    {modified : Binary64}
    (hget : Table.get? (recordName key) entries = some (.file bytes modified)) :
    (CacheFolder.present entries).read (recordName key) = .ok bytes := by
  have hstat := stat_of_file (recordName_ne_parent key) hkey.nameFault? hget
  simp only [CacheFolder.read, DiskNode.read, hstat]

theorem putRecord_ok_of_evict (hwrites : c.Writes context record folder written)
    {left : Entries} {reports : List LogRecord}
    (hevict : c.evict context.now written = .ok (left, reports)) :
    (c.putRecord context record folder).result = .ok () := by
  obtain ⟨hmake, entries, hentries, hwrite⟩ := hwrites
  simp only [putRecord, hmake, hentries, hwrite, hevict]

theorem putRecord_folder_of_evict (hwrites : c.Writes context record folder written)
    {left : Entries} {reports : List LogRecord}
    (hevict : c.evict context.now written = .ok (left, reports)) :
    (c.putRecord context record folder).folder = .present left := by
  obtain ⟨hmake, entries, hentries, hwrite⟩ := hwrites
  simp only [putRecord, hmake, hentries, hwrite, hevict]

/-- A record stays where it was written if the others cannot be told apart. -/
theorem putRecord_of_evict_error (hwrites : c.Writes context record folder written)
    {failure : Unexpected} (hevict : c.evict context.now written = .error failure) :
    (c.putRecord context record folder).folder = .present written ∧
      (c.putRecord context record folder).result = .error failure := by
  obtain ⟨hmake, entries, hentries, hwrite⟩ := hwrites
  simp only [putRecord, hmake, hentries, hwrite, hevict, and_self]

/-- A record that is written, counts and fits can be read after it has been stored. -/
theorem read_of_putRecord (hkey : IsRecordKey record.key) (htimed : record.Timed)
    (hversion : record.version = c.version) (hlives : context.now.lt record.expiresAt = true)
    (hwrites : c.Writes context record folder written)
    (hfits : c.FitsAmong context.now record.key written)
    (hput : (c.putRecord context record folder).result = .ok ()) :
    (c.putRecord context record folder).folder.read (recordName record.key) =
      .ok record.toBytes := by
  obtain ⟨hmake, entries, hentries, hwrite⟩ := hwrites
  have hcurrent : CacheRecord.isCurrent c.version context.now record.toJson = true := by
    rw [CacheRecord.isCurrent_toJson, hversion, hlives]
    simp
  simp only [putRecord, hmake, hentries, hwrite] at hput ⊢
  cases hevict : c.evict context.now written with
  | error failure => simp [hevict] at hput
  | ok state =>
      obtain ⟨left, reports⟩ := state
      exact read_of_get? hkey (get?_of_evict hkey (get?_of_writeRecord hwrite)
        (CacheRecord.document_toBytes htimed) hcurrent hfits hevict)

/-- The record in a file that holds one which counts. -/
theorem get_of_read_record {now : Binary64} {location branch : String}
    (hkey : record.key = c.key location branch) (hfaithful : record.Faithful)
    (hversion : record.version = c.version) (hlives : now.lt record.expiresAt = true)
    (hread : folder.read (recordName record.key) = .ok record.toBytes) :
    c.get now location branch folder =
      ⟨folder, .ok (some record),
        [.info logger ("Cache hit for " ++ (location ++ "#" ++ branch))]⟩ := by
  have hcurrent : CacheRecord.isCurrent c.version now record.toJson = true := by
    rw [CacheRecord.isCurrent_toJson, hversion, hlives]
    simp
  have hrecord := CacheRecord.ofJson_toJson hfaithful
  rw [hkey] at hread hrecord
  simp only [get, hread, judge, CacheRecord.document_toBytes hfaithful.toTimed, hcurrent, if_true,
    hrecord]

end RepoCache

end RepoAtlas
