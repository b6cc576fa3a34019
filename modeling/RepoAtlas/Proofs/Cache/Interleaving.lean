import RepoAtlas.Proofs.Cache.Clients

/-!
A get and a put of the same record at the same time. Whatever the order of their steps,
what is found is one record, completely written, and the record that is put stays where
the other client leaves it; it may take away what it has not read.
-/
namespace RepoAtlas

namespace CacheRecord

/-- The document of a record holds a record. -/
theorem exists_ofJson_toJson (r : CacheRecord) (key : String) :
    ∃ found, ofJson key r.toJson = .ok (some found) := by
  rcases ofJson_cases key r.toJson with ⟨hheading, -⟩ | ⟨hunfit, -⟩ | ⟨-, -, hfound⟩
  · rw [heading?_toJson] at hheading
    cases hheading
  · obtain ⟨h, hheading, hwrong⟩ := hunfit
    rw [heading?_toJson] at hheading
    obtain rfl := Option.some.inj hheading
    have hfiles : itemsOf r.toJson "allFiles" = r.files.map FileRecord.toJson := by
      simp [toJson, itemsOf, Json.get?, Table.get?, Json.items]
    rcases hwrong with ⟨v, hv, -, type, htype, hcontainer⟩ | ⟨i, hi, -⟩ | ⟨i, hi, -⟩
    · rw [hfiles] at hv
      obtain ⟨file, -, rfl⟩ := List.mem_map.mp hv
      obtain rfl : Json.str file.type.label = type := by
        simpa [FileRecord.toJson, Json.get?, Table.get?] using htype
      exact hcontainer.elim
    · cases hi
    · cases hi
  · exact hfound

end CacheRecord

namespace RepoCache

variable {c : RepoCache} {now : Binary64} {r : CacheRecord}

/-- A record that counts is the answer, and the file of one that does not goes. -/
theorem verdict_toBytes (h : r.Timed) (c : RepoCache) (now : Binary64) (key : String) :
    (c.holdsCurrent now r.toBytes = false ∧ c.verdict now key r.toBytes = .unlinks) ∨
      (c.holdsCurrent now r.toBytes = true ∧ ∃ found,
        CacheRecord.ofJson key r.toJson = .ok (some found) ∧
          c.verdict now key r.toBytes = .ended (.ok (some found))) := by
  obtain ⟨found, hfound⟩ := r.exists_ofJson_toJson key
  simp only [holdsCurrent, verdict, CacheRecord.document_toBytes h, hfound]
  cases CacheRecord.isCurrent c.version now r.toJson with
  | false => exact .inl ⟨rfl, by simp⟩
  | true => exact .inr ⟨rfl, found, rfl, by simp⟩

theorem discard_fst_cases (name : String) (entries : Entries) :
    (c.discard name entries).1 = entries ∨
      (c.discard name entries).1 = DiskNode.setEntry name none entries := by
  unfold discard removeFile
  cases Table.get? name entries with
  | none => exact .inl rfl
  | some node =>
      cases node with
      | folder inner => exact .inl rfl
      | _ => exact .inr rfl

theorem contents_unlinked (c : RepoCache) (name : String) (folder : CacheFolder) :
    (c.unlinked name folder).contents = (c.discard name folder.contents).1 := by
  cases folder <;> rfl

theorem make_unlinked {name : String} {folder : CacheFolder}
    (h : folder.make = .ok folder.contents) :
    (c.unlinked name folder).make = .ok (c.unlinked name folder).contents := by
  cases folder with
  | absent => rfl
  | present entries => rfl
  | _ => cases h

end RepoCache

/-- A folder in which what has the name of a record's file is one, and completely written. -/
structure WrittenFolder (entries : Entries) : Prop extends SoundFolder entries where
  written : ∀ entry ∈ entries, isRecordName entry.1 = true →
    ∃ (r : CacheRecord) (modified : Binary64),
      r.Timed ∧ recordName r.key = entry.1 ∧ entry.2 = .file r.toBytes modified

namespace WrittenFolder

variable {entries : Entries} {name : String}

theorem filter (h : WrittenFolder entries) (p : String × DiskNode → Bool) :
    WrittenFolder (entries.filter p) :=
  ⟨h.toSoundFolder.filter p, fun entry hmem => h.written entry (List.mem_of_mem_filter hmem)⟩

theorem set (h : WrittenFolder entries) {node : DiskNode} (hpossible : nameFault? name = none)
    (hwritten : isRecordName name = true → ∃ (r : CacheRecord) (modified : Binary64),
      r.Timed ∧ recordName r.key = name ∧ node = .file r.toBytes modified) :
    WrittenFolder (Table.set name node entries) where
  distinct := by
    rw [Table.map_fst_set]
    exact Text.nodup_addNew h.distinct
  possible := by
    intro entry hmem
    rcases Table.mem_set hmem with rfl | hmem
    · exact hpossible
    · exact h.possible entry hmem
  written := by
    intro entry hmem hname
    rcases Table.mem_set hmem with rfl | hmem
    · exact hwritten hname
    · exact h.written entry hmem hname

theorem discard (h : WrittenFolder entries) (c : RepoCache) (name : String) :
    WrittenFolder (c.discard name entries).1 := by
  rcases c.discard_fst_cases name entries with heq | heq
  · rwa [heq]
  · rw [heq]
    exact h.filter _

theorem files (h : WrittenFolder entries) : FilesUnder (isRecordName · = true) entries := by
  intro entry hmem hname
  obtain ⟨r, modified, -, -, hnode⟩ := h.written entry hmem hname
  exact ⟨_, _, hnode⟩

theorem not_nested (h : WrittenFolder entries) {entry : String × DiskNode} (hmem : entry ∈ entries)
    (hname : isRecordName entry.1 = true) {bytes : List UInt8} {modified : Binary64}
    (hnode : entry.2 = .file bytes modified) : ¬CacheRecord.Nested bytes := by
  obtain ⟨r, _, htimed, -, hfile⟩ := h.written entry hmem hname
  rw [hnode] at hfile
  obtain ⟨hbytes, -⟩ := DiskNode.file.inj hfile
  rw [hbytes]
  exact CacheRecord.not_nested_toBytes htimed

theorem legible (h : WrittenFolder entries) : LegibleFolder entries :=
  ⟨h.toSoundFolder, h.files, fun _ hmem hname _ _ hnode => h.not_nested hmem hname hnode⟩

end WrittenFolder

@[simp]
theorem CacheFolder.contents_present (entries : Entries) :
    (present entries).contents = entries := rfl

namespace PutStage

/-- Whether the file of the record has been put in its place. -/
def hasReplaced : PutStage → Bool
  | .begins | .made | .created | .written => false
  | .replaced | .cleans _ | .ended _ => true

end PutStage

namespace CacheClients

/-- Whether the record is one to store, and its file has a name of its own until it is complete. -/
structure Ready (c : CacheClients) : Prop where
  key : IsRecordKey c.record.key
  timed : c.record.Timed
  temporary : ∃ tag, c.temporary = ".tmp-" ++ tag ++ ".part"
  possible : nameFault? c.temporary = none

/-- Whether neither client has begun, in a folder whose records were completely written. -/
structure Starts (c : CacheClients) (before : Entries) (w : SharedCache) : Prop
    extends Ready c where
  get : w.get = .begins
  put : w.put = .begins
  folder : w.folder.make = .ok before
  held : WrittenFolder before
  fresh : c.temporary ∉ before.map Prod.fst

/-- What stands under the temporary name. -/
def besideAt (c : CacheClients) : PutStage → Option DiskNode
  | .created => some (.file [] c.stamp)
  | .written => some c.stored
  | _ => none

/-- What holds of the folder as far as the client has come that stores the record. -/
structure FolderSound (c : CacheClients) (w : SharedCache) : Prop where
  held : WrittenFolder w.folder.contents
  usable : w.folder.make = .ok w.folder.contents
  present : w.put ≠ .begins → w.folder = .present w.folder.contents
  beside : Table.get? c.temporary w.folder.contents = c.besideAt w.put
  result : ∀ result, w.put = .ended result → result = .ok ()

namespace Ready

variable {c : CacheClients}

theorem temporary_ne (h : c.Ready) (key : String) : c.temporary ≠ recordName key := by
  obtain ⟨tag, htag⟩ := h.temporary
  rw [htag]
  exact Sound.temporary_ne_recordName tag key

theorem not_isRecordName_temporary (h : c.Ready) : isRecordName c.temporary ≠ true := fun hname =>
  h.temporary_ne _ (recordName_of_isRecordName hname).symm

end Ready

namespace FolderSound

variable {c : CacheClients} {w next : SharedCache} {move : ClientMove}

theorem contents_of_make {folder : CacheFolder} {entries : Entries}
    (h : folder.make = .ok entries) : folder.contents = entries := by
  cases folder with
  | absent => exact Except.ok.inj h
  | present held => exact Except.ok.inj h
  | _ => cases h

theorem of_starts {before : Entries} (h : c.Starts before w) : c.FolderSound w where
  held := by
    rw [contents_of_make h.folder]
    exact h.held
  usable := by rw [contents_of_make h.folder, h.folder]
  present := fun hput => absurd h.put hput
  beside := by
    rw [contents_of_make h.folder, h.put]
    exact Table.get?_eq_none_iff.mpr h.fresh
  result := by simp [h.put]

/-- A folder stays sound when the file of a record is removed. -/
theorem unlinked (hready : c.Ready) (h : c.FolderSound w) (cache : RepoCache) (key : String) :
    c.FolderSound { w with folder := cache.unlinked (recordName key) w.folder } where
  held := by
    rw [RepoCache.contents_unlinked]
    exact h.held.discard cache _
  usable := RepoCache.make_unlinked h.usable
  present := by
    intro hput
    rw [RepoCache.contents_unlinked, h.present hput]
    rfl
  beside := by
    rw [RepoCache.contents_unlinked, RepoCache.get?_discard (hready.temporary_ne key)]
    exact h.beside
  result := h.result

theorem get?_unlinked (hready : c.Ready) (h : c.FolderSound w) (cache : RepoCache) :
    Table.get? c.file (cache.unlinked c.file w.folder).contents = none := by
  have hdiscard := h.held.files.discard_fst cache hready.key.isRecordName
  rw [RepoCache.contents_unlinked, file, hdiscard]
  exact get?_setEntry_none

/-- A folder stays sound when a file is written under the temporary name. -/
theorem putBeside (hready : c.Ready) (h : c.FolderSound w) {entries : Entries}
    (hfolder : w.folder = .present entries) {node : DiskNode} {stage : PutStage}
    (hbeside : c.besideAt stage = some node) (hstage : ∀ result, stage ≠ .ended result) :
    c.FolderSound { w with
      folder := .present (DiskNode.setEntry c.temporary (some node) entries)
      put := stage } where
  held := by
    have hheld := h.held
    rw [hfolder] at hheld
    exact hheld.set hready.possible fun hname => absurd hname hready.not_isRecordName_temporary
  usable := rfl
  present := fun _ => rfl
  beside := (Table.get?_set_self _ _ _).trans hbeside.symm
  result := fun result hended => absurd hended (hstage result)

/-- Each step of a client leaves the folder sound. -/
theorem step (hready : c.Ready) (h : c.FolderSound w) (hstep : c.Step w move next) :
    c.FolderSound next := by
  cases hstep with
  | read hget => exact ⟨h.held, h.usable, h.present, h.beside, h.result⟩
  | decide now hget => exact ⟨h.held, h.usable, h.present, h.beside, h.result⟩
  | unlink hget =>
      have hleft := h.unlinked hready c.reader c.record.key
      exact ⟨hleft.held, hleft.usable, hleft.present, hleft.beside, hleft.result⟩
  | make hput hmake =>
      obtain rfl := contents_of_make hmake
      refine ⟨h.held, rfl, fun _ => rfl, ?_, by simp⟩
      simpa [hput, besideAt] using h.beside
  | create hput hfolder => exact h.putBeside hready hfolder rfl (by simp)
  | write hput hfolder => exact h.putBeside hready hfolder rfl (by simp)
  | @replace entries node hput hfolder hnode hplace =>
      have hheld := h.held
      have hbeside := h.beside
      rw [hfolder] at hheld hbeside
      obtain rfl : node = c.stored := by simpa [hput, besideAt, hnode] using hbeside
      have hkept := hheld.filter (·.1 != c.temporary)
      refine ⟨hkept.set hready.key.nameFault? fun _ => ?_, rfl, fun _ => rfl, ?_, by simp⟩
      · exact ⟨c.record, c.stamp, hready.timed, rfl, rfl⟩
      · change Table.get? c.temporary (Table.set c.file c.stored
          (DiskNode.setEntry c.temporary none entries)) = none
        rw [Table.get?_set, file, if_neg (hready.temporary_ne _).symm]
        exact get?_setEntry_none
  | scan now hput hfolder =>
      have hheld := h.held
      rw [hfolder] at hheld
      obtain ⟨found, hfound, -⟩ := RepoCache.summaries_tellsAll c.writer now hheld.legible
      rw [CacheFolder.contents_present] at hfound
      rw [hfound]
      refine ⟨h.held, h.usable, fun _ => h.present (by simp [hput]), ?_, by simp [RepoCache.plan]⟩
      simpa [hput, besideAt, RepoCache.plan] using h.beside
  | @evict key keys hput =>
      have hleft := h.unlinked hready c.writer key
      refine ⟨hleft.held, hleft.usable, fun _ => hleft.present (by simp [hput]), ?_, by simp⟩
      simpa [hput, besideAt] using hleft.beside
  | finish hput =>
      refine ⟨h.held, h.usable, fun _ => h.present (by simp [hput]), ?_, by simp⟩
      simpa [hput, besideAt] using h.beside

/-- Under the name of the record nothing stands, or the file of a record that can be read. -/
theorem read_cases (hready : c.Ready) (h : c.FolderSound w) :
    (Table.get? c.file w.folder.contents = none ∧ w.folder.read c.file = .error .missing) ∨
      ∃ (r : CacheRecord) (modified : Binary64), r.Timed ∧ r.key = c.record.key ∧
        Table.get? c.file w.folder.contents = some (.file r.toBytes modified) ∧
          w.folder.read c.file = .ok r.toBytes := by
  have husable := h.usable
  have hheld := h.held
  cases hfolder : w.folder with
  | absent => exact .inl ⟨rfl, rfl⟩
  | present entries =>
      rw [hfolder] at hheld
      cases hget : Table.get? c.file entries with
      | none =>
          have hstat := stat_of_none (recordName_ne_parent _) hready.key.nameFault? hget
          refine .inl ⟨hget, ?_⟩
          simp only [CacheFolder.read, DiskNode.read, file, hstat]
      | some node =>
          obtain ⟨r, modified, htimed, hname, hnode⟩ :=
            hheld.written _ (Table.mem_of_get? hget) hready.key.isRecordName
          obtain rfl : node = .file r.toBytes modified := hnode
          exact .inr ⟨r, modified, htimed, recordName_inj hname, hget,
            RepoCache.read_of_get? hready.key hget⟩
  | occupied =>
      rw [hfolder] at husable
      cases husable
  | unreachable fault =>
      rw [hfolder] at husable
      cases husable

end FolderSound

/-- Whether a record was completely written under the key: it is the one that is stored, or
the one that was there before. -/
def Complete (c : CacheClients) (before : Entries) (r : CacheRecord) : Prop :=
  r = c.record ∨ r.Timed ∧ r.key = c.record.key ∧
    ∃ modified, Table.get? c.file before = some (.file r.toBytes modified)

theorem Complete.timed {c : CacheClients} {before : Entries} {r : CacheRecord} (hready : c.Ready)
    (h : c.Complete before r) : r.Timed := by
  rcases h with rfl | ⟨htimed, -⟩
  · exact hready.timed
  · exact htimed

/-- Whether a record is the one that has been read. Once another has taken its place it is
that one, or it was read before. -/
structure Seen (c : CacheClients) (before : Entries) (moves : List ClientMove) (w : SharedCache)
    (r : CacheRecord) : Prop where
  complete : c.Complete before r
  read : .read ∈ moves
  order : w.put.hasReplaced = true → r = c.record ∨ [.read, .replace].Sublist moves

/-- Whether the file of a record is replaced between the time when a client reads it and the
time when that client removes it. -/
def Overtaken (moves : List ClientMove) : Prop :=
  [.read, .replace, .unlink].Sublist moves

instance : DecidablePred Overtaken := fun moves =>
  inferInstanceAs (Decidable ([.read, .replace, .unlink].Sublist moves))

/-- Whether the file of the stored record has been removed, and why: it did not count for the
client that removed it, or the client had read what stood there before. -/
structure Removed (c : CacheClients) (moves : List ClientMove) (w : SharedCache) : Prop where
  get : w.get = .ended (.ok none)
  gone : Table.get? c.file w.folder.contents = none
  cause : Overtaken moves ∨
    ∃ now, .decide now ∈ moves ∧ c.reader.holdsCurrent now c.record.toBytes = false

/-- What holds of the two clients after some steps. -/
structure Tracked (c : CacheClients) (before : Entries) (moves : List ClientMove)
    (w : SharedCache) : Prop where
  sound : c.FolderSound w
  old : w.put.hasReplaced = false → ∀ node,
    Table.get? c.file w.folder.contents = some node → Table.get? c.file before = some node
  holding : ∀ bytes, w.get = .holds bytes → ∃ r, c.Seen before moves w r ∧ bytes = r.toBytes
  unlinking : w.get = .unlinks → ∃ r now, c.Seen before moves w r ∧ .decide now ∈ moves ∧
    c.reader.holdsCurrent now r.toBytes = false
  answered : ∀ result, w.get = .ended result → ∃ answer, result = .ok answer ∧
    ∀ found, answer = some found → ∃ r now, c.Complete before r ∧ .decide now ∈ moves ∧
      c.reader.holdsCurrent now r.toBytes = true ∧
        CacheRecord.ofJson c.record.key r.toJson = .ok (some found)
  kept : w.put.hasReplaced = true →
    Table.get? c.file w.folder.contents = some c.stored ∨ c.Removed moves w

namespace Seen

variable {c : CacheClients} {before : Entries} {moves : List ClientMove} {w next : SharedCache}
  {r : CacheRecord}

theorem later (h : c.Seen before moves w r) (move : ClientMove)
    (hput : next.put.hasReplaced = w.put.hasReplaced) :
    c.Seen before (moves ++ [move]) next r where
  complete := h.complete
  read := List.mem_append_left _ h.read
  order := fun hreplaced =>
    (h.order (hput ▸ hreplaced)).imp_right fun hsub => hsub.trans (List.sublist_append_left _ _)

/-- What was read before the record is replaced was read before. -/
theorem replaced (h : c.Seen before moves w r) :
    c.Seen before (moves ++ [.replace]) next r where
  complete := h.complete
  read := List.mem_append_left _ h.read
  order := fun _ => .inr ((List.singleton_sublist.mpr h.read).append (List.Sublist.refl _))

end Seen

namespace Tracked

variable {c : CacheClients} {before : Entries} {moves : List ClientMove} {w next : SharedCache}

theorem of_starts (h : c.Starts before w) : c.Tracked before [] w where
  sound := .of_starts h
  old := by
    intro _ node hnode
    rwa [FolderSound.contents_of_make h.folder] at hnode
  holding := by simp [h.get]
  unlinking := by simp [h.get]
  answered := by simp [h.get]
  kept := by simp [h.put, PutStage.hasReplaced]

/-- A step of the client that stores leaves what is known of the other one. -/
theorem later (h : c.Tracked before moves w) (move : ClientMove) (hsound : c.FolderSound next)
    (hget : next.get = w.get)
    (hseen : ∀ r, c.Seen before moves w r → c.Seen before (moves ++ [move]) next r)
    (hold : next.put.hasReplaced = false → ∀ node,
      Table.get? c.file next.folder.contents = some node → Table.get? c.file before = some node)
    (hkept : next.put.hasReplaced = true →
      Table.get? c.file next.folder.contents = some c.stored ∨
        c.Removed (moves ++ [move]) next) :
    c.Tracked before (moves ++ [move]) next where
  sound := hsound
  old := hold
  holding := by
    intro bytes hbytes
    obtain ⟨r, hread, heq⟩ := h.holding bytes (hget ▸ hbytes)
    exact ⟨r, hseen r hread, heq⟩
  unlinking := by
    intro hunlinks
    obtain ⟨r, now, hread, hmem, hstale⟩ := h.unlinking (hget ▸ hunlinks)
    exact ⟨r, now, hseen r hread, List.mem_append_left _ hmem, hstale⟩
  answered := by
    intro result hended
    obtain ⟨answer, hresult, hfound⟩ := h.answered result (hget ▸ hended)
    refine ⟨answer, hresult, fun found heq => ?_⟩
    obtain ⟨r, now, hcomplete, hmem, hcounts⟩ := hfound found heq
    exact ⟨r, now, hcomplete, List.mem_append_left _ hmem, hcounts⟩
  kept := hkept

/-- A step that leaves the file of the record and the other client alone. -/
theorem elsewhere (h : c.Tracked before moves w) (move : ClientMove) (hsound : c.FolderSound next)
    (hget : next.get = w.get) (hput : next.put.hasReplaced = w.put.hasReplaced)
    (hfile : Table.get? c.file next.folder.contents = Table.get? c.file w.folder.contents) :
    c.Tracked before (moves ++ [move]) next := by
  refine h.later move hsound hget (fun r hseen => hseen.later move hput) ?_ ?_
  · rw [hput, hfile]
    exact h.old
  · intro hreplaced
    rw [hfile]
    refine (h.kept (hput ▸ hreplaced)).imp_right fun hremoved => ?_
    refine ⟨hget.trans hremoved.get, hfile.trans hremoved.gone, ?_⟩
    exact hremoved.cause.imp (fun hsub => hsub.trans (List.sublist_append_left _ _))
      fun ⟨now, hmem, hstale⟩ => ⟨now, List.mem_append_left _ hmem, hstale⟩

/-- As long as a client has not ended that asks, the file that was put in its place is there. -/
theorem get?_of_replaced (h : c.Tracked before moves w) (hreplaced : w.put.hasReplaced = true)
    (hget : ∀ result, w.get ≠ .ended result) :
    Table.get? c.file w.folder.contents = some c.stored :=
  (h.kept hreplaced).resolve_right fun hremoved => hget _ hremoved.get

/-- What is read is the stored record if its file has been put in its place, else the one
that was there before. -/
theorem read (hready : c.Ready) (h : c.Tracked before moves w) (hget : w.get = .begins) :
    c.Tracked before (moves ++ [.read]) { w with get := .ofRead (w.folder.read c.file) } := by
  have hsound := h.sound.step hready (.read hget)
  have hplaced : w.put.hasReplaced = true →
      Table.get? c.file w.folder.contents = some c.stored := fun hreplaced =>
    h.get?_of_replaced hreplaced (by simp [hget])
  rcases h.sound.read_cases hready with ⟨-, hread⟩ | ⟨r, modified, htimed, hkey, hfile, hread⟩
  · rw [hread] at hsound ⊢
    refine ⟨hsound, h.old, by simp [GetStage.ofRead], by simp [GetStage.ofRead], ?_, ?_⟩
    · intro result hended
      exact ⟨none, (GetStage.ended.inj hended).symm, by simp⟩
    · exact fun hreplaced => .inl (hplaced hreplaced)
  · have hmem : ClientMove.read ∈ moves ++ [.read] := by simp
    have hseen : ∃ seen, c.Seen before (moves ++ [.read]) { w with get := .holds r.toBytes } seen ∧
        r.toBytes = seen.toBytes := by
      cases hreplaced : w.put.hasReplaced with
      | true =>
          rw [hplaced hreplaced, stored, Option.some.injEq] at hfile
          exact ⟨c.record, ⟨.inl rfl, hmem, fun _ => .inl rfl⟩, (DiskNode.file.inj hfile).1.symm⟩
      | false =>
          have hbefore := h.old hreplaced _ hfile
          refine ⟨r, ⟨.inr ⟨htimed, hkey, modified, hbefore⟩, hmem, fun habsurd => ?_⟩, rfl⟩
          exact absurd (hreplaced.symm.trans habsurd) (by simp)
    rw [hread] at hsound ⊢
    refine ⟨hsound, h.old, ?_, by simp [GetStage.ofRead], by simp [GetStage.ofRead], ?_⟩
    · intro bytes hholds
      obtain ⟨seen, hseen, heq⟩ := hseen
      exact ⟨seen, hseen, (GetStage.holds.inj hholds).symm.trans heq⟩
    · exact fun hreplaced => .inl (hplaced hreplaced)

theorem decide (hready : c.Ready) (h : c.Tracked before moves w) {bytes : List UInt8}
    (now : Binary64) (hget : w.get = .holds bytes) :
    c.Tracked before (moves ++ [.decide now])
      { w with get := c.reader.verdict now c.record.key bytes } := by
  have hsound := h.sound.step hready (.decide now hget)
  have hplaced : w.put.hasReplaced = true →
      Table.get? c.file w.folder.contents = some c.stored := fun hreplaced =>
    h.get?_of_replaced hreplaced (by simp [hget])
  have hmem : ClientMove.decide now ∈ moves ++ [.decide now] := by simp
  obtain ⟨r, hseen, hbytes⟩ := h.holding bytes hget
  have hverdict := RepoCache.verdict_toBytes (hseen.complete.timed hready) c.reader now c.record.key
  rw [← hbytes] at hverdict
  rcases hverdict with ⟨hstale, hverdict⟩ | ⟨hcounts, found, hfound, hverdict⟩
  · rw [hverdict] at hsound ⊢
    refine ⟨hsound, h.old, by simp, ?_, by simp, fun hreplaced => .inl (hplaced hreplaced)⟩
    exact fun _ => ⟨r, now, hseen.later _ rfl, hmem, hbytes ▸ hstale⟩
  · rw [hverdict] at hsound ⊢
    refine ⟨hsound, h.old, by simp, by simp, ?_, fun hreplaced => .inl (hplaced hreplaced)⟩
    intro result hended
    refine ⟨some found, (GetStage.ended.inj hended).symm, fun other heq => ?_⟩
    obtain rfl := Option.some.inj heq
    exact ⟨r, now, hseen.complete, hmem, hbytes ▸ hcounts, hfound⟩

/-- A record that has been stored is removed because it did not count, or because the client
that removes it had read another one. -/
theorem unlink (hready : c.Ready) (h : c.Tracked before moves w) (hget : w.get = .unlinks) :
    c.Tracked before (moves ++ [.unlink])
      { w with folder := c.reader.unlinked c.file w.folder, get := .ended (.ok none) } := by
  have hgone := h.sound.get?_unlinked hready c.reader
  refine ⟨h.sound.step hready (.unlink hget), ?_, by simp, by simp, ?_, ?_⟩
  · intro _ node hnode
    rw [hgone] at hnode
    cases hnode
  · intro result hended
    exact ⟨none, (GetStage.ended.inj hended).symm, by simp⟩
  · intro hreplaced
    obtain ⟨r, now, hseen, hmem, hstale⟩ := h.unlinking hget
    refine .inr ⟨rfl, hgone, ?_⟩
    rcases hseen.order hreplaced with rfl | hsub
    · exact .inr ⟨now, List.mem_append_left _ hmem, hstale⟩
    · exact .inl (List.Sublist.append hsub (List.Sublist.refl [ClientMove.unlink]))

theorem replace (hready : c.Ready) (h : c.Tracked before moves w) {entries : Entries}
    {node : DiskNode} (hput : w.put = .written) (hfolder : w.folder = .present entries)
    (hnode : Table.get? c.temporary entries = some node)
    (hplace : c.writer.replaceTrouble c.temporary c.file entries = none) :
    c.Tracked before (moves ++ [.replace]) { w with
      folder := .present (DiskNode.setEntry c.file (some node)
        (DiskNode.setEntry c.temporary none entries))
      put := .replaced } := by
  have hstored : node = c.stored := by
    have hbeside := h.sound.beside
    simpa [hfolder, hput, besideAt, hnode] using hbeside
  have hsound := h.sound.step hready (.replace hput hfolder hnode hplace)
  refine h.later .replace hsound rfl (fun r hseen => hseen.replaced) ?_ ?_
  · simp [PutStage.hasReplaced]
  · intro _
    rw [hstored]
    exact .inl (Table.get?_set_self _ _ _)

/-- Every step keeps track, but one of the put that removes the record itself. -/
theorem step (hready : c.Ready) (h : c.Tracked before moves w) {move : ClientMove}
    (hstep : c.Step w move next) (hkept : move ≠ .evict c.record.key) :
    c.Tracked before (moves ++ [move]) next := by
  have hsound := h.sound.step hready hstep
  cases hstep with
  | read hget => exact h.read hready hget
  | decide now hget => exact h.decide hready now hget
  | unlink hget => exact h.unlink hready hget
  | make hput hmake =>
      refine h.elsewhere _ hsound rfl (by simp [hput, PutStage.hasReplaced]) ?_
      rw [FolderSound.contents_of_make hmake]
      rfl
  | create hput hfolder =>
      refine h.elsewhere _ hsound rfl (by simp [hput, PutStage.hasReplaced]) ?_
      simp [hfolder, DiskNode.setEntry, Table.get?_set, hready.temporary_ne, file]
  | write hput hfolder =>
      refine h.elsewhere _ hsound rfl (by simp [hput, PutStage.hasReplaced]) ?_
      simp [hfolder, DiskNode.setEntry, Table.get?_set, hready.temporary_ne, file]
  | replace hput hfolder hnode hplace => exact h.replace hready hput hfolder hnode hplace
  | @scan entries now hput hfolder =>
      refine h.elsewhere _ hsound rfl ?_ rfl
      simp only [hput]
      cases c.writer.summaries now entries <;> rfl
  | @evict key keys hput =>
      refine h.elsewhere _ hsound rfl (by simp [hput, PutStage.hasReplaced]) ?_
      rw [RepoCache.contents_unlinked, RepoCache.get?_discard]
      intro hsame
      exact hkept (congrArg ClientMove.evict (recordName_inj hsame).symm)
  | finish hput => exact h.elsewhere _ hsound rfl (by simp [hput, PutStage.hasReplaced]) rfl

/-- Whatever the order of the steps, they keep track. -/
theorem of_run (hstart : c.Starts before w) (hrun : c.Run w moves next)
    (hkept : .evict c.record.key ∉ moves) : c.Tracked before moves next := by
  induction hrun with
  | done => exact .of_starts hstart
  | move _ hstep ih =>
      rw [List.mem_append, not_or, List.mem_singleton] at hkept
      exact (ih hkept.1).step hstart.toReady hstep (Ne.symm hkept.2)

end Tracked

end CacheClients

end RepoAtlas
