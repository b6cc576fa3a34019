import RepoAtlas.Proofs.Cache.Cleanup

/-!
Two clients of one cache folder, of which one asks for the record under a key while the
other stores one there. Each goes on in steps, and between two of its steps the other one
may take any number of its own. A client alone does what asking and storing do at once.
-/
namespace RepoAtlas

/-- What a folder holds, which is nothing if it is not there. -/
def CacheFolder.contents : CacheFolder → Entries
  | .present entries => entries
  | _ => []

/-- How far a client has come that asks for a record. -/
inductive GetStage where
  | begins
  | holds (bytes : List UInt8)
  /-- It has decided to remove the file of the record. -/
  | unlinks
  | ended (result : Except Unexpected (Option CacheRecord))

/-- How far a client has come that stores a record. -/
inductive PutStage where
  | begins
  | made
  | created
  | written
  | replaced
  /-- The records under these keys have to go. -/
  | cleans (keys : List String)
  | ended (result : Except Unexpected Unit)

/-- The steps of the two clients; where one looks at the clock, the step tells the time. -/
inductive ClientMove where
  | read
  | decide (now : Binary64)
  | unlink
  | make
  | create
  | write
  | replace
  | scan (now : Binary64)
  | evict (key : String)
  | finish
deriving Repr, DecidableEq

/-- A folder, and how far the two clients have come that use it. -/
structure SharedCache where
  folder : CacheFolder
  get : GetStage := .begins
  put : PutStage := .begins

/-- Whether both clients have ended. -/
structure SharedCache.Ended (w : SharedCache) : Prop where
  get : ∃ result, w.get = .ended result
  put : ∃ result, w.put = .ended result

/-- Two clients of one folder: the record that one of them stores is the one under the key
that the other asks for. They may have been opened with different settings. -/
structure CacheClients where
  reader : RepoCache
  writer : RepoCache
  record : CacheRecord
  /-- The time that the file system gives to the file of the record. -/
  stamp : Binary64
  /-- The name that the file has until it is complete. -/
  temporary : String

namespace RepoCache

/-- What a client does with the bytes of a record's file. -/
def verdict (c : RepoCache) (now : Binary64) (key : String) (bytes : List UInt8) : GetStage :=
  match CacheRecord.document bytes with
  | .error corrupt =>
    match CacheRecord.tooDeep? corrupt with
    | some failure => .ended (.error failure)
    | none => .unlinks
  | .ok document =>
    if CacheRecord.isCurrent c.version now document then
      match CacheRecord.ofJson key document with
      | .error failure => .ended (.error failure)
      | .ok none => .unlinks
      | .ok (some record) => .ended (.ok (some record))
    else .unlinks

/-- A folder without a file, if it can be removed. -/
def unlinked (c : RepoCache) (name : String) : CacheFolder → CacheFolder
  | .present entries => .present (c.discard name entries).1
  | folder => folder

/-- What is to be removed, once it is known what the folder holds. -/
def plan (c : RepoCache) : Except Unexpected (List RecordSummary) → PutStage
  | .ok found => .cleans ((planEvictions c.maxBytes found).mergeSort fun a b => a ≤ b)
  | .error failure => .ended (.error failure)

end RepoCache

/-- What has come of reading a file. -/
def GetStage.ofRead : Except FileFault (List UInt8) → GetStage
  | .ok bytes => .holds bytes
  | .error .nullCharacter => .ended (.error (FileFault.nullCharacter.unexpected ""))
  | .error _ => .ended (.ok none)

namespace CacheClients

/-- The name of the file that both clients use. -/
def file (c : CacheClients) : String :=
  recordName c.record.key

/-- The file of the record when it is complete. -/
def stored (c : CacheClients) : DiskNode :=
  .file c.record.toBytes c.stamp

/-- A step of one of two clients. -/
inductive Step (c : CacheClients) : SharedCache → ClientMove → SharedCache → Prop where
  | read {w : SharedCache} (hget : w.get = .begins) :
      Step c w .read { w with get := .ofRead (w.folder.read c.file) }
  | decide {w : SharedCache} {bytes : List UInt8} (now : Binary64) (hget : w.get = .holds bytes) :
      Step c w (.decide now) { w with get := c.reader.verdict now c.record.key bytes }
  | unlink {w : SharedCache} (hget : w.get = .unlinks) :
      Step c w .unlink
        { w with folder := c.reader.unlinked c.file w.folder, get := .ended (.ok none) }
  | make {w : SharedCache} {entries : Entries} (hput : w.put = .begins)
      (hmake : w.folder.make = .ok entries) :
      Step c w .make { w with folder := .present entries, put := .made }
  | create {w : SharedCache} {entries : Entries} (hput : w.put = .made)
      (hfolder : w.folder = .present entries) :
      Step c w .create { w with
        folder := .present (DiskNode.setEntry c.temporary (some (.file [] c.stamp)) entries)
        put := .created }
  | write {w : SharedCache} {entries : Entries} (hput : w.put = .created)
      (hfolder : w.folder = .present entries) :
      Step c w .write { w with
        folder := .present (DiskNode.setEntry c.temporary (some c.stored) entries)
        put := .written }
  | replace {w : SharedCache} {entries : Entries} {node : DiskNode} (hput : w.put = .written)
      (hfolder : w.folder = .present entries)
      (hnode : Table.get? c.temporary entries = some node)
      (hplace : c.writer.replaceTrouble c.temporary c.file entries = none) :
      Step c w .replace { w with
        folder := .present (DiskNode.setEntry c.file (some node)
          (DiskNode.setEntry c.temporary none entries))
        put := .replaced }
  | scan {w : SharedCache} {entries : Entries} (now : Binary64) (hput : w.put = .replaced)
      (hfolder : w.folder = .present entries) :
      Step c w (.scan now) { w with put := c.writer.plan (c.writer.summaries now entries) }
  | evict {w : SharedCache} {key : String} {keys : List String}
      (hput : w.put = .cleans (key :: keys)) :
      Step c w (.evict key) { w with
        folder := c.writer.unlinked (recordName key) w.folder
        put := .cleans keys }
  | finish {w : SharedCache} (hput : w.put = .cleans []) :
      Step c w .finish { w with put := .ended (.ok ()) }

/-- Steps of two clients, one after another, in any order in which each can take its own. -/
inductive Run (c : CacheClients) : SharedCache → List ClientMove → SharedCache → Prop where
  | done (w : SharedCache) : Run c w [] w
  | move {start w next : SharedCache} {moves : List ClientMove} {move : ClientMove}
      (hrun : Run c start moves w) (hstep : Step c w move next) :
      Run c start (moves ++ [move]) next

variable {c : CacheClients} {start mid w : SharedCache} {moves more : List ClientMove}

theorem Run.trans (h : c.Run start moves mid) (h' : c.Run mid more w) :
    c.Run start (moves ++ more) w := by
  induction h' with
  | done => rwa [List.append_nil]
  | move _ hstep ih =>
      rw [← List.append_assoc]
      exact .move ih hstep

theorem Step.run {move : ClientMove} (h : c.Step start move w) : c.Run start [move] w :=
  (Run.done start).move h

end CacheClients

namespace RepoCache

variable {c : RepoCache} {folder : CacheFolder}

theorem miss_result (name : String) (report : LogRecord) :
    (c.miss folder name report).result = .ok none := by
  cases folder <;> rfl

theorem miss_folder (name : String) (report : LogRecord) :
    (c.miss folder name report).folder = c.unlinked name folder := by
  cases folder <;> rfl

/-- What a client does with bytes is to answer, or to remove the file they are from. -/
theorem judge_cases (now : Binary64) (location branch : String) (folder : CacheFolder)
    (bytes : List UInt8) :
    let judged := c.judge now location branch folder bytes
    (∃ result, c.verdict now (c.key location branch) bytes = .ended result ∧
        judged.result = result ∧ judged.folder = folder) ∨
      (c.verdict now (c.key location branch) bytes = .unlinks ∧ judged.result = .ok none ∧
        judged.folder = c.unlinked (recordName (c.key location branch)) folder) := by
  intro judged
  have hmiss (report : LogRecord) :
      (c.miss folder (recordName (c.key location branch)) report).result = .ok none ∧
        (c.miss folder (recordName (c.key location branch)) report).folder =
          c.unlinked (recordName (c.key location branch)) folder :=
    ⟨miss_result _ report, miss_folder _ report⟩
  unfold judged verdict judge
  cases CacheRecord.document bytes with
  | error corrupt =>
      cases hdeep : CacheRecord.tooDeep? corrupt with
      | some failure => simp [hdeep]
      | none => simpa [hdeep] using hmiss _
  | ok document =>
      cases hcurrent : CacheRecord.isCurrent c.version now document with
      | false => simpa [hcurrent] using hmiss _
      | true =>
          cases hrecord : CacheRecord.ofJson (c.key location branch) document with
          | error failure => simp [hcurrent, hrecord]
          | ok record? =>
              cases record? with
              | none => simpa [hcurrent, hrecord] using hmiss _
              | some record => simp [hcurrent, hrecord]

/-- Nothing hinders that a file is replaced. -/
theorem replaceTrouble_of_get? {temporary name : String} {entries : Entries}
    (h : ∀ node, Table.get? name entries = some node →
      ∃ bytes modified, node = .file bytes modified) :
    c.replaceTrouble temporary name entries = none := by
  rw [replaceTrouble]
  cases hold : Table.get? name entries with
  | none => rfl
  | some node =>
      obtain ⟨bytes, modified, rfl⟩ := h node hold
      rfl

end RepoCache

namespace CacheClients

variable {c : CacheClients} {w : SharedCache}

/-- A client that asks while the other one rests does what asking does. -/
theorem get_alone {location branch : String} (hkey : c.reader.key location branch = c.record.key)
    (hget : w.get = .begins) (now : Binary64) :
    let found := c.reader.get now location branch w.folder
    ∃ moves, c.Run w moves { w with folder := found.folder, get := .ended found.result } := by
  intro found
  have hfile : recordName (c.reader.key location branch) = c.file := by rw [hkey, file]
  have hfirst := (Step.read (c := c) hget).run
  cases hread : w.folder.read c.file with
  | error fault =>
      have hfound : GetStage.ofRead (.error fault) = .ended found.result ∧
          found.folder = w.folder := by
        simp only [found, RepoCache.get, hfile, hread]
        cases fault <;> exact ⟨rfl, rfl⟩
      refine ⟨[.read], ?_⟩
      rw [hread, hfound.1] at hfirst
      rwa [hfound.2]
  | ok bytes =>
      have hfound : found = c.reader.judge now location branch w.folder bytes := by
        simp only [found, RepoCache.get, hfile, hread]
      rw [hread] at hfirst
      have hdecided := hfirst.trans (Step.decide now rfl).run
      rw [hfound]
      rcases c.reader.judge_cases now location branch w.folder bytes with
        ⟨result, hverdict, hresult, hfolder⟩ | ⟨hverdict, hresult, hfolder⟩
      · rw [hkey] at hverdict
        rw [hverdict] at hdecided
        refine ⟨[.read] ++ [.decide now], ?_⟩
        rwa [hresult, hfolder]
      · rw [hkey] at hverdict
        rw [hverdict] at hdecided
        refine ⟨[.read] ++ [.decide now] ++ [.unlink], ?_⟩
        rw [hresult, hfolder, hfile]
        exact hdecided.trans (Step.unlink rfl).run

/-- A client that cleans up while the other one rests removes what it has planned to. -/
theorem cleans_alone (keys : List String) (entries : Entries) (reports : List LogRecord)
    (get : GetStage) :
    c.Run ⟨.present entries, get, .cleans keys⟩ (keys.map .evict ++ [.finish])
      ⟨.present (keys.foldl c.writer.evictOne (entries, reports)).1, get, .ended (.ok ())⟩ := by
  induction keys generalizing entries reports with
  | nil => exact (Step.finish rfl).run
  | cons key keys ih =>
      have hrest := ih (c.writer.discard (recordName key) entries).1
        (c.writer.evictOne (entries, reports) key).2
      exact (Step.evict rfl).run.trans hrest

/-- A client that writes a file while the other one rests puts it in its place. -/
theorem write_alone {entries : Entries} (hput : w.put = .made)
    (hfolder : w.folder = .present entries) (hfiles : FilesUnder (· = c.file) entries)
    (htemporary : c.temporary ≠ c.file) (hfresh : c.temporary ∉ entries.map Prod.fst) :
    c.Run w [.create, .write, .replace]
      { w with folder := .present (Table.set c.file c.stored entries), put := .replaced } := by
  let created := DiskNode.setEntry c.temporary (some (.file [] c.stamp)) entries
  let written := DiskNode.setEntry c.temporary (some c.stored) created
  have hplace : c.writer.replaceTrouble c.temporary c.file written = none := by
    apply RepoCache.replaceTrouble_of_get?
    intro node hnode
    apply hfiles.file_of_get? rfl
    rw [← hnode]
    simp [written, created, DiskNode.setEntry, Table.get?_set, htemporary]
  have hleft : DiskNode.setEntry c.file (some c.stored) (DiskNode.setEntry c.temporary none
      written) = Table.set c.file c.stored entries := by
    simp only [written, created, DiskNode.setEntry, Table.filter_ne_set,
      Table.filter_ne_of_not_mem hfresh]
  have hcreated := (Step.create (c := c) hput hfolder).run
  have hwritten := hcreated.trans (Step.write rfl rfl).run
  have hreplaced := hwritten.trans
    (Step.replace rfl rfl (Table.get?_set_self _ _ _) hplace).run
  rw [← hleft]
  exact hreplaced

/-- A client that stores while the other one rests does what storing does without trouble. -/
theorem put_alone {entries : Entries} (hput : w.put = .begins) (hmake : w.folder.make = .ok entries)
    (hfiles : FilesUnder (· = c.file) entries) (htemporary : c.temporary ≠ c.file)
    (hfresh : c.temporary ∉ entries.map Prod.fst) (now : Binary64) :
    let context : PutContext := { now, stamp := c.stamp, temporary := c.temporary }
    let stored := c.writer.putRecord context c.record w.folder
    ∃ moves, c.Run w moves { w with folder := stored.folder, put := .ended stored.result } := by
  intro context stored
  let left := Table.set c.file c.stored entries
  have hwrite : c.writer.writeRecord context c.file c.record.toBytes entries = (left, none) :=
    hfiles.writeRecord_eq c.writer (fun _ => rfl) rfl htemporary hfresh c.record.toBytes
  have hwrites : c.writer.Writes context c.record w.folder left := ⟨rfl, entries, hmake, hwrite⟩
  have hmade := (Step.make (c := c) hput hmake).run
  have hreplaced := hmade.trans (write_alone rfl rfl hfiles htemporary hfresh)
  have hscanned := hreplaced.trans (Step.scan now rfl rfl).run
  cases hfound : c.writer.summaries now left with
  | error failure =>
      have hevict : c.writer.evict now left = .error failure := by
        rw [RepoCache.evict, hfound]
        rfl
      obtain ⟨hfolder, hresult⟩ := RepoCache.putRecord_of_evict_error hwrites hevict
      rw [hfound] at hscanned
      rw [hfolder, hresult]
      exact ⟨_, hscanned⟩
  | ok found =>
      have hevict : c.writer.evict now left = .ok (((planEvictions c.writer.maxBytes
          found).mergeSort fun a b => a ≤ b).foldl c.writer.evictOne (left, [])) := by
        rw [RepoCache.evict, hfound]
        rfl
      rw [hfound] at hscanned
      rw [RepoCache.putRecord_folder_of_evict hwrites hevict,
        RepoCache.putRecord_ok_of_evict hwrites hevict]
      exact ⟨_, hscanned.trans (cleans_alone _ left [] w.get)⟩

end CacheClients

end RepoAtlas
