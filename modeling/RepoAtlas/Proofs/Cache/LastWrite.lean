import RepoAtlas.Proofs.Cache.Interleaving

/-!
What a get and a put of the same record come to, in whatever order they take their steps:
both end, and the last write stays unless the get removes it.
-/
namespace RepoAtlas

section Termination

/-- How many steps a client may still take that asks for a record. -/
def GetStage.rest : GetStage → Nat
  | .begins => 3
  | .holds _ => 2
  | .unlinks => 1
  | .ended _ => 0

/-- How far a client is from its end that stores a record, and how many files it removes. -/
def PutStage.rest : PutStage → Nat × Nat
  | .begins => (6, 0)
  | .made => (5, 0)
  | .created => (4, 0)
  | .written => (3, 0)
  | .replaced => (2, 0)
  | .cleans keys => (1, keys.length)
  | .ended _ => (0, 0)

theorem GetStage.rest_ofRead (found : Except FileFault (List UInt8)) :
    (GetStage.ofRead found).rest < 3 := by
  unfold ofRead
  split <;> simp [rest]

theorem RepoCache.rest_verdict (c : RepoCache) (now : Binary64) (key : String)
    (bytes : List UInt8) : (c.verdict now key bytes).rest < 2 := by
  unfold verdict
  repeat' split
  all_goals simp [GetStage.rest]

theorem RepoCache.rest_plan (c : RepoCache) (found : Except Unexpected (List RecordSummary)) :
    (c.plan found).rest.1 < 2 := by
  cases found <;> simp [plan, PutStage.rest]

namespace CacheClients

variable {c : CacheClients} {w next : SharedCache} {move : ClientMove}

/-- Whether two clients are nearer to their ends: the one that asks, or else the one that
stores, of which it counts first how far it has come. -/
def Nearer : Nat × Nat × Nat → Nat × Nat × Nat → Prop :=
  Prod.Lex (· < ·) (Prod.Lex (· < ·) (· < ·))

/-- A client that stores comes nearer to its end by every step to another stage. -/
theorem nearer_of_put (hget : next.get = w.get) (hput : next.put.rest.1 < w.put.rest.1) :
    Nearer (next.get.rest, next.put.rest) (w.get.rest, w.put.rest) := by
  rw [hget]
  exact .right _ (.left _ _ hput)

theorem nearer_of_step (h : c.Step w move next) :
    Nearer (next.get.rest, next.put.rest) (w.get.rest, w.put.rest) := by
  cases h with
  | read hget =>
      rw [hget]
      exact .left _ _ (GetStage.rest_ofRead _)
  | decide now hget =>
      rw [hget]
      exact .left _ _ (c.reader.rest_verdict now c.record.key _)
  | unlink hget =>
      rw [hget]
      exact .left _ _ Nat.zero_lt_one
  | make hput hmake => exact nearer_of_put rfl (by simp [hput, PutStage.rest])
  | create hput hfolder => exact nearer_of_put rfl (by simp [hput, PutStage.rest])
  | write hput hfolder => exact nearer_of_put rfl (by simp [hput, PutStage.rest])
  | replace hput hfolder hnode hplace => exact nearer_of_put rfl (by simp [hput, PutStage.rest])
  | scan now hput hfolder =>
      refine nearer_of_put rfl ?_
      rw [hput]
      exact c.writer.rest_plan _
  | evict hput =>
      rw [hput]
      exact .right _ (.right _ (by simp))
  | finish hput => exact nearer_of_put rfl (by simp [hput, PutStage.rest])

/-- No order of their steps keeps two clients going for ever. -/
theorem wellFounded_step (c : CacheClients) :
    WellFounded fun next w => ∃ move, c.Step w move next := by
  have hwf : WellFounded Nearer :=
    WellFounded.prod_lex Nat.lt_wfRel.wf (WellFounded.prod_lex Nat.lt_wfRel.wf Nat.lt_wfRel.wf)
  refine Subrelation.wf ?_
    (InvImage.wf (fun w : SharedCache => (w.get.rest, w.put.rest)) hwf)
  rintro next w ⟨move, hstep⟩
  exact nearer_of_step hstep

/-- A client that has not ended can take its next step. -/
theorem exists_step (hready : c.Ready) (h : c.FolderSound w) (hnot : ¬w.Ended) :
    ∃ move next, c.Step w move next := by
  cases hget : w.get with
  | begins => exact ⟨_, _, .read hget⟩
  | holds bytes => exact ⟨_, _, .decide .zero hget⟩
  | unlinks => exact ⟨_, _, .unlink hget⟩
  | ended found =>
      have hfolder (hput : w.put ≠ .begins) := h.present hput
      cases hput : w.put with
      | begins => exact ⟨_, _, .make hput h.usable⟩
      | made => exact ⟨_, _, .create hput (hfolder (by simp [hput]))⟩
      | created => exact ⟨_, _, .write hput (hfolder (by simp [hput]))⟩
      | written =>
          have hbeside : Table.get? c.temporary w.folder.contents = some c.stored := by
            rw [h.beside, hput]
            rfl
          have hplace : c.writer.replaceTrouble c.temporary c.file w.folder.contents = none := by
            apply RepoCache.replaceTrouble_of_get?
            intro node hnode
            exact h.held.files.file_of_get? hready.key.isRecordName hnode
          exact ⟨_, _, .replace hput (hfolder (by simp [hput])) hbeside hplace⟩
      | replaced => exact ⟨_, _, .scan .zero hput (hfolder (by simp [hput]))⟩
      | cleans keys =>
          cases keys with
          | nil => exact ⟨_, _, .finish hput⟩
          | cons key keys => exact ⟨_, _, .evict hput⟩
      | ended result => exact absurd ⟨⟨found, hget⟩, result, hput⟩ hnot

/-- However far two clients have come, both can go on to their ends. -/
theorem exists_run_to_end (hready : c.Ready) (h : c.FolderSound w) :
    ∃ moves last, c.Run w moves last ∧ last.Ended := by
  induction w using c.wellFounded_step.induction with
  | _ w ih =>
      by_cases hended : w.Ended
      · exact ⟨[], w, .done w, hended⟩
      · obtain ⟨move, next, hstep⟩ := exists_step hready h hended
        obtain ⟨moves, last, hrun, hlast⟩ := ih next ⟨move, hstep⟩ (h.step hready hstep)
        exact ⟨_, last, hstep.run.trans hrun, hlast⟩

theorem FolderSound.of_run {last : SharedCache} {moves : List ClientMove} (hready : c.Ready)
    (h : c.FolderSound w) (hrun : c.Run w moves last) : c.FolderSound last := by
  induction hrun with
  | done => exact h
  | move _ hstep ih => exact ih.step hready hstep

end CacheClients

end Termination

namespace CacheClients

variable {c : CacheClients} {before : Entries} {w last : SharedCache} {moves : List ClientMove}

/-- What a get and a put of the same record have come to. -/
structure Settled (c : CacheClients) (before : Entries) (moves : List ClientMove)
    (w : SharedCache) : Prop where
  put : w.put = .ended (.ok ())
  answer : w.get = .ended (.ok none) ∨ ∃ r found now, w.get = .ended (.ok (some found)) ∧
    c.Complete before r ∧ CacheRecord.ofJson c.record.key r.toJson = .ok (some found) ∧
      (r.Faithful → found = r) ∧
        .decide now ∈ moves ∧ c.reader.holdsCurrent now r.toBytes = true
  stored : ¬Overtaken moves → Table.get? c.file w.folder.contents = some c.stored ∨
    w.get = .ended (.ok none) ∧ Table.get? c.file w.folder.contents = none ∧
      ∃ now, .decide now ∈ moves ∧ c.reader.holdsCurrent now c.record.toBytes = false

theorem Complete.key_eq {r : CacheRecord} (h : c.Complete before r) : r.key = c.record.key := by
  rcases h with rfl | ⟨-, hkey, -⟩
  · rfl
  · exact hkey

/-- In whatever order a get and a put of the same record take their steps, the get finds
nothing or one record that counts and was completely written. If its file is not replaced
between being read and being removed, the record that was put is there in the end, or the
get has read it, found that it does not count and removed it. -/
theorem last_write_stays (hstart : c.Starts before w) (hrun : c.Run w moves last)
    (hended : last.Ended) (hkept : .evict c.record.key ∉ moves) : c.Settled before moves last := by
  have htracked := Tracked.of_run hstart hrun hkept
  obtain ⟨⟨found, hget⟩, ⟨result, hput⟩⟩ := hended
  refine ⟨?_, ?_, ?_⟩
  · rw [hput, htracked.sound.result result hput]
  · obtain ⟨answer, rfl, hfound⟩ := htracked.answered found hget
    cases answer with
    | none => exact .inl hget
    | some record =>
        obtain ⟨r, now, hcomplete, hmem, hcounts, hread⟩ := hfound record rfl
        refine .inr ⟨r, record, now, hget, hcomplete, hread, fun hfaithful => ?_, hmem, hcounts⟩
        rw [← hcomplete.key_eq, CacheRecord.ofJson_toJson hfaithful] at hread
        exact (Option.some.inj (Except.ok.inj hread)).symm
  · intro hnot
    have hreplaced : last.put.hasReplaced = true := by rw [hput, PutStage.hasReplaced]
    refine (htracked.kept hreplaced).imp_right fun hremoved => ?_
    exact ⟨hremoved.get, hremoved.gone, hremoved.cause.resolve_left hnot⟩

/-- A client that reads a record which does not count is about to remove its file. -/
theorem read_stale {r : CacheRecord} (htimed : r.Timed) (hget : w.get = .begins)
    (hread : w.folder.read c.file = .ok r.toBytes) {now : Binary64}
    (hstale : c.reader.holdsCurrent now r.toBytes = false) :
    c.Run w [.read, .decide now] { w with get := .unlinks } := by
  have hverdict : c.reader.verdict now c.record.key r.toBytes = .unlinks := by
    rcases RepoCache.verdict_toBytes htimed c.reader now c.record.key with
      ⟨-, hverdict⟩ | ⟨hcounts, -⟩
    · exact hverdict
    · rw [hstale] at hcounts
      cases hcounts
  have hfirst := (Step.read (c := c) hget).run
  rw [hread] at hfirst
  have hdecided := hfirst.trans (Step.decide now rfl).run
  rw [hverdict] at hdecided
  exact hdecided

/-- A client that has stored a record removes those that are planned while the other one rests. -/
theorem scan_alone (h : c.FolderSound w) (hput : w.put = .replaced) (now : Binary64) :
    ∃ found, c.writer.TellsAll now w.folder.contents found ∧
      let keys := (planEvictions c.writer.maxBytes found).mergeSort fun a b => a ≤ b
      c.Run w ([.scan now] ++ (keys.map .evict ++ [.finish])) { w with
        folder := .present (keys.foldl c.writer.evictOne (w.folder.contents, [])).1
        put := .ended (.ok ()) } := by
  obtain ⟨found, hfound, htells⟩ := RepoCache.summaries_tellsAll c.writer now h.held.legible
  refine ⟨found, htells, ?_⟩
  have hfolder := h.present (by simp [hput])
  have hscanned := (Step.scan (c := c) now hput hfolder).run
  rw [hfound, hfolder] at hscanned
  exact hscanned.trans (cleans_alone _ _ [] w.get)

/-- A record that counts and fits stays where it is the only one. -/
theorem scan_single (hready : c.Ready) (h : c.FolderSound w) (hput : w.put = .replaced)
    (hfolder : w.folder = .present [(c.file, c.stored)]) {now : Binary64}
    (hcounts : c.writer.holdsCurrent now c.record.toBytes = true)
    (hfits : (c.record.toBytes.length : Int) ≤ c.writer.maxBytes) :
    c.Run w ([.scan now] ++ [.finish]) { w with put := .ended (.ok ()) } := by
  obtain ⟨found, htells, hcleaned⟩ := scan_alone h hput now
  have hrecords : [(c.file, c.stored)].filter (fun entry => isRecordName entry.1) =
      [(c.file, c.stored)] := by
    have hname : isRecordName c.file = true := hready.key.isRecordName
    simp [hname]
  rw [RepoCache.TellsAll, hfolder, CacheFolder.contents_present, hrecords, List.map_singleton,
    List.perm_singleton] at htells
  have hplan : planEvictions c.writer.maxBytes found = [] := by
    rw [htells, stored]
    exact RepoCache.planEvictions_summaryOf hcounts hfits
  rw [hfolder]
  simpa only [hplan, hfolder, List.mergeSort_nil, List.map_nil, List.nil_append, List.foldl_nil,
    CacheFolder.contents_present] using hcleaned

/-- No record goes whose file is not there. -/
theorem not_mem_plan {found : List RecordSummary} {now : Binary64} {entries : Entries}
    (htells : c.writer.TellsAll now entries found) (hgone : Table.get? c.file entries = none) :
    c.record.key ∉ (planEvictions c.writer.maxBytes found).mergeSort fun a b => a ≤ b := by
  intro hmem
  obtain ⟨s, hs, hkey⟩ := exists_of_mem_planEvictions (List.mem_mergeSort.mp hmem)
  obtain ⟨entry, hentry, hname, rfl⟩ := htells.mem_iff.mp hs
  have hfile : entry.1 = c.file := by
    rw [file, ← hkey, RepoCache.recordName_key_summaryOf hname]
  exact Table.get?_eq_none_iff.mp hgone (hfile ▸ List.mem_map_of_mem hentry)

/-- Where an old record is found that does not count, the record that is put meanwhile can be
removed in its place, whether that one counts or not. -/
theorem exists_run_overtaken (hstart : c.Starts before w) {r : CacheRecord} (htimed : r.Timed)
    {modified : Binary64} (hold : Table.get? c.file before = some (.file r.toBytes modified))
    {now : Binary64} (hstale : c.reader.holdsCurrent now r.toBytes = false) :
    ∃ moves last, c.Run w moves last ∧ last.Ended ∧ .evict c.record.key ∉ moves ∧
      Overtaken moves ∧ Table.get? c.file last.folder.contents = none := by
  have hready := hstart.toReady
  have hsound := FolderSound.of_starts hstart
  have hread : w.folder.read c.file = .ok r.toBytes := by
    rw [← FolderSound.contents_of_make hstart.folder] at hold
    rcases hsound.read_cases hready with ⟨hnone, -⟩ | ⟨found, _, -, -, hfile, hread⟩
    · rw [hold] at hnone
      cases hnone
    · rw [hold, Option.some.injEq] at hfile
      rw [hread, (DiskNode.file.inj hfile).1]
  have hfiles : FilesUnder (· = c.file) before := by
    intro entry hmem hname
    exact hstart.held.files entry hmem (hname ▸ hready.key.isRecordName)
  have hdecided := read_stale htimed hstart.get hread hstale
  have hmake : c.Step ⟨w.folder, .unlinks, w.put⟩ .make ⟨.present before, .unlinks, .made⟩ :=
    .make hstart.put hstart.folder
  have hmade := hdecided.trans hmake.run
  have hreplaced := hmade.trans
    (write_alone rfl rfl hfiles (hready.temporary_ne _) hstart.fresh)
  have hunlinked := hreplaced.trans (Step.unlink rfl).run
  have hleft := hsound.of_run hready hunlinked
  have hgone := (hsound.of_run hready hreplaced).get?_unlinked hready c.reader
  obtain ⟨found, htells, hcleaned⟩ := scan_alone hleft rfl now
  have hnot := not_mem_plan htells hgone
  refine ⟨_, _, hunlinked.trans hcleaned, ⟨⟨_, rfl⟩, ⟨_, rfl⟩⟩, ?_, ?_, ?_⟩
  · simpa using hnot
  · have hread : [ClientMove.read].Sublist ([.read, .decide now] ++ [.make]) :=
      List.singleton_sublist.mpr (by simp)
    have hreplace : [ClientMove.replace].Sublist [.create, .write, .replace] :=
      List.singleton_sublist.mpr (by simp)
    exact ((hread.append hreplace).append (.refl _)).trans (List.sublist_append_left _ _)
  · have hnames : c.file ∉ ((planEvictions c.writer.maxBytes found).mergeSort
        fun a b => a ≤ b).map recordName := by
      intro hmem
      obtain ⟨key, hkey, hname⟩ := List.mem_map.mp hmem
      exact hnot (recordName_inj hname ▸ hkey)
    rw [CacheFolder.contents_present, RepoCache.get?_foldl_evictOne hnames]
    exact hgone

end CacheClients

namespace SampleClients

open SampleCache (siteAt)

/-- Two clients of which the one that asks may be of another version. -/
def clients (version : String) : CacheClients where
  reader := { directory := "cache", version }
  writer := { directory := "cache" }
  record := siteAt 1000
  stamp := .ofInt 1000
  temporary := ".tmp-" ++ "x1" ++ ".part"

theorem ready (version : String) : (clients version).Ready where
  key := isRecordKey_hexDigest _
  timed := BusyCache.timed_siteAt 1000
  temporary := ⟨"x1", rfl⟩
  possible := by
    change nameFault? (".tmp-" ++ "x1" ++ ".part") = none
    decide +kernel

theorem starts_absent (version : String) : (clients version).Starts [] { folder := .absent } where
  toReady := ready version
  get := rfl
  put := rfl
  folder := rfl
  held := ⟨⟨List.nodup_nil, by simp⟩, by simp⟩
  fresh := by simp

/-- A folder with a record that has expired. -/
def before : Entries :=
  [(recordName (siteAt 1000).key, .file (siteAt 900).toBytes (.ofInt 900))]

theorem starts_before (version : String) :
    (clients version).Starts before { folder := .present before } where
  toReady := ready version
  get := rfl
  put := rfl
  folder := rfl
  held := by
    refine ⟨⟨by simp [before], ?_⟩, ?_⟩
    · intro entry hmem
      obtain rfl := List.mem_singleton.mp hmem
      exact (ready version).key.nameFault?
    · intro entry hmem _
      obtain rfl := List.mem_singleton.mp hmem
      exact ⟨siteAt 900, .ofInt 900, BusyCache.timed_siteAt 900, rfl, rfl⟩
  fresh := by
    rw [before, List.map_singleton, List.mem_singleton]
    exact (ready version).temporary_ne _

theorem holdsCurrent_siteAt (c : RepoCache) (time now : Int) :
    c.holdsCurrent (.ofInt now) (siteAt time).toBytes =
      ("1.0.0" == c.version && (Binary64.ofInt now).lt (.ofInt (time + 60))) :=
  RepoCache.holdsCurrent_toBytes (BusyCache.timed_siteAt time)

theorem counts (version : String) :
    (clients version).writer.holdsCurrent (.ofInt 1000) (siteAt 1000).toBytes = true := by
  refine (holdsCurrent_siteAt (clients version).writer 1000 1000).trans ?_
  change ("1.0.0" == "1.0.0" && (Binary64.ofInt 1000).lt (.ofInt (1000 + 60))) = true
  decide +kernel

theorem fits : ((siteAt 1000).toBytes.length : Int) ≤ 104857600 := by
  rw [CacheRecord.length_toBytes]
  decide +kernel

/-- The steps of a get between those of a put: it removes the record that has expired before
the new one is put in its place. -/
def moves : List ClientMove :=
  [.make, .read, .decide (.ofInt 1000), .unlink, .create, .write, .replace, .scan (.ofInt 1000),
    .finish]

def last : SharedCache where
  folder := .present [((clients "1.0.0").file, (clients "1.0.0").stored)]
  get := .ended (.ok none)
  put := .ended (.ok ())

theorem file_clients (version : String) : (clients version).file = recordName (siteAt 1000).key :=
  rfl

theorem get?_before (version : String) : Table.get? (clients version).file before =
    some (.file (siteAt 900).toBytes (.ofInt 900)) := by
  simp [file_clients, before, Table.get?]

theorem discard_before (c : RepoCache) (version : String) :
    (c.discard (clients version).file before).1 = [] := by
  simp [RepoCache.discard, removeFile, file_clients, before, Table.get?, DiskNode.setEntry]

theorem expired_before (version : String) :
    (clients version).reader.holdsCurrent (.ofInt 1000) (siteAt 900).toBytes = false := by
  have hlater : (Binary64.ofInt 1000).lt (.ofInt (900 + 60)) = false := by decide +kernel
  rw [holdsCurrent_siteAt, hlater, Bool.and_false]

theorem run_moves : (clients "1.0.0").Run { folder := .present before } moves last := by
  let c := clients "1.0.0"
  have hready : c.Ready := ready "1.0.0"
  have hread : (CacheFolder.present before).read c.file = .ok (siteAt 900).toBytes :=
    RepoCache.read_of_get? hready.key (get?_before "1.0.0")
  have hmade : c.Run { folder := .present before } [.make] ⟨.present before, .begins, .made⟩ :=
    (CacheClients.Step.make rfl rfl).run
  have hunlinked : c.Run { folder := .present before }
      [.make, .read, .decide (.ofInt 1000), .unlink] ⟨.present [], .ended (.ok none), .made⟩ := by
    have hleft := (hmade.trans (CacheClients.read_stale (BusyCache.timed_siteAt 900) rfl hread
      (expired_before "1.0.0"))).trans (CacheClients.Step.unlink rfl).run
    have hfolder : c.reader.unlinked c.file (.present before) = .present [] :=
      congrArg CacheFolder.present (discard_before c.reader "1.0.0")
    rw [hfolder] at hleft
    exact hleft
  have hreplaced := hunlinked.trans (CacheClients.write_alone rfl rfl (by simp [FilesUnder])
    (hready.temporary_ne _) (by simp))
  have hstart := CacheClients.FolderSound.of_starts (starts_before "1.0.0")
  have hsound := hstart.of_run hready hreplaced
  exact hreplaced.trans (CacheClients.scan_single hready hsound rfl rfl (counts "1.0.0") fits)

open CacheClients in
/-- The get finds nothing, and the record that is put stays. -/
theorem last_write_stays_sample :
    (clients "1.0.0").Starts before { folder := .present before } ∧
      (clients "1.0.0").Run { folder := .present before } moves last ∧ last.Ended ∧
      .evict (clients "1.0.0").record.key ∉ moves ∧ ¬Overtaken moves ∧
      (clients "1.0.0").Settled before moves last ∧
      Table.get? (clients "1.0.0").file last.folder.contents = some (clients "1.0.0").stored := by
  have hended : last.Ended := ⟨⟨_, rfl⟩, ⟨_, rfl⟩⟩
  have hkept : .evict (clients "1.0.0").record.key ∉ moves := by simp [moves]
  exact ⟨starts_before "1.0.0", run_moves, hended, hkept, by decide +kernel,
    last_write_stays (starts_before "1.0.0") run_moves hended hkept, by simp [last, Table.get?]⟩

/-- A client of another version that asks after the record has been stored removes it. -/
theorem not_every_write_stays :
    ¬∀ (c : CacheClients) (before : Entries) (w last : SharedCache) (moves : List ClientMove),
      c.Starts before w → c.Run w moves last → last.Ended → .evict c.record.key ∉ moves →
        Table.get? c.file last.folder.contents = some c.stored := by
  intro hstays
  let c := clients "2.0.0"
  have hready : c.Ready := ready "2.0.0"
  have hstale : c.reader.holdsCurrent (.ofInt 1000) c.record.toBytes = false := by
    refine (holdsCurrent_siteAt c.reader 1000 1000).trans ?_
    decide +kernel
  have hmade : c.Run { folder := .absent } [.make] ⟨.present [], .begins, .made⟩ :=
    (CacheClients.Step.make rfl rfl).run
  have hreplaced := hmade.trans (CacheClients.write_alone rfl rfl (by simp [FilesUnder])
    (hready.temporary_ne _) (by simp))
  have hstart := CacheClients.FolderSound.of_starts (starts_absent "2.0.0")
  have hsound := hstart.of_run hready hreplaced
  have hput := hreplaced.trans
    (CacheClients.scan_single hready hsound rfl rfl (counts "2.0.0") fits)
  have hget : Table.get? c.file [(c.file, c.stored)] = some c.stored := by simp [Table.get?]
  have hread : (CacheFolder.present [(c.file, c.stored)]).read c.file = .ok c.record.toBytes :=
    RepoCache.read_of_get? hready.key hget
  have hdecided := hput.trans (CacheClients.read_stale hready.timed rfl hread hstale)
  have hgone := (hstart.of_run hready hdecided).get?_unlinked hready c.reader
  have hstored := hstays c [] _ _ _ (starts_absent "2.0.0")
    (hdecided.trans (CacheClients.Step.unlink rfl).run) ⟨⟨_, rfl⟩, ⟨_, rfl⟩⟩ (by simp)
  rw [hgone] at hstored
  cases hstored

/-- The steps of a put between those of a get of the same version: the get has found that the
record before has expired, and removes the new one, which has taken its place. -/
def overtakenMoves : List ClientMove :=
  [.read, .decide (.ofInt 1000), .make, .create, .write, .replace, .unlink, .scan (.ofInt 1000),
    .finish]

theorem run_overtakenMoves : (clients "1.0.0").Run { folder := .present before } overtakenMoves
    ⟨.present [], .ended (.ok none), .ended (.ok ())⟩ := by
  let c := clients "1.0.0"
  have hready : c.Ready := ready "1.0.0"
  have hread : (CacheFolder.present before).read c.file = .ok (siteAt 900).toBytes :=
    RepoCache.read_of_get? hready.key (get?_before "1.0.0")
  have hdecided : c.Run { folder := .present before } [.read, .decide (.ofInt 1000)]
      ⟨.present before, .unlinks, .begins⟩ :=
    CacheClients.read_stale (BusyCache.timed_siteAt 900) rfl hread (expired_before "1.0.0")
  have hmade : c.Run ⟨.present before, .unlinks, .begins⟩ [.make]
      ⟨.present before, .unlinks, .made⟩ :=
    (CacheClients.Step.make rfl rfl).run
  have hfiles : FilesUnder (· = c.file) before := by
    intro entry hmem _
    obtain rfl := List.mem_singleton.mp hmem
    exact ⟨_, _, rfl⟩
  have hfresh : c.temporary ∉ before.map Prod.fst := (starts_before "1.0.0").fresh
  have hreplaced := (hdecided.trans hmade).trans
    (CacheClients.write_alone rfl rfl hfiles (hready.temporary_ne _) hfresh)
  have hunlinked : c.Run { folder := .present before }
      [.read, .decide (.ofInt 1000), .make, .create, .write, .replace, .unlink]
      ⟨.present [], .ended (.ok none), .replaced⟩ := by
    have hleft : c.reader.unlinked c.file (.present (Table.set c.file c.stored before)) =
        .present [] := by
      simp [RepoCache.unlinked, RepoCache.discard, removeFile, before, Table.set, Table.get?,
        DiskNode.setEntry, CacheClients.stored, CacheClients.file, c, clients]
    rw [← hleft]
    exact hreplaced.trans (CacheClients.Step.unlink rfl).run
  have hplan : c.writer.plan (c.writer.summaries (.ofInt 1000) []) = .cleans [] := by
    have hfound : c.writer.summaries (.ofInt 1000) [] = .ok [] := by
      have hnames : recordNames [] = [] := by simp [recordNames]
      rw [RepoCache.summaries, hnames]
      rfl
    have hnone : planEvictions c.writer.maxBytes [] = [] := by
      simp [planEvictions, cutOldest, Text.distinct]
    rw [hfound, RepoCache.plan, hnone, List.mergeSort_nil]
  have hscanned := hunlinked.trans (CacheClients.Step.scan (.ofInt 1000) rfl rfl).run
  rw [hplan] at hscanned
  exact hscanned.trans (CacheClients.Step.finish rfl).run

open CacheClients in
/-- The record that was put is lost, though it counts for the client that asks. -/
theorem overtaken_write_is_lost :
    (clients "1.0.0").Starts before { folder := .present before } ∧
      (clients "1.0.0").Run { folder := .present before } overtakenMoves
        ⟨.present [], .ended (.ok none), .ended (.ok ())⟩ ∧
      .evict (clients "1.0.0").record.key ∉ overtakenMoves ∧ Overtaken overtakenMoves ∧
      (clients "1.0.0").reader.holdsCurrent (.ofInt 1000) (siteAt 1000).toBytes = true :=
  ⟨starts_before "1.0.0", run_overtakenMoves, by simp [overtakenMoves], by decide +kernel,
    counts "1.0.0"⟩

end SampleClients

end RepoAtlas
