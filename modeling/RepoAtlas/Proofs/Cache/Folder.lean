import RepoAtlas.Cache.Store
import RepoAtlas.Proofs.Hash.Digest
import RepoAtlas.Proofs.Table
import RepoAtlas.Proofs.Text.Utf8

/-!
The files of records in a cache's folder: their names tell them from all other
files, and each operation on the folder is one on the table of its entries.
-/
namespace RepoAtlas

theorem Text.IsHexDigit.ascii {c : Char} (h : IsHexDigit c) :
    c.toNat < 128 ∧ c ≠ '.' ∧ c ≠ '\x00' := by
  obtain ⟨n, hn, rfl⟩ := h
  revert n
  decide

/-- Whether a key is one of those that records are stored under. -/
structure IsRecordKey (key : String) : Prop where
  length : key.toList.length = 64
  digits : ∀ c ∈ key.toList, Text.IsHexDigit c

theorem isRecordKey_hexDigest (text : String) : IsRecordKey (Sha256.hexDigest text) :=
  ⟨Sha256.length_hexDigest text, fun _ hmem => Sha256.isHexDigit_of_mem_hexDigest hmem⟩

theorem toList_recordName (key : String) :
    (recordName key).toList = key.toList ++ ['.', 'j', 's', 'o', 'n'] := by
  rw [recordName, String.toList_append]
  rfl

theorem recordName_inj {a b : String} (h : recordName a = recordName b) : a = b := by
  have hlist := congrArg String.toList h
  rw [toList_recordName, toList_recordName] at hlist
  exact String.toList_inj.mp (List.append_cancel_right hlist)

/-- The stem and the ending of a name make it up. -/
theorem PurePath.splitSuffix_append (name : String) :
    (splitSuffix name).1 ++ (splitSuffix name).2 = name := by
  have hparts : (name.toList.reverse.dropWhile (· != '.')).reverse ++
      (name.toList.reverse.takeWhile (· != '.')).reverse = name.toList := by
    rw [← List.reverse_append, List.takeWhile_append_dropWhile, List.reverse_reverse]
  have hdot := List.head?_dropWhile_not (· != '.') name.toList.reverse
  unfold splitSuffix
  simp only
  generalize (name.toList.reverse.takeWhile (· != '.')).reverse = ending at *
  generalize name.toList.reverse.dropWhile (· != '.') = behind at *
  split
  · exact String.append_empty
  · next hnot =>
      have hlength : name.toList.length - ending.length = behind.length := by
        rw [← hparts, List.length_append, List.length_reverse, Nat.add_sub_cancel]
      rw [hlength] at hnot ⊢
      cases behind with
      | nil => simp at hnot
      | cons dot stem =>
          obtain rfl : dot = '.' := by simpa using hdot
          have htake : name.toList.take stem.length = stem.reverse := by
            rw [← hparts]
            simp
          rw [List.length_cons, Nat.add_sub_cancel, htake, ← String.ofList_append,
            ← String.toList_inj, String.toList_ofList, ← hparts]
          simp

theorem recordName_of_isRecordName {name : String} (h : isRecordName name = true) :
    recordName (PurePath.splitSuffix name).1 = name := by
  rw [isRecordName, beq_iff_eq] at h
  rw [recordName, ← h, PurePath.splitSuffix_append]

/-- The bytes of a text without characters beyond ASCII. -/
theorem Utf8.length_flatMap_encodeChar {s : List Char} (h : ∀ c ∈ s, c.toNat < 128) :
    (s.flatMap encodeChar).length = s.length := by
  induction s with
  | nil => rfl
  | cons c s ih =>
      have hc := h c (by simp)
      rw [List.flatMap_cons, List.length_append, ih fun d hmem => h d (List.mem_cons_of_mem _ hmem)]
      simp [encodeChar, hc, Nat.add_comm]

namespace IsRecordKey

variable {key : String}

theorem length_recordName (h : IsRecordKey key) : (recordName key).toList.length = 69 := by
  rw [toList_recordName, List.length_append, h.length]
  rfl

theorem splitSuffix_recordName (h : IsRecordKey key) :
    PurePath.splitSuffix (recordName key) = (key, ".json") := by
  have hending : ((recordName key).toList.reverse.takeWhile (· != '.')).reverse =
      ['j', 's', 'o', 'n'] := by
    rw [toList_recordName, List.reverse_append]
    rfl
  have hkey : (recordName key).toList.take 64 = key.toList := by
    rw [toList_recordName, ← h.length, List.take_left]
  simp only [PurePath.splitSuffix, hending, h.length_recordName]
  exact congrArg (·, ".json") ((congrArg String.ofList hkey).trans String.ofList_toList)

theorem isRecordName (h : IsRecordKey key) : isRecordName (recordName key) := by
  rw [RepoAtlas.isRecordName, h.splitSuffix_recordName]
  rfl

theorem ascii_recordName (h : IsRecordKey key) :
    ∀ c ∈ (recordName key).toList, c.toNat < 128 ∧ c ≠ '\x00' := by
  intro c hmem
  rw [toList_recordName] at hmem
  rcases List.mem_append.mp hmem with hmem | hmem
  · exact ⟨(h.digits c hmem).ascii.1, (h.digits c hmem).ascii.2.2⟩
  · have hending : ∀ d ∈ ['.', 'j', 's', 'o', 'n'], d.toNat < 128 ∧ d ≠ '\x00' := by simp
    exact hending c hmem

theorem nameFault? (h : IsRecordKey key) : nameFault? (recordName key) = none := by
  have hnull : (recordName key).toList.contains '\x00' = false := by
    rw [Bool.eq_false_iff, ne_eq, List.contains_iff_mem]
    exact fun hmem => (h.ascii_recordName _ hmem).2 rfl
  have hshort : (Utf8.encode (recordName key)).length = 69 := by
    rw [Utf8.encode, Utf8.length_flatMap_encodeChar fun c hmem => (h.ascii_recordName c hmem).1,
      h.length_recordName]
  rw [RepoAtlas.nameFault?, hnull, hshort]
  rfl

theorem recordName_ne (h : IsRecordKey key) {other : String}
    (hlength : other.toList.length ≠ 69) : recordName key ≠ other := by
  rintro rfl
  exact hlength h.length_recordName

end IsRecordKey

/-- Whether everything that stands under some names in a folder is a file. -/
def FilesUnder (p : String → Prop) (entries : Entries) : Prop :=
  ∀ entry ∈ entries, p entry.1 → ∃ bytes modified, entry.2 = .file bytes modified

namespace FilesUnder

variable {p : String → Prop} {entries : Entries}

theorem filter (h : FilesUnder p entries) (q : String × DiskNode → Bool) :
    FilesUnder p (entries.filter q) :=
  fun entry hmem => h entry (List.mem_of_mem_filter hmem)

theorem file_of_get? (h : FilesUnder p entries) {name : String} (hname : p name)
    {node : DiskNode} (hget : Table.get? name entries = some node) :
    ∃ bytes modified, node = .file bytes modified :=
  h _ (Table.mem_of_get? hget) hname

/-- Taking a file away leaves the other entries, whether it was there or not. -/
theorem discard_fst (h : FilesUnder p entries) (c : RepoCache) {name : String} (hname : p name) :
    (c.discard name entries).1 = entries.filter fun e => e.1 != name := by
  rw [RepoCache.discard, removeFile]
  cases hget : Table.get? name entries with
  | none => exact (Table.filter_ne_of_not_mem (Table.get?_eq_none_iff.mp hget)).symm
  | some node =>
      obtain ⟨bytes, modified, rfl⟩ := h.file_of_get? hname hget
      rfl

/-- Taking files away one after another leaves the entries with other names. -/
theorem foldl_fst {σ : Type} (target : String → String)
    (step : Entries × σ → String → Entries × σ)
    (hstep : ∀ entries state item, FilesUnder p entries → p (target item) →
      (step (entries, state) item).1 = entries.filter fun e => e.1 != target item)
    (h : FilesUnder p entries) (items : List String) (hitems : ∀ item ∈ items, p (target item))
    (state : σ) :
    (items.foldl step (entries, state)).1 =
      entries.filter fun e => !(items.map target).contains e.1 := by
  induction items generalizing entries state with
  | nil => simp
  | cons item items ih =>
      have hfirst := hstep entries state item h (hitems item List.mem_cons_self)
      rw [List.foldl_cons]
      generalize step (entries, state) item = next at hfirst
      obtain ⟨rest, state⟩ := next
      subst hfirst
      rw [ih (h.filter _) (fun other hmem => hitems other (List.mem_cons_of_mem _ hmem)),
        List.filter_filter]
      congr 1
      funext entry
      simp only [List.map_cons, List.contains_cons, Bool.not_or, bne, Bool.and_comm]

theorem foldl_evictOne_fst (h : FilesUnder p entries) (c : RepoCache) (keys : List String)
    (hkeys : ∀ key ∈ keys, p (recordName key)) (records : List LogRecord) :
    (keys.foldl c.evictOne (entries, records)).1 =
      entries.filter fun e => !(keys.map recordName).contains e.1 :=
  h.foldl_fst recordName c.evictOne (fun _ _ _ hfiles hname => hfiles.discard_fst c hname) keys
    hkeys records

/--
Without trouble a file is written in the place of the old one, and the name it
was first written under is gone again.
-/
theorem writeRecord_eq (h : FilesUnder p entries) (c : RepoCache) {context : PutContext}
    (htrouble : ∀ step, context.trouble step = none) {name : String} (hname : p name)
    (htemporary : context.temporary ≠ name) (hnew : context.temporary ∉ entries.map Prod.fst)
    (bytes : List UInt8) :
    c.writeRecord context name bytes entries =
      (Table.set name (.file bytes context.stamp) entries, none) := by
  have hget : Table.get? name (DiskNode.setEntry context.temporary
      (some (.file bytes context.stamp)) (DiskNode.setEntry context.temporary
        (some (.file [] context.stamp)) entries)) = Table.get? name entries := by
    simp [DiskNode.setEntry, Table.get?_set, htemporary]
  have hreplace : c.replaceTrouble context.temporary name (DiskNode.setEntry context.temporary
      (some (.file bytes context.stamp)) (DiskNode.setEntry context.temporary
        (some (.file [] context.stamp)) entries)) = none := by
    rw [RepoCache.replaceTrouble, hget]
    cases hold : Table.get? name entries with
    | none => rfl
    | some node =>
        obtain ⟨old, modified, rfl⟩ := h.file_of_get? hname hold
        rfl
  simp only [RepoCache.writeRecord, htrouble, Option.none_or, hreplace]
  simp only [DiskNode.setEntry, Table.filter_ne_set, Table.filter_ne_of_not_mem hnew]

end FilesUnder

/-- Whether a folder holds nothing but files. -/
def OnlyFiles (entries : Entries) : Prop :=
  ∀ entry ∈ entries, ∃ bytes modified, entry.2 = .file bytes modified

namespace OnlyFiles

variable {entries : Entries}

theorem filesUnder (h : OnlyFiles entries) : FilesUnder (fun _ => True) entries :=
  fun entry hmem _ => h entry hmem

/-- The name of a record's file leads to the entry with that name. -/
theorem stat_recordName (h : OnlyFiles entries) {key : String} (hkey : IsRecordKey key) :
    (DiskNode.folder entries).stat [recordName key] =
      match Table.get? (recordName key) entries with
      | some node => .ok node
      | none => .error .missing := by
  have hparent : recordName key ≠ ".." := hkey.recordName_ne (by decide)
  have hat : (DiskNode.folder entries).at? ([] ++ [recordName key]) =
      Table.get? (recordName key) entries := by
    simp [DiskNode.at?, DiskNode.child?, DiskNode.entries]
  rw [DiskNode.stat, DiskNode.locate, DiskNode.follow]
  simp only [beq_iff_eq, hparent, if_false, hkey.nameFault?, hat]
  cases hget : Table.get? (recordName key) entries with
  | none => rfl
  | some node =>
      obtain ⟨bytes, modified, hfile⟩ := h _ (Table.mem_of_get? hget)
      simp only at hfile
      subst hfile
      rfl

/-- Taking a file away leaves the other entries, whether it was there or not. -/
theorem discard_fst (h : OnlyFiles entries) (c : RepoCache) (name : String) :
    (c.discard name entries).1 = entries.filter fun e => e.1 != name :=
  h.filesUnder.discard_fst c trivial

theorem foldl_evictOne_fst (h : OnlyFiles entries) (c : RepoCache) (keys : List String)
    (records : List LogRecord) :
    (keys.foldl c.evictOne (entries, records)).1 =
      entries.filter fun e => !(keys.map recordName).contains e.1 :=
  h.filesUnder.foldl_evictOne_fst c keys (fun _ _ => trivial) records

theorem foldl_clearOne_fst (h : OnlyFiles entries) (c : RepoCache) (names : List String)
    (count : Nat) (records : List LogRecord) :
    (names.foldl c.clearOne (entries, count, records)).1 =
      entries.filter fun e => !names.contains e.1 := by
  have hfold := h.filesUnder.foldl_fst id c.clearOne
    (fun _ _ _ hfiles hname => hfiles.discard_fst c hname) names (fun _ _ => trivial)
    (count, records)
  rwa [List.map_id] at hfold

theorem writeRecord_eq (h : OnlyFiles entries) (c : RepoCache) {context : PutContext}
    (htrouble : ∀ step, context.trouble step = none) {name : String}
    (htemporary : context.temporary ≠ name) (hnew : context.temporary ∉ entries.map Prod.fst)
    (bytes : List UInt8) :
    c.writeRecord context name bytes entries =
      (Table.set name (.file bytes context.stamp) entries, none) :=
  h.filesUnder.writeRecord_eq c htrouble trivial htemporary hnew bytes

end OnlyFiles

end RepoAtlas
