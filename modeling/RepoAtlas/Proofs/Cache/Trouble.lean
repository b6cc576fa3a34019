import RepoAtlas.Proofs.Cache.Folder
import RepoAtlas.Proofs.Cache.Loose
import RepoAtlas.Proofs.Cache.Record

/-!
Trouble in a cache's folder. Whatever its files hold, an operation fails in a few
cases only: brackets nested too deeply, a list or an object in the place of a
file's type, whole numbers that are too large, and times outside the calendar.
In all others bytes that are no record that counts are removed when it is asked for.
-/
namespace RepoAtlas

/-- Whether an operation ends in a failure. -/
def CacheStep.Fails (step : CacheStep α) : Prop :=
  ∃ failure, step.result = .error failure

/-- Whether a number is a whole one that no floating-point number is near to. -/
def Quantity.TooLarge (q : Quantity) : Prop :=
  ∃ i, q = .whole i ∧ Binary64.ofInt? i = none

theorem Quantity.toReal_fails_iff {q : Quantity} :
    (∃ failure, q.toReal = .error failure) ↔ q.TooLarge := by
  cases q with
  | real x => simp [toReal, TooLarge]
  | whole i => cases hreal : Binary64.ofInt? i <;> simp [toReal, TooLarge, hreal]

/-- Whether a value is a list or an object. -/
def Json.IsContainer : Json → Prop
  | .arr _ | .obj _ => True
  | _ => False

/-- Whether a value has a path, and a list or an object in the place of its type. -/
def FileRecord.Mistyped (v : Json) : Prop :=
  (∃ path, (v.get? "path").bind Json.text? = some path) ∧
    ∃ type, v.get? "type" = some type ∧ type.IsContainer

theorem ListedEntry.ofJson_unhashable_iff {v : Json} :
    (∃ typeName, ofJson v = .error (.unhashable typeName)) ↔ FileRecord.Mistyped v := by
  cases v with
  | obj fields =>
      unfold ofJson FileRecord.Mistyped Json.get?
      simp only
      cases (Table.get? "path" fields).bind Json.text? with
      | none => simp
      | some path =>
          cases Table.get? "type" fields with
          | none => simp
          | some type =>
              cases type with
              | str word =>
                  simp only [Json.IsContainer]
                  split <;> simp_all
              | _ => simp [Json.IsContainer]
  | _ => simp [ofJson, FileRecord.Mistyped, Json.get?]

namespace FileRecord

theorem ofJson_unhashable_iff {v : Json} :
    (∃ typeName, ofJson v = .error (.unhashable typeName)) ↔ Mistyped v := by
  rw [← ListedEntry.ofJson_unhashable_iff, ofJson]
  cases ListedEntry.ofJson v <;> simp [Except.map]

theorem listOfJson_fails_iff {values : List Json} :
    (∃ typeName, listOfJson values = .error typeName) ↔ ∃ v ∈ values, Mistyped v := by
  induction values with
  | nil => simp [listOfJson]
  | cons v values ih =>
      rw [List.exists_mem_cons_iff, ← ih, ← ofJson_unhashable_iff, listOfJson]
      cases hv : ofJson v with
      | error unreadable => cases unreadable <;> simp
      | ok r => cases listOfJson values <;> simp

end FileRecord

namespace CacheRecord

/-- Whether bytes are a text of JSON that opens more brackets than are followed. -/
def Nested (bytes : List UInt8) : Prop :=
  ∃ text list, Utf8.decode bytes = .ok text ∧ Json.readText text = .error (.tooDeep list)

/-- Bytes are nested too deeply, or they are corrupt in another way, or they hold a document. -/
theorem document_cases (bytes : List UInt8) :
    (Nested bytes ∧ ∃ corrupt failure, document bytes = .error corrupt ∧
        tooDeep? corrupt = some failure) ∨
      (¬Nested bytes ∧ ∃ corrupt, document bytes = .error corrupt ∧ tooDeep? corrupt = none) ∨
      (¬Nested bytes ∧ ∃ v, document bytes = .ok v) := by
  cases hdecode : Utf8.decode bytes with
  | error fault =>
      refine .inr (.inl ⟨?_, .notText fault, ?_, rfl⟩)
      · simp [Nested, hdecode]
      · simp [document, hdecode]
  | ok text =>
      cases hread : Json.readText text with
      | ok v =>
          refine .inr (.inr ⟨?_, v, ?_⟩)
          · simp [Nested, hdecode, hread]
          · simp [document, hdecode, hread]
      | error error =>
          have hcorrupt : document bytes = .error (.notJson text error) := by
            simp [document, hdecode, hread]
          by_cases hdeep : ∃ list, error = .tooDeep list
          · obtain ⟨list, rfl⟩ := hdeep
            exact .inl ⟨⟨text, list, hdecode, hread⟩, _, _, hcorrupt, rfl⟩
          · refine .inr (.inl ⟨?_, _, hcorrupt, ?_⟩)
            · rintro ⟨text', list, hdecode', hread'⟩
              rw [hdecode] at hdecode'
              obtain rfl := Except.ok.inj hdecode'
              rw [hread] at hread'
              exact hdeep ⟨list, Except.error.inj hread'⟩
            · unfold tooDeep?
              split
              · next heq =>
                  cases heq
                  exact absurd ⟨_, rfl⟩ hdeep
              · rfl

/-- Brackets that are opened beyond the depth that is followed are not read. -/
theorem readValue_brackets (depth fuel : Nat) (rest : LooseText) (hfuel : 2 * depth < fuel) :
    Json.readValue depth fuel (List.replicate (depth + 1) (.char '[') ++ rest) =
      .error (.tooDeep true) := by
  induction depth generalizing fuel with
  | zero =>
      obtain ⟨fuel, rfl⟩ : ∃ k, fuel = k + 1 := ⟨fuel - 1, by omega⟩
      simp [Json.readValue]
  | succ depth ih =>
      obtain ⟨fuel, rfl⟩ : ∃ k, fuel = k + 2 := ⟨fuel - 2, by omega⟩
      have hskip : Json.skipSpace (List.replicate (depth + 1) (.char '[') ++ rest) =
          List.replicate (depth + 1) (.char '[') ++ rest := by
        simp [Json.skipSpace, Json.isJsonSpace, CodePoint.isA, List.replicate_succ]
      have hitems : Json.readItems depth (fuel + 1)
          (List.replicate (depth + 1) (.char '[') ++ rest) = .error (.tooDeep true) := by
        rw [Json.readItems, ih fuel (by omega)]
      rw [List.replicate_succ, List.cons_append] at hskip hitems
      simp [List.replicate_succ, Json.readValue, hskip, hitems]

theorem nested_brackets {count : Nat} (hcount : Json.maxDepth < count) :
    Nested (Utf8.encode (String.ofList (List.replicate count '['))) := by
  refine ⟨_, true, Utf8.decode_encode _, ?_⟩
  obtain ⟨extra, rfl⟩ : ∃ extra, count = Json.maxDepth + 1 + extra :=
    ⟨_, (Nat.add_sub_of_le hcount).symm⟩
  rw [String.toList_ofList, Json.readText, LooseText.ofChars, List.map_replicate, Json.readLoose]
  have hskip : Json.skipSpace (List.replicate (Json.maxDepth + 1 + extra) (.char '[')) =
      List.replicate (Json.maxDepth + 1) (.char '[') ++ List.replicate extra (.char '[') := by
    rw [← List.replicate_append_replicate]
    simp [Json.skipSpace, Json.isJsonSpace, CodePoint.isA, List.replicate_succ]
  rw [hskip, readValue_brackets _ _ _ (by simp; omega)]
  simp [Nat.add_right_comm _ 1, List.replicate_succ]

/--
Whether a document has all parts of a record, but one of its files is mistyped
or one of its times is too large a number.
-/
def Unfit (document : Json) : Prop :=
  ∃ h, heading? document = some h ∧
    ((∃ v ∈ itemsOf document "allFiles", FileRecord.Mistyped v) ∨
      h.timestamp.TooLarge ∨ h.expiresAt.TooLarge)

/-- The bytes of a document on one line are read as that document. -/
theorem document_compact {v : Json} (h : Json.Readable Json.maxDepth v) :
    document (Utf8.encode v.compact) = .ok v := by
  rw [document, Utf8.decode_encode]
  simp only [Json.readText_compact h]

/-- A document lacks a part of a record, or it is unfit for one, or it holds one. -/
theorem ofJson_cases (key : String) (document : Json) :
    (heading? document = none ∧ ofJson key document = .ok none) ∨
      (Unfit document ∧ ∃ failure, ofJson key document = .error failure) ∨
      (¬Unfit document ∧ (heading? document).isSome ∧
        ∃ record, ofJson key document = .ok (some record)) := by
  cases hheading : heading? document with
  | none => exact .inl ⟨rfl, by simp [ofJson, hheading]⟩
  | some h =>
      have hunfit : Unfit document ↔
          ((∃ word, FileRecord.listOfJson (itemsOf document "allFiles") = .error word) ∨
            (∃ failure, h.timestamp.toReal = .error failure) ∨
              ∃ failure, h.expiresAt.toReal = .error failure) := by
        rw [FileRecord.listOfJson_fails_iff, Quantity.toReal_fails_iff, Quantity.toReal_fails_iff,
          Unfit, hheading]
        simp
      rw [hunfit, ofJson, hheading]
      simp only
      cases FileRecord.listOfJson (itemsOf document "allFiles") with
      | error word => exact .inr (.inl ⟨.inl ⟨word, rfl⟩, _, rfl⟩)
      | ok files =>
          cases h.timestamp.toReal with
          | error failure => exact .inr (.inl ⟨.inr (.inl ⟨failure, rfl⟩), _, rfl⟩)
          | ok timestamp =>
              cases h.expiresAt.toReal with
              | error failure => exact .inr (.inl ⟨.inr (.inr ⟨failure, rfl⟩), _, rfl⟩)
              | ok expiresAt => exact .inr (.inr ⟨by simp, rfl, _, rfl⟩)

end CacheRecord

open CacheRecord (Nested Unfit)

section Entries

variable {entries : Entries} {name : String}

theorem recordName_ne_parent (key : String) : recordName key ≠ ".." := by
  intro heq
  have hlength := congrArg (fun s => s.toList.length) heq
  simp only [toList_recordName, List.length_append] at hlength
  simp at hlength

theorem at?_singleton : (DiskNode.folder entries).at? [name] = Table.get? name entries := by
  cases hget : Table.get? name entries <;>
    simp [DiskNode.at?, DiskNode.child?, DiskNode.entries, hget]

theorem stat_of_file (hparent : name ≠ "..") (hname : nameFault? name = none)
    {bytes : List UInt8} {modified : Binary64}
    (hget : Table.get? name entries = some (.file bytes modified)) :
    (DiskNode.folder entries).stat [name] = .ok (.file bytes modified) := by
  rw [DiskNode.stat, DiskNode.locate, DiskNode.follow]
  simp [hparent, hname, at?_singleton, hget]

theorem stat_of_none (hparent : name ≠ "..") (hname : nameFault? name = none)
    (hget : Table.get? name entries = none) :
    (DiskNode.folder entries).stat [name] = .error .missing := by
  rw [DiskNode.stat, DiskNode.locate, DiskNode.follow]
  simp [hparent, hname, at?_singleton, hget]

/-- What can be read is a file, or a link to one, under a name that a folder can hold. -/
theorem removable_of_read (hparent : name ≠ "..") {bytes : List UInt8}
    (hread : (DiskNode.folder entries).read [name] = .ok bytes) :
    nameFault? name = none ∧ ∃ node, Table.get? name entries = some node ∧
      ∀ inner, node ≠ .folder inner := by
  rw [DiskNode.read, DiskNode.stat, DiskNode.locate, DiskNode.follow] at hread
  simp only [beq_iff_eq, hparent, if_false, List.nil_append, at?_singleton] at hread
  cases hname : nameFault? name with
  | some fault => simp [hname] at hread
  | none =>
      refine ⟨rfl, ?_⟩
      cases hget : Table.get? name entries with
      | none => simp [hname, hget] at hread
      | some node =>
          refine ⟨node, rfl, ?_⟩
          rintro inner rfl
          simp [hname, hget, DiskNode.follow, at?_singleton] at hread

theorem get?_setEntry_none : Table.get? name (DiskNode.setEntry name none entries) = none := by
  rw [Table.get?_eq_none_iff]
  simp [DiskNode.setEntry]

end Entries

/-- Whether an operation finds nothing and takes one file away, and nothing else. -/
structure Discarded (name : String) (folder : CacheFolder)
    (step : CacheStep (Option CacheRecord)) : Prop where
  result : step.result = .ok none
  gone : step.folder.read name = .error .missing
  others : ∃ entries, folder = .present entries ∧
    step.folder = .present (DiskNode.setEntry name none entries)

namespace RepoCache

variable {c : RepoCache} {now : Binary64} {location branch : String} {folder : CacheFolder}

/-- Whether bytes are those of a complete record of this version that has not expired. -/
def Counts (c : RepoCache) (now : Binary64) (bytes : List UInt8) : Prop :=
  ∃ v, CacheRecord.document bytes = .ok v ∧ CacheRecord.isCurrent c.version now v ∧
    (CacheRecord.heading? v).isSome

/-- Whether bytes are nested too deeply, or those of a record that counts but is unfit. -/
def Breaks (c : RepoCache) (now : Binary64) (bytes : List UInt8) : Prop :=
  Nested bytes ∨ ∃ v, CacheRecord.document bytes = .ok v ∧
    CacheRecord.isCurrent c.version now v ∧ Unfit v

/-- The name of the file of a location and a branch. -/
def fileOf (c : RepoCache) (location branch : String) : String :=
  recordName (c.key location branch)

theorem discarded_of_miss {name : String} (hparent : name ≠ "..") {bytes : List UInt8}
    (hread : folder.read name = .ok bytes) (report : LogRecord) :
    Discarded name folder (c.miss folder name report) := by
  cases folder with
  | present entries =>
      obtain ⟨hname, node, hget, hnode⟩ := removable_of_read hparent hread
      have hremoved : removeFile name entries = .removed (DiskNode.setEntry name none entries) := by
        rw [removeFile, hget]
        cases node with
        | folder inner => exact absurd rfl (hnode inner)
        | _ => rfl
      have hfolder : (c.miss (.present entries) name report).folder =
          .present (DiskNode.setEntry name none entries) := by
        simp only [miss, discard, hremoved]
      refine ⟨by simp only [miss], ?_, entries, rfl, hfolder⟩
      rw [hfolder, CacheFolder.read, DiskNode.read, stat_of_none hparent hname get?_setEntry_none]
  | _ => cases hread

/-- What comes of asking for a record whose file can be read. -/
theorem get_of_read (now : Binary64) {bytes : List UInt8}
    (hread : folder.read (c.fileOf location branch) = .ok bytes) :
    (c.Breaks now bytes ∧ (c.get now location branch folder).Fails ∧
        (c.get now location branch folder).folder = folder) ∨
      (¬c.Breaks now bytes ∧ c.Counts now bytes ∧
        ∃ record, (c.get now location branch folder).result = .ok (some record)) ∨
      (¬c.Breaks now bytes ∧ ¬c.Counts now bytes ∧
        Discarded (c.fileOf location branch) folder (c.get now location branch folder)) := by
  have hget : c.get now location branch folder = c.judge now location branch folder bytes := by
    rw [get]
    change folder.read (recordName (c.key location branch)) = .ok bytes at hread
    simp only [hread]
  have hmiss := discarded_of_miss (c := c) (recordName_ne_parent (c.key location branch)) hread
  rw [hget, judge]
  rcases CacheRecord.document_cases bytes with
    ⟨hnested, corrupt, failure, hdocument, hdeep⟩ | ⟨hnested, corrupt, hdocument, hdeep⟩ |
    ⟨hnested, v, hdocument⟩
  · refine .inl ⟨.inl hnested, ?_⟩
    simp only [hdocument, hdeep]
    exact ⟨⟨failure, rfl⟩, trivial⟩
  · refine .inr (.inr ⟨?_, ?_, ?_⟩)
    · simp [Breaks, hnested, hdocument]
    · simp [Counts, hdocument]
    · simp only [hdocument, hdeep]
      exact hmiss _
  · have hbreaks : c.Breaks now bytes ↔ CacheRecord.isCurrent c.version now v ∧ Unfit v := by
      simp [Breaks, hnested, hdocument]
    have hcounts : c.Counts now bytes ↔
        CacheRecord.isCurrent c.version now v ∧ (CacheRecord.heading? v).isSome := by
      simp [Counts, hdocument]
    rw [hbreaks, hcounts]
    cases hcurrent : CacheRecord.isCurrent c.version now v with
    | false =>
        refine .inr (.inr ⟨by simp, by simp, ?_⟩)
        simp only [hdocument, hcurrent]
        exact hmiss _
    | true =>
        simp only [hdocument, hcurrent, if_true, true_and]
        rcases CacheRecord.ofJson_cases (c.key location branch) v with
          ⟨hheading, hrecord⟩ | ⟨hunfit, failure, hrecord⟩ | ⟨hunfit, hheading, record, hrecord⟩
        · refine .inr (.inr ⟨?_, by simp [hheading], ?_⟩)
          · simp [Unfit, hheading]
          · simp only [hrecord]
            exact hmiss _
        · refine .inl ⟨hunfit, ?_⟩
          simp only [hrecord]
          exact ⟨⟨failure, rfl⟩, trivial⟩
        · refine .inr (.inl ⟨hunfit, hheading, record, ?_⟩)
          simp only [hrecord]

theorem get_of_unread {fault : FileFault}
    (hread : folder.read (c.fileOf location branch) = .error fault)
    (hfault : fault ≠ .nullCharacter) :
    (c.get now location branch folder).result = .ok none ∧
      (c.get now location branch folder).folder = folder := by
  change folder.read (recordName (c.key location branch)) = .error fault at hread
  cases fault with
  | nullCharacter => exact absurd rfl hfault
  | _ => simp [get, hread]

/-- A path that no file can have is not a storage error, and is not caught. -/
theorem get_of_nullCharacter
    (hread : folder.read (c.fileOf location branch) = .error .nullCharacter) :
    (c.get now location branch folder).Fails ∧
      (c.get now location branch folder).folder = folder := by
  change folder.read (recordName (c.key location branch)) = .error .nullCharacter at hread
  simp [get, hread, CacheStep.Fails]

theorem get_fails_iff :
    (c.get now location branch folder).Fails ↔
      folder.read (c.fileOf location branch) = .error .nullCharacter ∨
        ∃ bytes, folder.read (c.fileOf location branch) = .ok bytes ∧ c.Breaks now bytes := by
  cases hread : folder.read (c.fileOf location branch) with
  | error fault =>
      by_cases hfault : fault = .nullCharacter
      · subst hfault
        simp [get_of_nullCharacter hread]
      · simp [CacheStep.Fails, get_of_unread hread hfault, hfault]
  | ok bytes =>
      simp only [Except.ok.injEq, exists_eq_left', reduceCtorEq, false_or]
      rcases get_of_read now hread with
        ⟨hbreaks, hfails, -⟩ | ⟨hbreaks, -, record, hresult⟩ | ⟨hbreaks, -, hdiscarded⟩
      · exact iff_of_true hfails hbreaks
      · exact iff_of_false (by simp [CacheStep.Fails, hresult]) hbreaks
      · exact iff_of_false (by simp [CacheStep.Fails, hdiscarded.result]) hbreaks

/-- Bytes that are no record that counts are removed, unless they are nested too deeply. -/
theorem get_discards {bytes : List UInt8}
    (hread : folder.read (c.fileOf location branch) = .ok bytes) (hnested : ¬Nested bytes)
    (hcounts : ¬c.Counts now bytes) :
    Discarded (c.fileOf location branch) folder (c.get now location branch folder) := by
  rcases get_of_read now hread with
    ⟨hbreaks, -⟩ | ⟨-, hcounts', -⟩ | ⟨-, -, hdiscarded⟩
  · rcases hbreaks with hnested' | ⟨v, hdocument, hcurrent, h, hheading, -⟩
    · exact absurd hnested' hnested
    · exact absurd ⟨v, hdocument, hcurrent, by simp [hheading]⟩ hcounts
  · exact absurd hcounts' hcounts
  · exact hdiscarded

/-- Whether a name leads to a file with brackets nested too deeply. -/
def NestedAt (entries : Entries) (name : String) : Prop :=
  ∃ bytes modified, (DiskNode.folder entries).stat [name] = .ok (.file bytes modified) ∧
    Nested bytes

theorem summary?_fails_iff (c : RepoCache) (now : Binary64) {entries : Entries} {name : String} :
    (∃ failure, c.summary? now entries name = .error failure) ↔ NestedAt entries name := by
  unfold summary? NestedAt
  cases (DiskNode.folder entries).stat [name] with
  | error fault => simp
  | ok node =>
      cases node with
      | file bytes modified =>
          simp only [Except.ok.injEq, DiskNode.file.injEq]
          rcases CacheRecord.document_cases bytes with
            ⟨hnested, corrupt, failure, hdocument, hdeep⟩ | ⟨hnested, corrupt, hdocument, hdeep⟩ |
            ⟨hnested, v, hdocument⟩
          · simp [hdocument, hdeep, hnested]
          · simp [hdocument, hdeep, hnested]
          · simp [hdocument, hnested]
      | _ => simp

/-- Going through some items fails where one of them fails. -/
theorem mapM_fails_iff {α β ε : Type} {f : α → Except ε β} {items : List α} :
    (∃ failure, items.mapM f = .error failure) ↔
      ∃ item ∈ items, ∃ failure, f item = .error failure := by
  induction items with
  | nil => simp [pure, Except.pure]
  | cons item items ih =>
      rw [List.exists_mem_cons_iff, ← ih, List.mapM_cons]
      cases f item with
      | error failure => simp [bind, Except.bind]
      | ok value => cases items.mapM f <;> simp [bind, Except.bind, pure, Except.pure]

theorem evict_fails_iff (c : RepoCache) (now : Binary64) {entries : Entries} :
    (∃ failure, c.evict now entries = .error failure) ↔
      ∃ name ∈ recordNames entries, NestedAt entries name := by
  simp only [← summary?_fails_iff c now]
  rw [← mapM_fails_iff, evict, summaries]
  cases (recordNames entries).mapM (c.summary? now entries) <;>
    simp [bind, Except.bind, pure, Except.pure]

/-- Whether a record is written, and a file of a record is nested too deeply after that. -/
def WritesBesideNested (c : RepoCache) (context : PutContext) (record : CacheRecord)
    (folder : CacheFolder) : Prop :=
  context.trouble .makeFolder = none ∧ ∃ entries written, folder.make = .ok entries ∧
    c.writeRecord context (recordName record.key) record.toBytes entries = (written, none) ∧
    ∃ name ∈ recordNames written, NestedAt written name

theorem putRecord_fails_iff {context : PutContext} {record : CacheRecord} :
    (c.putRecord context record folder).Fails ↔ c.WritesBesideNested context record folder := by
  unfold putRecord WritesBesideNested CacheStep.Fails
  cases htrouble : context.trouble .makeFolder with
  | some text => simp
  | none =>
      cases hmake : folder.make with
      | error fault => simp
      | ok entries =>
          simp only [true_and, Except.ok.injEq, exists_and_left, exists_eq_left']
          cases c.writeRecord context (recordName record.key) record.toBytes entries with
          | mk written failed =>
              cases failed with
              | some text => simp
              | none =>
                  simp only [Prod.mk.injEq, and_true, exists_eq_left',
                    ← evict_fails_iff c context.now]
                  cases c.evict context.now written <;> simp

theorem newRecord_fails_iff (c : RepoCache) (now : Binary64) (location branch : String)
    (entities : List Entity) (files : List FileRecord) (repository : Coordinates) :
    (∃ failure, c.newRecord now location branch entities files repository = .error failure) ↔
      c.ttl.TooLarge := by
  rw [newRecord, ← Quantity.toReal_fails_iff]
  cases c.ttl.toReal <;> simp [bind, Except.bind, pure, Except.pure]

theorem put_fails_iff {context : PutContext} {entities : List Entity} {files : List FileRecord}
    {repository : Coordinates} :
    (c.put context location branch entities files repository folder).Fails ↔
      c.ttl.TooLarge ∨ ∃ record,
        c.newRecord context.now location branch entities files repository = .ok record ∧
          c.WritesBesideNested context record folder := by
  rw [put, ← newRecord_fails_iff c context.now location branch entities files repository]
  cases c.newRecord context.now location branch entities files repository with
  | error failure => simp [CacheStep.Fails]
  | ok record => simp [putRecord_fails_iff]

/-- The times of what bears the name of a record, be it a file or a folder. -/
def timesOf (c : RepoCache) (entries : Entries) : List Binary64 :=
  (recordNames entries).filterMap fun name =>
    ((DiskNode.folder entries).stat [name]).toOption.map fun node => (c.extentOf name node).2

/-- Whether there is a time, and it has no date. -/
def Undated (time : Option Binary64) : Prop :=
  ∃ t, time = some t ∧ ∃ failure, Timestamp.text t = .error failure

theorem mapM_text_fails_iff {time : Option Binary64} :
    (∃ failure, time.mapM Timestamp.text = .error failure) ↔ Undated time := by
  unfold Undated
  cases time with
  | none => simp [pure, Except.pure]
  | some t => cases htext : Timestamp.text t <;> simp [htext, Functor.map, Except.map]

/-- Whether the earliest or the latest of the times of a folder's records has no date. -/
def HoldsUndated (c : RepoCache) (folder : CacheFolder) : Prop :=
  ∃ entries, folder.list = .ok entries ∧
    (Undated (extreme Binary64.lt (c.timesOf entries)) ∨
      Undated (extreme (fun a b => b.lt a) (c.timesOf entries)))

theorem stats_fails_iff : (c.stats folder).Fails ↔ c.HoldsUndated folder := by
  unfold stats HoldsUndated CacheStep.Fails
  cases folder.list with
  | error fault => simp
  | ok entries =>
      have htimes : ((recordNames entries).filterMap fun name =>
          ((DiskNode.folder entries).stat [name]).toOption.map (c.extentOf name)).map Prod.snd =
            c.timesOf entries := by
        rw [timesOf, List.map_filterMap]
        simp only [Option.map_map]
        rfl
      simp only [htimes, Except.ok.injEq, exists_eq_left', ← mapM_text_fails_iff]
      cases (extreme Binary64.lt (c.timesOf entries)).mapM Timestamp.text with
      | error failure => simp [bind, Except.bind]
      | ok oldest =>
          cases (extreme (fun a b => b.lt a) (c.timesOf entries)).mapM Timestamp.text <;>
            simp [bind, Except.bind, pure, Except.pure]

theorem not_clear_fails : ¬(c.clear folder).Fails := by
  unfold clear CacheStep.Fails
  cases folder.list <;> simp

section Loose

variable {location branch : LooseText}

theorem getLoose_fails_iff :
    (c.getLoose now location branch folder).Fails ↔
      (location.IsBroken ∨ branch.IsBroken) ∨
        (c.get now location.shown branch.shown folder).Fails := by
  by_cases h : location.IsBroken ∨ branch.IsBroken
  · obtain ⟨failure, hfails⟩ := c.getLoose_of_isBroken h now folder
    exact iff_of_true ⟨failure, by rw [hfails]⟩ (.inl h)
  · rw [c.getLoose_of_not_isBroken h, or_iff_right h]

theorem putLoose_fails_iff {context : PutContext} {entities : List Entity}
    {files : List FileRecord} {repository : Coordinates} :
    (c.putLoose context location branch entities files repository folder).Fails ↔
      (location.IsBroken ∨ branch.IsBroken) ∨
        (c.put context location.shown branch.shown entities files repository folder).Fails := by
  by_cases h : location.IsBroken ∨ branch.IsBroken
  · obtain ⟨failure, hfails⟩ := c.putLoose_of_isBroken h context entities files repository folder
    exact iff_of_true ⟨failure, by rw [hfails]⟩ (.inl h)
  · rw [c.putLoose_of_not_isBroken h, or_iff_right h]

end Loose

end RepoCache

/--
When trouble leaves a cache, whatever stands in its folder: exactly where a location or
a branch cannot be written, where the path of a record holds a null character or the
record breaks, where a record is stored for too long a time or beside one that is nested
too deeply, and where a time has no date, be it that of a file or of a folder. Otherwise
bytes that are no record that counts are not found and are gone, and a file that cannot
be read stays.
-/
theorem cache_fails_iff_broken (c : RepoCache) (now : Binary64) (context : PutContext)
    (location branch : LooseText) (entities : List Entity) (files : List FileRecord)
    (repository : Coordinates) (folder : CacheFolder) :
    ((c.getLoose now location branch folder).Fails ↔
      (location.IsBroken ∨ branch.IsBroken) ∨
        folder.read (c.fileOf location.shown branch.shown) = .error .nullCharacter ∨
          ∃ bytes, folder.read (c.fileOf location.shown branch.shown) = .ok bytes ∧
            c.Breaks now bytes) ∧
    (¬(location.IsBroken ∨ branch.IsBroken) →
      (∀ bytes, folder.read (c.fileOf location.shown branch.shown) = .ok bytes →
        ¬Nested bytes → ¬c.Counts now bytes →
          Discarded (c.fileOf location.shown branch.shown) folder
            (c.getLoose now location branch folder)) ∧
      ∀ fault, folder.read (c.fileOf location.shown branch.shown) = .error fault →
        fault ≠ .nullCharacter →
          (c.getLoose now location branch folder).result = .ok none ∧
            (c.getLoose now location branch folder).folder = folder) ∧
    ((c.putLoose context location branch entities files repository folder).Fails ↔
      (location.IsBroken ∨ branch.IsBroken) ∨ c.ttl.TooLarge ∨ ∃ record,
        c.newRecord context.now location.shown branch.shown entities files repository =
          .ok record ∧ c.WritesBesideNested context record folder) ∧
    ((c.stats folder).Fails ↔ c.HoldsUndated folder) ∧
    ¬(c.clear folder).Fails := by
  refine ⟨?_, fun hwhole => ?_, ?_, RepoCache.stats_fails_iff, RepoCache.not_clear_fails⟩
  · rw [RepoCache.getLoose_fails_iff, RepoCache.get_fails_iff]
  · rw [c.getLoose_of_not_isBroken hwhole]
    exact ⟨fun _ hread hnested hcounts => RepoCache.get_discards hread hnested hcounts,
      fun _ hread hfault => RepoCache.get_of_unread hread hfault⟩
  · rw [RepoCache.putLoose_fails_iff, RepoCache.put_fails_iff]

namespace TroubledCache

def cache : RepoCache where
  directory := "cache"

def location : String := "acme/widgets"

def context : PutContext := ⟨.zero, .zero, ".tmp-.part", fun _ => none⟩

/-- A folder with some bytes in the place of the record of a location. -/
def holding (bytes : List UInt8) : CacheFolder :=
  .present [(cache.fileOf location "main", .file bytes .zero)]

theorem read_holding (bytes : List UInt8) :
    (holding bytes).read (cache.fileOf location "main") = .ok bytes := by
  have hkey : IsRecordKey (cache.key location "main") := isRecordKey_hexDigest _
  have hget : Table.get? (cache.fileOf location "main")
      [(cache.fileOf location "main", DiskNode.file bytes .zero)] = some (.file bytes .zero) := by
    simp [Table.get?]
  have hstat := stat_of_file (recordName_ne_parent _) hkey.nameFault? hget
  simp only [RepoCache.fileOf] at hstat ⊢
  simp only [holding, CacheFolder.read, DiskNode.read, RepoCache.fileOf, hstat]

theorem decode_notText : ∃ fault, Utf8.decode [0xff] = .error fault :=
  ⟨_, rfl⟩

/-- Bytes that are no text are gone after the record has been asked for; nothing else fails. -/
theorem cache_fails_iff_broken_notText :
    (holding [0xff]).read (cache.fileOf location "main") = .ok [0xff] ∧ ¬Nested [0xff] ∧
      ¬cache.Counts .zero [0xff] ∧
      Discarded (cache.fileOf location "main") (holding [0xff])
        (cache.getLoose .zero (.ofString location) (.ofString "main") (holding [0xff])) ∧
      CacheFolder.absent.read (cache.fileOf location "main") = .error .missing ∧
      (cache.getLoose .zero (.ofString location) (.ofString "main") .absent).result =
        .ok none := by
  obtain ⟨fault, hdecode⟩ := decode_notText
  have hnested : ¬Nested [0xff] := by
    rintro ⟨text, list, htext, -⟩
    rw [hdecode] at htext
    cases htext
  have hcounts : ¬cache.Counts .zero [0xff] := by
    rintro ⟨v, hv, -⟩
    simp [CacheRecord.document, hdecode] at hv
  have hwhole : ¬((LooseText.ofString location).IsBroken ∨
      (LooseText.ofString "main").IsBroken) :=
    not_or.mpr ⟨LooseText.not_isBroken_ofString _, LooseText.not_isBroken_ofString _⟩
  obtain ⟨hheld, -⟩ := (cache_fails_iff_broken cache .zero context (.ofString location)
    (.ofString "main") [] [] default (holding [0xff])).2.1 hwhole
  obtain ⟨-, habsent⟩ := (cache_fails_iff_broken cache .zero context (.ofString location)
    (.ofString "main") [] [] default .absent).2.1 hwhole
  rw [LooseText.shown_ofString, LooseText.shown_ofString] at hheld habsent
  exact ⟨read_holding _, hnested, hcounts, hheld [0xff] (read_holding _) hnested hcounts, rfl,
    (habsent .missing rfl (by decide)).1⟩

/-- A record of which all parts are there, with a list in the place of the type of its file. -/
def document : Json :=
  .obj [("repoUrl", .str location), ("branch", .str "main"), ("timestamp", .real (.ofInt 1000000)),
    ("expiresAt", .real (.ofInt 2000000)), ("version", .str "1.0.0"), ("components", .arr []),
    ("allFiles", .arr [.obj [("path", .str "src/App.tsx"), ("type", .arr [.str "blob"]),
      ("url", .str "")]]),
    ("repository", (Coordinates.mk "acme" "widgets" "main").toJson)]

theorem readable_document : Json.Readable Json.maxDepth document := by
  have hfile : Json.Readable 978 (.obj [("path", .str "src/App.tsx"), ("type", .arr [.str "blob"]),
      ("url", .str "")]) := by
    refine .obj (by decide) fun field hmem => ?_
    simp only [List.mem_cons, List.not_mem_nil, or_false] at hmem
    rcases hmem with rfl | rfl | rfl
    · exact .str _
    · exact Json.readable_strings ["blob"] _
    · exact .str _
  refine .obj (by decide) fun field hmem => ?_
  simp only [List.mem_cons, List.not_mem_nil, or_false] at hmem
  rcases hmem with rfl | rfl | rfl | rfl | rfl | rfl | rfl | rfl
  · exact .str _
  · exact .str _
  · exact .real (Binary64.valid_ofInt _)
  · exact .real (Binary64.valid_ofInt _)
  · exact .str _
  · exact .arr (by simp)
  · exact .arr (by simpa using hfile)
  · exact Coordinates.readable_toJson _ _

theorem breaks_document :
    cache.Breaks (.ofInt 1500000) (Utf8.encode document.compact) := by
  refine .inr ⟨document, CacheRecord.document_compact readable_document, by decide +kernel, ?_⟩
  exact ⟨_, rfl, .inl ⟨_, List.mem_singleton_self _, ⟨.ofString "src/App.tsx", rfl⟩, _, rfl,
    trivial⟩⟩

theorem not_always_contained :
    ¬∀ (c : RepoCache) (now : Binary64) (context : PutContext) (location branch : String)
        (entities : List Entity) (files : List FileRecord) (repository : Coordinates)
        (folder : CacheFolder),
      ¬(c.get now location branch folder).Fails ∧
        ¬(c.put context location branch entities files repository folder).Fails ∧
        ¬(c.stats folder).Fails ∧ ¬(c.clear folder).Fails := by
  intro hcontained
  have hget := (hcontained cache (.ofInt 1500000) context
    location "main" [] [] default (holding (Utf8.encode document.compact))).1
  exact hget (RepoCache.get_fails_iff.mpr (.inr ⟨_, read_holding _, breaks_document⟩))

end TroubledCache

end RepoAtlas
