import RepoAtlas.Proofs.Cache.Trouble

/-!
Records that cannot be written. At whichever step the file system refuses, what
the steps before it did is taken back, and no other record has to go.
-/
namespace RepoAtlas

namespace CacheFolder

/-- Whether a folder is as it was, but that an empty one may stand where there was none. -/
def Undisturbed (before after : CacheFolder) : Prop :=
  after = before ∨ before = .absent ∧ after = .present []

theorem undisturbed_of_make {folder : CacheFolder} {entries : Entries}
    (h : folder.make = .ok entries) : folder.Undisturbed (.present entries) := by
  cases folder with
  | absent =>
      obtain rfl := Except.ok.inj h
      exact .inr ⟨rfl, rfl⟩
  | present held =>
      obtain rfl := Except.ok.inj h
      exact .inl rfl
  | _ => cases h

/-- Nothing can be read from a folder that holds nothing. -/
theorem read_empty_ne (name : String) (bytes : List UInt8) :
    (present []).read name ≠ .ok bytes := by
  intro hread
  by_cases hparent : name = ".."
  · subst hparent
    rw [CacheFolder.read, DiskNode.read, DiskNode.stat, DiskNode.locate, DiskNode.follow] at hread
    simp [DiskNode.follow, DiskNode.at?] at hread
  · obtain ⟨-, node, hget, -⟩ := removable_of_read hparent hread
    cases hget

/-- The same files can be read as before. -/
theorem Undisturbed.read_iff {before after : CacheFolder} (h : before.Undisturbed after)
    (name : String) (bytes : List UInt8) :
    after.read name = .ok bytes ↔ before.read name = .ok bytes := by
  rcases h with rfl | ⟨rfl, rfl⟩
  · rfl
  · exact ⟨fun hread => absurd hread (read_empty_ne name bytes), fun hread => nomatch hread⟩

end CacheFolder

namespace RepoCache

variable {context : PutContext} {name text : String} {entries : Entries}

/-- What goes wrong first when a record's file is written into a folder. -/
def writeTrouble (c : RepoCache) (context : PutContext) (name : String) (entries : Entries) :
    Option String :=
  (context.trouble .createTemporary).or
    ((context.trouble .writeText).or
      ((context.trouble .replaceRecord).or (c.replaceTrouble context.temporary name entries)))

/-- What goes wrong first when a record is stored, up to the moment its file is in its place. -/
def storeTrouble (c : RepoCache) (context : PutContext) (name : String) (folder : CacheFolder) :
    Option String :=
  (context.trouble .makeFolder).or
    (match folder.make with
      | .error fault => some (fault.message c.directory)
      | .ok entries => c.writeTrouble context name entries)

/-- The file beside the old one does not hinder that the old one is replaced. -/
theorem replaceTrouble_beside (c : RepoCache) {temporary : String}
    (hfresh : temporary ∉ entries.map Prod.fst) (created : DiskNode) (bytes : List UInt8)
    (modified : Binary64) :
    c.replaceTrouble temporary name (Table.set temporary (.file bytes modified)
      (Table.set temporary created entries)) = c.replaceTrouble temporary name entries := by
  rw [replaceTrouble, replaceTrouble, Table.get?_set, Table.get?_set]
  by_cases hname : temporary = name
  · subst hname
    rw [if_pos rfl, Table.get?_eq_none_iff.mpr hfresh]
  · rw [if_neg hname, if_neg hname]

/-- A file is written as a whole, or the folder is left as it was. -/
theorem writeRecord_eq_of_fresh (c : RepoCache) (hfresh : context.temporary ∉ entries.map Prod.fst)
    (bytes : List UInt8) :
    c.writeRecord context name bytes entries =
      match c.writeTrouble context name entries with
      | some text => (entries, some text)
      | none => (Table.set name (.file bytes context.stamp) entries, none) := by
  have hback := Table.filter_ne_of_not_mem hfresh
  rw [writeRecord, writeTrouble]
  simp only [DiskNode.setEntry, Table.filter_ne_set, hback, c.replaceTrouble_beside hfresh]
  cases context.trouble .createTemporary with
  | some text => rfl
  | none =>
      cases context.trouble .writeText with
      | some text => rfl
      | none =>
          cases context.trouble .replaceRecord with
          | some text => rfl
          | none => cases c.replaceTrouble context.temporary name entries <;> rfl

/-- A record that cannot be stored leaves the folder undisturbed, and the failure is reported. -/
theorem putRecord_of_trouble (c : RepoCache) {record : CacheRecord} {folder : CacheFolder}
    (hfresh : ∀ entries, folder.make = .ok entries → context.temporary ∉ entries.map Prod.fst)
    (htrouble : c.storeTrouble context (recordName record.key) folder = some text) :
    ∃ left, folder.Undisturbed left ∧
      c.putRecord context record folder = ⟨left, .ok (), [putFailed record text]⟩ := by
  rw [storeTrouble] at htrouble
  rw [putRecord]
  cases hmake : context.trouble .makeFolder with
  | some found =>
      rw [hmake] at htrouble
      obtain rfl := Option.some.inj htrouble
      exact ⟨folder, .inl rfl, rfl⟩
  | none =>
      rw [hmake, Option.none_or] at htrouble
      cases hentries : folder.make with
      | error fault =>
          rw [hentries] at htrouble
          obtain rfl := Option.some.inj htrouble
          exact ⟨folder, .inl rfl, rfl⟩
      | ok entries =>
          simp only [hentries] at htrouble
          refine ⟨.present entries, CacheFolder.undisturbed_of_make hentries, ?_⟩
          simp only [c.writeRecord_eq_of_fresh (hfresh entries hentries), htrouble]

end RepoCache

/--
A put whose record cannot be written, whichever of its steps fails, returns as
any other, if the name of its temporary file was not taken. All that it leaves is
a report: the files are those of before, the temporary one is gone, and no record
was removed. If no step fails, the record is written.
-/
theorem failed_put_changes_nothing {c : RepoCache} {context : PutContext}
    {location branch : String} {entities : List Entity} {files : List FileRecord}
    {repository : Coordinates} {record : CacheRecord} {folder : CacheFolder}
    (hrecord : c.newRecord context.now location branch entities files repository = .ok record)
    (hfresh : ∀ entries, folder.make = .ok entries →
      context.temporary ∉ entries.map Prod.fst) :
    let step := c.put context location branch entities files repository folder
    (∀ text, c.storeTrouble context (recordName record.key) folder = some text →
      step.result = .ok () ∧ step.records = [RepoCache.putFailed record text] ∧
        folder.Undisturbed step.folder ∧
        (∀ name bytes, step.folder.read name = .ok bytes ↔ folder.read name = .ok bytes) ∧
        ∀ entries, step.folder = .present entries →
          context.temporary ∉ entries.map Prod.fst) ∧
    (c.storeTrouble context (recordName record.key) folder = none →
      ∃ entries, folder.make = .ok entries ∧
        c.writeRecord context (recordName record.key) record.toBytes entries =
          (Table.set (recordName record.key) (.file record.toBytes context.stamp) entries,
            none)) := by
  have hput : c.put context location branch entities files repository folder =
      c.putRecord context record folder := by
    rw [RepoCache.put, hrecord]
  simp only [hput]
  constructor
  · intro text htrouble
    obtain ⟨left, hleft, hstep⟩ := c.putRecord_of_trouble hfresh htrouble
    rw [hstep]
    refine ⟨rfl, rfl, hleft, hleft.read_iff, ?_⟩
    rintro entries rfl
    rcases hleft with hsame | ⟨-, hempty⟩
    · exact hfresh entries (by rw [← hsame]; rfl)
    · obtain rfl := CacheFolder.present.inj hempty
      exact List.not_mem_nil
  · intro huntroubled
    obtain ⟨-, huntroubled⟩ := Option.or_eq_none_iff.mp huntroubled
    cases hentries : folder.make with
    | error fault =>
        rw [hentries] at huntroubled
        cases huntroubled
    | ok entries =>
        simp only [hentries] at huntroubled
        refine ⟨entries, rfl, ?_⟩
        rw [c.writeRecord_eq_of_fresh (hfresh entries hentries), huntroubled]

namespace BlockedCache

def cache : RepoCache where
  directory := "cache"
  ttl := .whole 60

def context : PutContext where
  now := .ofInt 1000
  stamp := .ofInt 1000
  temporary := ".tmp-x1.part"

def record : CacheRecord where
  key := cache.key "acme/widgets" "main"
  location := "acme/widgets"
  branch := "main"
  timestamp := .ofInt 1000
  expiresAt := .ofInt 1060
  version := "1.0.0"
  entities := []
  files := []
  repository := ⟨"acme", "widgets", "main"⟩

/-- A folder stands in the place of the record, beside an older record and a file left behind. -/
def entries : Entries :=
  [("old.json", .file [0x5b] .zero), (recordName record.key, .folder []),
    (".tmp-x0.part", .file [] .zero)]

theorem get?_entries : Table.get? (recordName record.key) entries = some (.folder []) := by
  have hkey : IsRecordKey record.key := isRecordKey_hexDigest _
  have hold : "old.json" ≠ recordName record.key := (hkey.recordName_ne (by decide)).symm
  simp [entries, Table.get?, hold]

theorem fresh : context.temporary ∉ entries.map Prod.fst := by
  have hkey : IsRecordKey record.key := isRecordKey_hexDigest _
  have hname : ".tmp-x1.part" ≠ recordName record.key := (hkey.recordName_ne (by decide)).symm
  simp [context, entries, hname]

theorem blocked :
    (cache.storeTrouble context (recordName record.key) (.present entries)).isSome := by
  simp only [RepoCache.storeTrouble, RepoCache.writeTrouble, CacheFolder.make, context,
    Option.none_or, RepoCache.replaceTrouble, get?_entries]
  rfl

end BlockedCache

open BlockedCache in
/-- A record whose place is taken by a folder is not stored, and an older one stays. -/
theorem failed_put_changes_nothing_blocked :
    let step := cache.put context "acme/widgets" "main" [] [] ⟨"acme", "widgets", "main"⟩
      (.present entries)
    cache.newRecord context.now "acme/widgets" "main" [] [] ⟨"acme", "widgets", "main"⟩ =
        .ok record ∧
      context.temporary ∉ entries.map Prod.fst ∧
      (cache.storeTrouble context (recordName record.key) (.present entries)).isSome ∧
      step.result = .ok () ∧ step.folder = .present entries ∧
      ∃ text, step.records = [RepoCache.putFailed record text] := by
  intro step
  have hrecord : cache.newRecord context.now "acme/widgets" "main" [] []
      ⟨"acme", "widgets", "main"⟩ = .ok record := by
    decide +kernel
  have hfresh : ∀ held, (CacheFolder.present entries).make = .ok held →
      context.temporary ∉ held.map Prod.fst := by
    intro held hheld
    obtain rfl := Except.ok.inj hheld
    exact fresh
  obtain ⟨text, htrouble⟩ := Option.isSome_iff_exists.mp blocked
  obtain ⟨hresult, hrecords, hfolder, -⟩ :=
    (failed_put_changes_nothing hrecord hfresh).1 text htrouble
  have hsame : step.folder = .present entries := by
    rcases hfolder with hsame | ⟨habsent, -⟩
    · exact hsame
    · cases habsent
  exact ⟨hrecord, fresh, blocked, hresult, hsame, text, hrecords⟩

end RepoAtlas
