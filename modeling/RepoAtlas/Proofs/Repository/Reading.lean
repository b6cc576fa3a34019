import RepoAtlas.Proofs.Disk.Links
import RepoAtlas.Proofs.Repository.Listing

/-!
Reading the files that a repository on disk lists. What goes wrong with one of
them is about that file, unless its path cannot be resolved.
-/
namespace RepoAtlas

namespace PurePath

theorem rootOf_of_ne_slash {chars : List Char} (h : ∀ rest, chars ≠ '/' :: rest) :
    rootOf chars = "" := by
  unfold rootOf
  split
  · exact absurd rfl (h _)
  · exact absurd rfl (h _)
  · exact absurd rfl (h _)
  · rfl

/-- The text of a path is read as its parts, where each of them leaves a trace. -/
theorem ofString_intercalate_of_kept {names : List String} (hne : names ≠ [])
    (hslash : ∀ name ∈ names, '/' ∉ name.toList)
    (hkept : ∀ name ∈ names, name ≠ "" ∧ name ≠ ".") :
    ofString ("/".intercalate names) = ⟨"", names⟩ := by
  have hsplit := Text.splitOnChar_intercalate hne hslash
  have hroot : rootOf ("/".intercalate names).toList = "" := by
    obtain ⟨name, rest, rfl⟩ := List.exists_cons_of_ne_nil hne
    have hfirst := hkept name List.mem_cons_self
    have hchars : ∃ more, ("/".intercalate (name :: rest)).toList = name.toList ++ more := by
      cases rest with
      | nil => exact ⟨[], by rw [String.intercalate_singleton, List.append_nil]⟩
      | cons next rest => exact ⟨_, by rw [String.intercalate_cons_cons, Text.toList_append_slash]⟩
    obtain ⟨more, hchars⟩ := hchars
    apply rootOf_of_ne_slash
    intro behind heq
    rw [hchars] at heq
    cases hname : name.toList with
    | nil => exact hfirst.1 (String.toList_eq_nil_iff.mp hname)
    | cons c chars =>
        rw [hname] at heq
        obtain rfl := (List.cons.inj heq).1
        exact hslash name List.mem_cons_self (by simp [hname])
  rw [ofString, hsplit, hroot]
  congr 1
  apply List.filter_eq_self.mpr
  intro name hmem
  simp [hkept name hmem]

/-- The text of a path of names is read as these names. -/
theorem ofString_intercalate {names : List String} (hne : names ≠ [])
    (hnames : ∀ name ∈ names, IsName name) :
    ofString ("/".intercalate names) = ⟨"", names⟩ :=
  ofString_intercalate_of_kept hne (fun name hmem => (hnames name hmem).slash)
    fun name hmem => ⟨(hnames name hmem).nonempty, (hnames name hmem).notHere⟩

end PurePath

namespace LocalTree

variable {t : LocalTree} {disk : DiskNode}

/-- Whether what reading a file comes to is about that file alone. -/
inductive ReadsOrSkips (path : String) : Except Failure String → Prop where
  | reads (text : String) : ReadsOrSkips path (.ok text)
  | skips (reason : String) : ReadsOrSkips path (.error (.unreadableFile path reason))

/-- The names from the root of the disk to what is listed with a path. -/
def namesOf (t : LocalTree) (path : String) : List String :=
  t.folder ++ Text.splitOnChar '/' path

/-- What is listed as a blob lies on the disk, under names that a path can hold. -/
theorem found_of_mem_files (hdisk : disk.WellNamed) {file : FileRecord}
    (hfile : file ∈ t.files disk) (hblob : file.type = .blob) :
    (∀ name ∈ t.namesOf file.path, IsName name) ∧
      namesFrom t.folder file.path = t.namesOf file.path ∧
      ∃ found, disk.at? (t.namesOf file.path) = some found ∧
        ∀ entries, found ≠ .folder entries := by
  obtain ⟨l, hl, rfl⟩ := List.mem_map.mp hfile
  have hlisted : l.isFolder = false := by
    by_contra htree
    rw [if_pos (by simpa using htree)] at hblob
    cases hblob
  cases hroot : disk.at? t.folder with
  | none =>
      rw [listing, hroot] at hl
      cases hl
  | some root =>
      obtain ⟨hfolder, hnamed⟩ := hdisk.of_at? hroot
      have hshows := (mem_listing_iff hroot hnamed).mp hl
      obtain ⟨found, hfound, hkind⟩ := hshows.itself
      have hnames := (hnamed.of_at? hfound).1
      refine ⟨List.forall_mem_append.mpr ⟨hfolder, hnames⟩, ?_, found, ?_, ?_⟩
      · have hpath := PurePath.ofString_intercalate hshows.named hnames
        rw [Listed.names, Text.intercalate_splitOnChar] at hpath
        rw [namesFrom, hpath]
        rfl
      · rw [namesOf, DiskNode.at?_append, hroot]
        exact hfound
      · rintro entries rfl
        rw [hlisted] at hkind
        cases hkind

/-- A file is read, or skipped, unless its path cannot be resolved. -/
theorem readText_unexpected_iff {path : String}
    (hnames : ∀ name ∈ namesFrom t.folder path, IsName name) {cause : Unexpected} :
    t.readText disk path = .error (.unexpected cause) ↔
      disk.Entangled (namesFrom t.folder path) cause := by
  rw [← DiskNode.resolve_eq_error_iff fun name hmem => (hnames name hmem).null, readText]
  constructor
  · intro h
    split at h
    · next hresolve =>
        rw [hresolve]
        cases h
        rfl
    · split at h
      · split at h
        · cases h
        · split at h <;> cases h
      · cases h
  · intro h
    rw [h]

theorem readsOrSkips {path : String}
    (h : ∀ cause, t.readText disk path ≠ .error (.unexpected cause)) :
    ReadsOrSkips path (t.readText disk path) := by
  revert h
  rw [readText]
  split
  · next cause _ =>
      intro h
      exact absurd rfl (h cause)
  · intro _
    split
    · split
      · exact .skips _
      · split
        · exact .skips _
        · exact .reads _
    · exact .skips _

end LocalTree

end RepoAtlas
