import RepoAtlas.Proofs.Disk.Path
import RepoAtlas.Proofs.Table
import RepoAtlas.Proofs.Text.Parts

/-!
Disks as they can be: every name in a folder is one that a path can hold, and
stands for one thing only.
-/
namespace RepoAtlas

/-- Whether a text can be the name of a file or a folder. -/
structure IsName (name : String) : Prop where
  nonempty : name ≠ ""
  notHere : name ≠ "."
  notUp : name ≠ ".."
  slash : '/' ∉ name.toList
  null : '\x00' ∉ name.toList

instance (name : String) : Decidable (IsName name) :=
  decidable_of_iff
    (name ≠ "" ∧ name ≠ "." ∧ name ≠ ".." ∧ '/' ∉ name.toList ∧ '\x00' ∉ name.toList)
    ⟨fun ⟨nonempty, notHere, notUp, slash, null⟩ => ⟨nonempty, notHere, notUp, slash, null⟩,
      fun h => ⟨h.nonempty, h.notHere, h.notUp, h.slash, h.null⟩⟩

namespace DiskNode

/-- Whether all folders of a disk hold names, each of them once. -/
inductive WellNamed : DiskNode → Prop where
  | file (bytes : List UInt8) (modified : Binary64) : WellNamed (file bytes modified)
  | link (target : String) : WellNamed (link target)
  | folder {entries : Entries} (distinct : (entries.map Prod.fst).Nodup)
      (names : ∀ entry ∈ entries, IsName entry.1)
      (below : ∀ entry ∈ entries, WellNamed entry.2) : WellNamed (folder entries)

variable {node found : DiskNode} {names : List String}

theorem at?_cons (entries : Entries) (name : String) (rest : List String) :
    (folder entries).at? (name :: rest) =
      (Table.get? name entries).bind fun below => below.at? rest := rfl

theorem WellNamed.single {name : String} (hname : IsName name) (h : node.WellNamed) :
    (DiskNode.folder [(name, node)]).WellNamed :=
  .folder (by simp) (by simpa using hname) (by simpa using h)

/-- Names that lead to something are those of a path, to something that is well named. -/
theorem WellNamed.of_at? (h : node.WellNamed) (hfound : node.at? names = some found) :
    (∀ name ∈ names, IsName name) ∧ found.WellNamed := by
  induction names generalizing node with
  | nil =>
      obtain rfl := Option.some.inj hfound
      exact ⟨by simp, h⟩
  | cons name names ih =>
      obtain ⟨entries, rfl⟩ := folder_of_at?_cons hfound
      rw [at?_cons, Option.bind_eq_some_iff] at hfound
      obtain ⟨below, hget, hbelow⟩ := hfound
      have hmem := Table.mem_of_get? hget
      cases h with
      | folder distinct hnames hfolders =>
          obtain ⟨hrest, hfound⟩ := ih (hfolders _ hmem) hbelow
          exact ⟨List.forall_mem_cons.mpr ⟨hnames _ hmem, hrest⟩, hfound⟩

end DiskNode

end RepoAtlas
