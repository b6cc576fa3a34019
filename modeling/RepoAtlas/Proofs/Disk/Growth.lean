import RepoAtlas.Proofs.Disk.Build
import RepoAtlas.Proofs.Disk.Name

/-!
Folders that are made and files that are written where nothing is in the way:
that succeeds, they are there afterwards, and are found by following their path.
-/
namespace RepoAtlas.DiskNode

variable {disk : DiskNode} {names here : List String}

/-- Whether all names are ones that a folder can hold. -/
def Possible (names : List String) : Prop :=
  ∀ name ∈ names, nameFault? name = none

instance (names : List String) : Decidable (Possible names) :=
  inferInstanceAs (Decidable (∀ name ∈ names, nameFault? name = none))

/-- Whether nothing but folders lies on a path, as far as there is anything. -/
def ClearAlong (disk : DiskNode) (names : List String) : Prop :=
  ∀ front, front <+: names → ∀ node, disk.at? front = some node → ∃ entries, node = .folder entries

/-- What is clear behind a name is so from there on. -/
theorem ClearAlong.behind {name : String} {entries : Entries}
    (h : ClearAlong (.folder entries) (name :: names)) :
    ClearAlong ((Table.get? name entries).getD (.folder [])) names := by
  intro front hfront node hnode
  cases hget : Table.get? name entries with
  | none =>
      rw [hget, Option.getD_none] at hnode
      cases front with
      | nil => exact ⟨[], (Option.some.inj hnode).symm⟩
      | cons first rest => cases hnode
  | some below =>
      rw [hget, Option.getD_some] at hnode
      apply h (name :: front) (List.prefix_cons_inj name |>.mpr hfront)
      rw [at?_cons, hget]
      exact hnode

/-- Folders can be made where nothing else is in the way. -/
theorem makeFolders_of_clear (hclear : disk.ClearAlong names) (hnames : Possible names) :
    ∃ made entries, disk.makeFolders names = (made, none) ∧
      made.at? names = some (.folder entries) := by
  induction names generalizing disk with
  | nil =>
      obtain ⟨entries, rfl⟩ := hclear [] List.nil_prefix disk rfl
      exact ⟨_, entries, rfl, rfl⟩
  | cons name names ih =>
      obtain ⟨entries, rfl⟩ := hclear [] List.nil_prefix disk rfl
      obtain ⟨hname, hrest⟩ := List.forall_mem_cons.mp hnames
      obtain ⟨made, inner, hmade, hat⟩ := ih hclear.behind hrest
      refine ⟨.folder (Table.set name made entries), inner, ?_, ?_⟩
      · simp only [makeFolders, hname, hmade]
      · rw [at?_cons, Table.get?_set_self]
        exact hat

/-- A file can be written into a folder where no other folder has its name. -/
theorem putFile_of_clear {name : String} {entries : Entries} (bytes : List UInt8)
    (modified : Binary64) (hfolder : disk.at? names = some (.folder entries))
    (hname : nameFault? name = none)
    (hclear : ∀ inner, disk.at? (names ++ [name]) ≠ some (.folder inner)) :
    ∃ written, disk.putFile bytes modified (names ++ [name]) = .ok written ∧
      written.at? (names ++ [name]) = some (.file bytes modified) := by
  induction names generalizing disk with
  | nil =>
      obtain rfl := Option.some.inj hfolder
      refine ⟨.folder (Table.set name (.file bytes modified) entries), ?_, ?_⟩
      · rw [List.nil_append, putFile]
        rw [hname]
        split
        · next hfault => cases hfault
        · next inner _ hget =>
            refine absurd ?_ (hclear inner)
            rw [List.nil_append, at?_cons, hget]
            rfl
        · rfl
      · rw [List.nil_append, at?_cons, Table.get?_set_self]
        rfl
  | cons first names ih =>
      obtain ⟨held, rfl⟩ := folder_of_at?_cons hfolder
      rw [at?_cons, Option.bind_eq_some_iff] at hfolder
      obtain ⟨below, hget, hbelow⟩ := hfolder
      obtain ⟨written, hwritten, hat⟩ := ih hbelow (by
        intro inner hinner
        apply hclear inner
        rw [List.cons_append, at?_cons, hget]
        exact hinner)
      refine ⟨.folder (Table.set first written held), ?_, ?_⟩
      · rw [List.cons_append, putFile]
        · rw [hget]
          simp only [hwritten, Except.map]
        · simp
      · rw [List.cons_append, at?_cons, Table.get?_set_self]
        exact hat

section Following

variable {found : DiskNode} {links : Nat}

/-- Where there is no link, following names to what lies at them leads there. -/
theorem follow_of_at? (here : List String) (hup : ".." ∉ names) (hnames : Possible names)
    (hfree : disk.LinkFreeAlong (here ++ names)) (hfound : disk.at? (here ++ names) = some found) :
    disk.follow links names here = .ok ⟨here ++ names, some found⟩ := by
  induction names generalizing here with
  | nil =>
      rw [List.append_nil] at hfound ⊢
      rw [follow, hfound]
  | cons name names ih =>
      rw [List.mem_cons, not_or] at hup
      obtain ⟨hname, hrest⟩ := List.forall_mem_cons.mp hnames
      rw [List.append_cons] at hfree hfound ⊢
      rw [follow, if_neg (by simpa using Ne.symm hup.1), hname]
      simp only
      have hway : (disk.at? (here ++ [name])).bind (fun below => below.at? names) = some found := by
        rw [← at?_append]
        exact hfound
      split
      · next hnone =>
          rw [hnone] at hway
          cases hway
      · exact ih _ hup.2 hrest hfree hfound
      · next hfile =>
          rw [hfile, Option.bind_some] at hway
          cases names with
          | nil =>
              rw [List.append_nil, ← Option.some.inj hway]
              rfl
          | cons next rest => cases hway
      · next target hlink => exact absurd hlink (hfree _ (List.prefix_append _ _) target)

/-- A name that is not in a folder leads to a place where nothing is. -/
theorem follow_of_missing {name : String} {entries : Entries} (here : List String)
    (hup : ".." ∉ names ++ [name]) (hnames : Possible (names ++ [name]))
    (hfolder : disk.at? (here ++ names) = some (.folder entries))
    (hmissing : disk.at? (here ++ names ++ [name]) = none) :
    disk.follow links (names ++ [name]) here = .ok ⟨here ++ names ++ [name], none⟩ := by
  induction names generalizing here with
  | nil =>
      rw [List.append_nil] at hmissing ⊢
      have hdown : name ≠ ".." := by simpa [eq_comm] using hup
      have hpossible : nameFault? name = none := hnames name (by simp)
      rw [List.nil_append, follow, if_neg (by simpa using hdown), hpossible]
      simp only [hmissing]
      rfl
  | cons first names ih =>
      rw [List.cons_append, List.mem_cons, not_or] at hup
      obtain ⟨hfirst, hrest⟩ := List.forall_mem_cons.mp hnames
      rw [List.append_cons here] at hfolder hmissing ⊢
      rw [List.cons_append, follow, if_neg (by simpa using Ne.symm hup.1), hfirst]
      simp only
      have hway : (disk.at? (here ++ [first])).bind (fun below => below.at? names) =
          some (.folder entries) := by
        rw [← at?_append]
        exact hfolder
      split
      · next hnone =>
          rw [hnone] at hway
          cases hway
      · exact ih _ hup.2 hrest hfolder hmissing
      · next hfile =>
          rw [hfile, Option.bind_some] at hway
          cases names <;> cases hway
      · next target hlink =>
          rw [hlink, Option.bind_some] at hway
          cases names <;> cases hway

theorem stat_of_at? (hup : ".." ∉ names) (hnames : Possible names)
    (hfree : disk.LinkFreeAlong names) (hfound : disk.at? names = some found) :
    disk.stat names = .ok found := by
  rw [stat, locate, follow_of_at? [] hup hnames hfree hfound]

end Following

/-- A path without links and steps upwards is the one that it is resolved to. -/
theorem resolve_of_linkFree (hnull : ∀ name ∈ names, '\x00' ∉ name.toList) (hup : ".." ∉ names)
    (hfree : disk.LinkFreeAlong names) : disk.resolve names = .ok names := by
  have hpossible : (names.any fun name => name.toList.contains '\x00') = false := by
    simpa [List.any_eq_false] using hnull
  rw [resolve, hpossible, if_neg Bool.false_ne_true, replaceLinks_of_linkFree [] hup hfree]
  simp only [List.nil_append, normalNames_of_not_mem hup]

section Naming

/-- A folder stays well named when a name of it is set. -/
theorem WellNamed.set {entries : Entries} {name : String} {node : DiskNode}
    (h : WellNamed (.folder entries)) (hname : IsName name) (hnode : node.WellNamed) :
    WellNamed (.folder (Table.set name node entries)) := by
  cases h with
  | folder distinct hnames hbelow =>
      refine .folder ?_ ?_ ?_
      · rw [Table.map_fst_set]
        exact Text.nodup_addNew distinct
      · intro entry hentry
        rcases Table.mem_set hentry with rfl | hold
        · exact hname
        · exact hnames entry hold
      · intro entry hentry
        rcases Table.mem_set hentry with rfl | hold
        · exact hnode
        · exact hbelow entry hold

/-- What stands under a name, or an empty folder, is well named. -/
theorem WellNamed.getD {entries : Entries} (h : WellNamed (.folder entries)) (name : String) :
    ((Table.get? name entries).getD (.folder [])).WellNamed := by
  cases hget : Table.get? name entries with
  | none => exact .folder List.nodup_nil (by simp) (by simp)
  | some below =>
      cases h with
      | folder distinct hnames hbelow => exact hbelow _ (Table.mem_of_get? hget)

theorem WellNamed.makeFolders (h : disk.WellNamed) (hnames : ∀ name ∈ names, IsName name) :
    (disk.makeFolders names).1.WellNamed := by
  induction names generalizing disk with
  | nil => cases disk <;> exact h
  | cons name names ih =>
      cases disk with
      | folder entries =>
          obtain ⟨hname, hrest⟩ := List.forall_mem_cons.mp hnames
          rw [DiskNode.makeFolders]
          split
          · exact h
          · exact h.set hname (ih (h.getD name) hrest)
      | _ => exact h

theorem WellNamed.putFile {bytes : List UInt8} {modified : Binary64} {written : DiskNode}
    (h : disk.WellNamed) (hnames : ∀ name ∈ names, IsName name)
    (hput : disk.putFile bytes modified names = .ok written) : written.WellNamed := by
  induction names generalizing disk written with
  | nil => cases disk <;> cases hput
  | cons name names ih =>
      obtain ⟨hname, hrest⟩ := List.forall_mem_cons.mp hnames
      cases disk with
      | folder entries =>
          cases names with
          | nil =>
              rw [DiskNode.putFile] at hput
              split at hput
              · cases hput
              · cases hput
              · obtain rfl := Except.ok.inj hput
                exact h.set hname (.file _ _)
          | cons second names =>
              rw [DiskNode.putFile] at hput
              · cases hget : Table.get? name entries with
                | none => simp [hget] at hput
                | some below =>
                    have hbelow : below.WellNamed := by
                      have hheld := h.getD name
                      rwa [hget] at hheld
                    cases hmade : below.putFile bytes modified (second :: names) with
                    | error fault => simp [hget, hmade, Except.map] at hput
                    | ok made =>
                        simp only [hget, hmade, Except.map, Except.ok.injEq] at hput
                        subst hput
                        exact h.set hname (ih hbelow hrest hmade)
              · simp
      | _ => cases names <;> cases hput

end Naming

end RepoAtlas.DiskNode
