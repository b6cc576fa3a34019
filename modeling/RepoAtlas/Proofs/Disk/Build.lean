import RepoAtlas.Disk.Write
import RepoAtlas.Proofs.Disk.Path
import RepoAtlas.Proofs.Table

/-!
What making folders and writing files does to a disk: nothing, but for the
folders on the way to some names and the file at their end.
-/
namespace RepoAtlas.DiskNode

variable {names : List String} {allowed : List UInt8 → Prop} {after : DiskNode}

/--
Whether something came of what was there before, if anything, by building at
some names: what lies at any path lay there before, or is a folder on the way, or
is a file at the end that has not taken the place of a folder.
-/
def BuiltAt (names : List String) (allowed : List UInt8 → Prop) (before : Option DiskNode)
    (after : DiskNode) : Prop :=
  ∀ path, after.at? path = (before.bind fun node => node.at? path) ∨
    path <+: names ∧ (∃ entries, after.at? path = some (.folder entries)) ∨
    path = names ∧ (∀ entries, (before.bind fun node => node.at? path) ≠ some (.folder entries)) ∧
      ∃ bytes modified, allowed bytes ∧ after.at? path = some (.file bytes modified)

theorem builtAt_refl (names : List String) (allowed : List UInt8 → Prop) (node : DiskNode) :
    BuiltAt names allowed (some node) node :=
  fun _ => .inl rfl

/-- What is built in an empty folder is built where nothing was, folder and all. -/
theorem BuiltAt.of_empty (h : BuiltAt names allowed (some (folder [])) after) :
    BuiltAt names allowed none after := by
  intro path
  cases path with
  | nil =>
      rcases h [] with hsame | hfolder | ⟨-, hnot, -⟩
      · exact .inr (.inl ⟨List.nil_prefix, [], hsame⟩)
      · exact .inr (.inl hfolder)
      · exact absurd rfl (hnot [])
  | cons name path => exact h (name :: path)

/-- What is built below a name is built in the folder that holds the name. -/
theorem BuiltAt.set {name : String} {entries : Entries}
    (h : BuiltAt names allowed (Table.get? name entries) after) :
    BuiltAt (name :: names) allowed (some (folder entries))
      (folder (Table.set name after entries)) := by
  intro path
  cases path with
  | nil => exact .inr (.inl ⟨List.nil_prefix, _, rfl⟩)
  | cons first path =>
      have hcons : ∀ held : Entries, (folder held).at? (first :: path) =
          (Table.get? first held).bind fun node => node.at? path := fun _ => rfl
      rw [Option.bind_some, hcons, hcons]
      by_cases hname : name = first
      · subst hname
        rw [Table.get?_set_self, Option.bind_some]
        rcases h path with hsame | ⟨hway, hfolder⟩ | ⟨rfl, hfile⟩
        · exact .inl hsame
        · exact .inr (.inl ⟨List.prefix_cons_inj name |>.mpr hway, hfolder⟩)
        · exact .inr (.inr ⟨rfl, hfile⟩)
      · exact .inl (by rw [Table.get?_set_of_ne hname])

theorem builtAt_makeFolders (names : List String) (allowed : List UInt8 → Prop)
    (disk : DiskNode) : BuiltAt names allowed (some disk) (disk.makeFolders names).1 := by
  induction names generalizing disk with
  | nil => cases disk <;> exact builtAt_refl _ _ _
  | cons name names ih =>
      cases disk with
      | folder entries =>
          rw [makeFolders]
          split
          · exact builtAt_refl _ _ _
          · have hbelow := ih ((Table.get? name entries).getD (folder []))
            apply BuiltAt.set
            cases hget : Table.get? name entries with
            | none =>
                rw [hget] at hbelow
                exact hbelow.of_empty
            | some below =>
                rw [hget] at hbelow
                exact hbelow
      | _ => exact builtAt_refl _ _ _

/-- A file lies where there was no folder. -/
theorem builtAt_file {before : Option DiskNode} {bytes : List UInt8} (hbytes : allowed bytes)
    (modified : Binary64) (hfolder : ∀ entries, before ≠ some (.folder entries)) :
    BuiltAt [] allowed before (.file bytes modified) := by
  intro path
  cases path with
  | nil =>
      refine .inr (.inr ⟨rfl, ?_, bytes, modified, hbytes, rfl⟩)
      intro entries hbefore
      cases before with
      | none => cases hbefore
      | some node => exact hfolder entries hbefore
  | cons name path =>
      refine .inl ?_
      cases before with
      | none => rfl
      | some node =>
          cases node with
          | folder entries => exact absurd rfl (hfolder entries)
          | _ => rfl

theorem builtAt_putFile {bytes : List UInt8} (hbytes : allowed bytes) {modified : Binary64}
    {disk written : DiskNode} (h : disk.putFile bytes modified names = .ok written) :
    BuiltAt names allowed (some disk) written := by
  induction names generalizing disk written with
  | nil => cases disk <;> cases h
  | cons name names ih =>
      cases disk with
      | folder entries =>
          cases names with
          | nil =>
              rw [putFile] at h
              split at h
              · cases h
              · cases h
              · next hnot =>
                  obtain rfl := Except.ok.inj h
                  exact (builtAt_file hbytes modified hnot).set
          | cons second names =>
              rw [putFile] at h
              · cases hget : Table.get? name entries with
                | none => simp [hget] at h
                | some below =>
                    cases hbelow : below.putFile bytes modified (second :: names) with
                    | error fault => simp [hget, hbelow, Except.map] at h
                    | ok made =>
                        simp only [hget, hbelow, Except.map, Except.ok.injEq] at h
                        subst h
                        apply BuiltAt.set
                        rw [hget]
                        exact ih hbelow
              · simp
      | _ => cases names <;> cases h

end RepoAtlas.DiskNode
