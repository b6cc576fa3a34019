import RepoAtlas.Disk.Locate
import RepoAtlas.Proofs.Table

/-!
Paths that no link lies on: following one changes nothing about its names.
-/
namespace RepoAtlas.DiskNode

variable {disk node : DiskNode} {names : List String}

theorem at?_append (node : DiskNode) (front rest : List String) :
    node.at? (front ++ rest) = (node.at? front).bind fun below => below.at? rest := by
  induction front generalizing node with
  | nil => rfl
  | cons name front ih =>
      rw [List.cons_append, at?, at?]
      cases node.child? name with
      | none => rfl
      | some below => exact ih below

/-- What leads to something is a folder. -/
theorem folder_of_at?_cons {name : String} {rest : List String} {found : DiskNode}
    (h : node.at? (name :: rest) = some found) : ∃ entries, node = folder entries := by
  cases node with
  | folder entries => exact ⟨entries, rfl⟩
  | _ => simp [at?, child?, entries] at h

/-- Whether no link lies on a path, neither at its end nor on the way. -/
def LinkFreeAlong (disk : DiskNode) (names : List String) : Prop :=
  ∀ front, front <+: names → ∀ target, disk.at? front ≠ some (.link target)

/-- No link lies on the way to what is there and is no link itself. -/
theorem linkFreeAlong_of_at? {found : DiskNode} (h : disk.at? names = some found)
    (hfound : ∀ target, found ≠ .link target) : disk.LinkFreeAlong names := by
  rintro front ⟨rest, rfl⟩ target hlink
  rw [at?_append, hlink, Option.bind_some] at h
  cases rest with
  | nil => exact hfound target (Option.some.inj h).symm
  | cons name rest =>
      obtain ⟨_, hfolder⟩ := folder_of_at?_cons h
      cases hfolder

theorem linkFreeAlong_of_folder {entries : Entries} (h : disk.at? names = some (.folder entries)) :
    disk.LinkFreeAlong names :=
  linkFreeAlong_of_at? h fun _ => DiskNode.noConfusion

theorem not_mem_normalNames (names : List String) : ".." ∉ normalNames names := by
  have hfold : ∀ done : List String, ".." ∉ done →
      ".." ∉ names.foldl (fun done name =>
        if name == ".." then done.dropLast else done ++ [name]) done := by
    induction names with
    | nil => exact fun done hdone => hdone
    | cons name names ih =>
        intro done hdone
        rw [List.foldl_cons]
        apply ih
        by_cases hname : name = ".."
        · rw [if_pos (beq_iff_eq.mpr hname)]
          exact fun hmem => hdone (List.dropLast_subset _ hmem)
        · rw [if_neg (by simpa using hname), List.mem_append, not_or]
          exact ⟨hdone, by simpa using Ne.symm hname⟩
  exact hfold [] (by simp)

theorem normalNames_of_not_mem (h : ".." ∉ names) : normalNames names = names := by
  have hfold : ∀ done : List String, names.foldl (fun done name =>
      if name == ".." then done.dropLast else done ++ [name]) done = done ++ names := by
    induction names with
    | nil => simp
    | cons name names ih =>
        intro done
        rw [List.mem_cons, not_or] at h
        rw [List.foldl_cons, if_neg (by simpa using Ne.symm h.1), ih h.2]
        simp
  exact hfold []

/-- A path that has been resolved has no steps upwards. -/
theorem not_mem_of_resolve {found : List String} (h : disk.resolve names = .ok found) :
    ".." ∉ found := by
  unfold resolve at h
  split at h
  · cases h
  · split at h
    · rw [← Except.ok.inj h]
      exact not_mem_normalNames _
    · split at h
      · cases h
      · rw [← Except.ok.inj h]
        exact not_mem_normalNames _
    · cases h

/-- Where there is no link, there is none to replace. -/
theorem replaceLinks_of_linkFree (here : List String) {depth : Nat} {active : List (List String)}
    (hup : ".." ∉ names) (hfree : disk.LinkFreeAlong (here ++ names)) :
    disk.replaceLinks depth active names here = .done (here ++ names) := by
  induction names generalizing here with
  | nil => rw [replaceLinks, List.append_nil]
  | cons name names ih =>
      rw [List.mem_cons, not_or] at hup
      rw [List.append_cons] at hfree ⊢
      rw [replaceLinks.eq_def]
      simp only [beq_iff_eq, Ne.symm hup.1, if_false]
      split
      · next target hlink => exact absurd hlink (hfree _ (List.prefix_append _ _) target)
      · exact ih _ hup.2 hfree

theorem eq_of_resolve (hup : ".." ∉ names) (hfree : disk.LinkFreeAlong names)
    {found : List String} (h : disk.resolve names = .ok found) : found = names := by
  unfold resolve at h
  split at h
  · cases h
  · simp only [replaceLinks_of_linkFree [] hup hfree, List.nil_append,
      normalNames_of_not_mem hup] at h
    exact (Except.ok.inj h).symm

/-- Where there is no link, following names leads to what lies at them. -/
theorem at?_of_follow (here : List String) {links : Nat} {spot : Spot} {found : DiskNode}
    (hup : ".." ∉ names) (hfree : disk.LinkFreeAlong (here ++ names))
    (h : disk.follow links names here = .ok spot) (hfound : spot.node = some found) :
    disk.at? (here ++ names) = some found := by
  induction names generalizing here with
  | nil =>
      rw [follow] at h
      obtain rfl := Except.ok.inj h
      rw [List.append_nil]
      exact hfound
  | cons name names ih =>
      rw [List.mem_cons, not_or] at hup
      rw [List.append_cons] at hfree ⊢
      rw [follow, if_neg (by simpa using Ne.symm hup.1)] at h
      split at h
      · cases h
      · simp only at h
        split at h
        · split at h
          · obtain rfl := Except.ok.inj h
            cases hfound
          · cases h
        · exact ih _ hup.2 hfree h
        · next hlies =>
            split at h
            · next hempty =>
                obtain rfl := Except.ok.inj h
                rw [List.isEmpty_iff.mp hempty, List.append_nil, hlies]
                exact hfound
            · cases h
        · next target hlink => exact absurd hlink (hfree _ (List.prefix_append _ _) target)

/-- Where there is no link, the bytes that are read at some names lie there. -/
theorem at?_of_read {bytes : List UInt8} (hup : ".." ∉ names) (hfree : disk.LinkFreeAlong names)
    (h : disk.read names = .ok bytes) :
    ∃ modified, disk.at? names = some (.file bytes modified) := by
  unfold DiskNode.read stat locate at h
  split at h
  · next hstat =>
      obtain rfl := Except.ok.inj h
      split at hstat
      · next hfollow =>
          obtain rfl := Except.ok.inj hstat
          exact ⟨_, at?_of_follow [] hup hfree hfollow rfl⟩
      · cases hstat
      · cases hstat
  · cases h
  · cases h

end RepoAtlas.DiskNode
