import RepoAtlas.Proofs.Graph.Resolution

/-!
The two directions of the resolved references agree: who uses a declared name,
and who is listed as a user of it.
-/
namespace RepoAtlas

/-- Some entity called `user` uses the name `used`. -/
def UsesName (entities : List Entity) (user used : String) : Prop :=
  ∃ e ∈ entities, e.name = user ∧ used ∈ e.uses

/-- Some entity called `used` lists the name `user` among its users. -/
def ListsUser (entities : List Entity) (used user : String) : Prop :=
  ∃ e ∈ entities, e.name = used ∧ user ∈ e.usedBy

/-- Neither list of an entity names itself or repeats a name. -/
structure Entity.TidyReferences (e : Entity) : Prop where
  uses_irrefl : e.name ∉ e.uses
  uses_nodup : e.uses.Nodup
  usedBy_irrefl : e.name ∉ e.usedBy
  usedBy_nodup : e.usedBy.Nodup

theorem tidyReferences_resolvedAt (entities : List Entity) (e : Entity) (i : Nat) :
    (resolvedAt entities e i).TidyReferences where
  uses_irrefl := by simp [resolvedAt, resolvedUses, mem_withoutName]
  uses_nodup := nodup_withoutName _ _
  usedBy_irrefl := by simp [resolvedAt, mem_withoutName]
  usedBy_nodup := nodup_withoutName _ _

/-- A reference as both of its ends see it before names are cut down: an entity
refers to another one, by some raw name, and the two have different names. -/
def RefersByName (entities : List Entity) (user used : String) : Prop :=
  user ≠ used ∧ ∃ e target, e ∈ entities ∧ e.name = user ∧
    target.name = used ∧ ∃ raw ∈ e.uses,
      (ReferenceIndex.ofEntities entities).find? raw = some target

/-- Names that are declared appear in resolved uses only by references. -/
theorem usesName_resolve_iff {entities : List Entity} {user used : String}
    (hused : used ∈ entities.map Entity.name) :
    UsesName (resolve entities) user used ↔ RefersByName entities user used := by
  constructor
  · rintro ⟨_, hmem, rfl, huse⟩
    obtain ⟨e, i, hget, rfl⟩ := mem_resolve.mp hmem
    obtain ⟨hne, raw, hraw, hname⟩ := mem_resolvedUses.mp huse
    refine ⟨hne.symm, ?_⟩
    cases hfind : (ReferenceIndex.ofEntities entities).find? raw with
    | none =>
        -- A name that leads nowhere stays as it is, and so is not declared.
        obtain ⟨declared, hdeclared, rfl⟩ := List.mem_map.mp hused
        obtain ⟨target, htarget, _⟩ := ReferenceIndex.find?_of_declared hdeclared
        rw [hfind] at hname
        obtain rfl : raw = declared.name := hname
        rw [hfind] at htarget
        contradiction
    | some target =>
        rw [hfind] at hname
        exact ⟨e, target, List.mem_of_getElem? hget, rfl, hname, raw, hraw, hfind⟩
  · rintro ⟨hne, e, target, he, rfl, rfl, raw, hraw, hfind⟩
    obtain ⟨i, hget⟩ := List.mem_iff_getElem?.mp he
    refine ⟨resolvedAt entities e i, mem_resolve.mpr ⟨e, i, hget, rfl⟩, rfl, ?_⟩
    exact mem_resolvedUses.mpr ⟨hne.symm, raw, hraw, by simp [hfind]⟩

theorem listsUser_resolve_iff {entities : List Entity}
    (hfiles : (entities.map Entity.file).Nodup) {user used : String} :
    ListsUser (resolve entities) used user ↔ RefersByName entities user used := by
  constructor
  · rintro ⟨_, hmem, rfl, huser⟩
    obtain ⟨target, i, hget, rfl⟩ := mem_resolve.mp hmem
    obtain ⟨hreferrer, hne⟩ := mem_withoutName.mp huser
    obtain ⟨e, j, hget', rfl, _, raw, hraw, hposition⟩ :=
      mem_referrers.mp (Text.mem_distinct.mp hreferrer)
    obtain ⟨found, hfound, hfind⟩ :=
      (targetPosition_eq_some_iff hfiles).mp hposition
    obtain rfl : target = found := Option.some.inj (hget.symm.trans hfound)
    exact ⟨hne, e, target, List.mem_of_getElem? hget', rfl, rfl, raw, hraw, hfind⟩
  · rintro ⟨hne, e, target, he, rfl, rfl, raw, hraw, hfind⟩
    obtain ⟨j, hget'⟩ := List.mem_iff_getElem?.mp he
    obtain ⟨i, hget⟩ :=
      List.mem_iff_getElem?.mp (ReferenceIndex.mem_of_find? hfind)
    refine ⟨resolvedAt entities target i,
      mem_resolve.mpr ⟨target, i, hget, rfl⟩, rfl, ?_⟩
    have hapart : j ≠ i := by
      rintro rfl
      exact hne (congrArg Entity.name (Option.some.inj (hget'.symm.trans hget)))
    have hreferrer : e.name ∈ referrers entities i :=
      mem_referrers.mpr ⟨e, j, hget', rfl, hapart, raw, hraw,
        (targetPosition_eq_some_iff hfiles).mpr ⟨target, hget, hfind⟩⟩
    exact mem_withoutName.mpr ⟨Text.mem_distinct.mpr hreferrer, hne⟩

/-- After resolving entities of distinct files, a declared name is used exactly
by those whom its bearers list as users, and the lists are tidy. Names, exports
and file names may collide in any way. Nothing else of an entity changes. -/
theorem resolve_symmetric (entities : List Entity)
    (hfiles : (entities.map Entity.file).Nodup) :
    (∀ user used, used ∈ entities.map Entity.name →
      (UsesName (resolve entities) user used ↔
        ListsUser (resolve entities) used user)) ∧
    (∀ e ∈ resolve entities, e.TidyReferences) ∧
    (resolve entities).map (fun e => { e with uses := [], usedBy := [] }) =
      entities.map fun e => { e with uses := [], usedBy := [] } := by
  refine ⟨?_, ?_, ?_⟩
  · intro user used hused
    rw [usesName_resolve_iff hused, listsUser_resolve_iff hfiles]
  · intro e hmem
    obtain ⟨before, i, _, rfl⟩ := mem_resolve.mp hmem
    exact tidyReferences_resolvedAt entities before i
  · apply List.ext_getElem?
    intro i
    rw [List.getElem?_map, List.getElem?_map, getElem?_resolve, Option.map_map]
    rfl

/-- Two entities called `Card` and a name that only an export claims: the user
of the export is listed by the entity in the last file that exports it. -/
theorem resolve_symmetric_collision :
    let entities : List Entity := [
      { name := "Card", role := .component, file := "a/Card.tsx", exports := ["Card", "Box"],
        uses := ["Page"] },
      { name := "Card", role := .component, file := "b/Card.tsx", exports := ["Box"],
        uses := ["Card", "Box"] },
      { name := "Page", role := .page, file := "app/page.tsx", uses := ["Box", "Card", "Box"],
        usedBy := ["Page", "Gone"] }]
    (entities.map Entity.file).Nodup ∧ "Card" ∈ entities.map Entity.name ∧
      (UsesName (resolve entities) "Page" "Card" ↔
        ListsUser (resolve entities) "Card" "Page") ∧
      ∀ e ∈ resolve entities, e.TidyReferences := by
  intro entities
  have hfiles : (entities.map Entity.file).Nodup := by decide
  have hdeclared : "Card" ∈ entities.map Entity.name := by decide
  have hsymmetric := resolve_symmetric entities hfiles
  exact ⟨hfiles, hdeclared, hsymmetric.1 "Page" "Card" hdeclared, hsymmetric.2.1⟩

end RepoAtlas
