import RepoAtlas.Proofs.Graph.Symmetry

/-!
What resolving makes of some entities depends on their order only where two of
them claim a name that is used, apart from the order in which users are listed.
-/
namespace RepoAtlas

/-- Whether no name that one of some entities uses is claimed by two of them. -/
def Unambiguous (entities : List Entity) : Prop :=
  ∀ user ∈ entities, ∀ raw ∈ user.uses, ∀ e ∈ entities, ∀ other ∈ entities,
    e.Claims raw → other.Claims raw → e = other

/-- Whether two entities are the same but for the order of their users. -/
structure Entity.Alike (e other : Entity) : Prop where
  apart : { other with usedBy := e.usedBy } = e
  users : e.usedBy.Perm other.usedBy

/-- Whether two lists hold the same entities, in any order, each with its users in any order. -/
def SameEntities (entities others : List Entity) : Prop :=
  ∃ sorted, sorted.Perm others ∧ List.Forall₂ Entity.Alike entities sorted

section Order

variable {entities others : List Entity}

/-- Each of some entities is among the others of the same entities. -/
theorem SameEntities.exists_alike (h : SameEntities entities others) {e : Entity}
    (he : e ∈ entities) : ∃ other ∈ others, e.Alike other := by
  obtain ⟨sorted, hperm, halike⟩ := h
  have hsorted : ∃ other ∈ sorted, e.Alike other := by
    clear hperm
    induction halike with
    | nil => cases he
    | cons hfirst _ ih =>
        rcases List.mem_cons.mp he with rfl | hrest
        · exact ⟨_, List.mem_cons_self, hfirst⟩
        · obtain ⟨other, hother, hsame⟩ := ih hrest
          exact ⟨other, List.mem_cons_of_mem _ hother, hsame⟩
  obtain ⟨other, hother, hsame⟩ := hsorted
  exact ⟨other, hperm.mem_iff.mp hother, hsame⟩

/-- In any order, an unambiguous name leads to the same entity. -/
theorem find?_of_perm (hperm : entities.Perm others) (h : Unambiguous entities) {user : Entity}
    (huser : user ∈ entities) {raw : String} (hraw : raw ∈ user.uses) :
    (ReferenceIndex.ofEntities entities).find? raw =
      (ReferenceIndex.ofEntities others).find? raw := by
  cases hfind : (ReferenceIndex.ofEntities entities).find? raw with
  | some e =>
      obtain ⟨he, hclaims⟩ := ReferenceIndex.claims_of_find? hfind
      obtain ⟨target, htarget⟩ :=
        ReferenceIndex.exists_find?_of_claims (hperm.mem_iff.mp he) hclaims
      obtain ⟨hmem, hother⟩ := ReferenceIndex.claims_of_find? htarget
      rw [htarget, h user huser raw hraw e he target (hperm.mem_iff.mpr hmem) hclaims hother]
  | none =>
      cases hother : (ReferenceIndex.ofEntities others).find? raw with
      | none => rfl
      | some e =>
          obtain ⟨he, hclaims⟩ := ReferenceIndex.claims_of_find? hother
          obtain ⟨target, htarget⟩ :=
            ReferenceIndex.exists_find?_of_claims (hperm.mem_iff.mpr he) hclaims
          cases hfind.symm.trans htarget

/-- Entities of distinct files are resolved one by one, each at its position. -/
theorem resolve_eq_map (hfiles : (entities.map Entity.file).Nodup) :
    resolve entities = entities.map fun e => resolvedAt entities e (entities.idxOf e) := by
  apply List.ext_getElem?
  intro i
  rw [getElem?_resolve, List.getElem?_map]
  cases hget : entities[i]? with
  | none => rfl
  | some e =>
      obtain ⟨hi, rfl⟩ := List.getElem?_eq_some_iff.mp hget
      simp only [Option.map_some, (List.Nodup.of_map _ hfiles).idxOf_getElem i hi]

/-- Which names are listed as users of an entity. -/
theorem mem_usedBy_resolvedAt (hfiles : (entities.map Entity.file).Nodup) {e : Entity}
    (he : e ∈ entities) {name : String} :
    name ∈ (resolvedAt entities e (entities.idxOf e)).usedBy ↔
      name ≠ e.name ∧ ∃ user ∈ entities, user.name = name ∧
        ∃ raw ∈ user.uses, (ReferenceIndex.ofEntities entities).find? raw = some e := by
  have hget : entities[entities.idxOf e]? = some e := List.getElem?_idxOf he
  rw [resolvedAt, mem_withoutName, Text.mem_distinct, mem_referrers]
  constructor
  · rintro ⟨⟨user, j, huser, rfl, -, raw, hraw, hposition⟩, hname⟩
    obtain ⟨target, htarget, hfind⟩ := (targetPosition_eq_some_iff hfiles).mp hposition
    obtain rfl := Option.some.inj (hget.symm.trans htarget)
    exact ⟨hname, user, List.mem_of_getElem? huser, rfl, raw, hraw, hfind⟩
  · rintro ⟨hname, user, huser, rfl, raw, hraw, hfind⟩
    obtain ⟨j, hj⟩ := List.mem_iff_getElem?.mp huser
    refine ⟨⟨user, j, hj, rfl, ?_, raw, hraw,
      (targetPosition_eq_some_iff hfiles).mpr ⟨e, hget, hfind⟩⟩, hname⟩
    rintro rfl
    exact hname (congrArg Entity.name (Option.some.inj (hj.symm.trans hget)))

/-- In any order, unambiguous references of an entity are resolved alike. -/
theorem resolvedAt_alike (hperm : entities.Perm others) (hfiles : (entities.map Entity.file).Nodup)
    (h : Unambiguous entities) {e : Entity} (he : e ∈ entities) :
    (resolvedAt entities e (entities.idxOf e)).Alike (resolvedAt others e (others.idxOf e)) where
  apart := by
    have huses : resolvedUses (ReferenceIndex.ofEntities others) e =
        resolvedUses (ReferenceIndex.ofEntities entities) e := by
      rw [resolvedUses, resolvedUses]
      congr 1
      apply List.map_congr_left
      intro raw hraw
      rw [ReferenceIndex.lookup_name, ReferenceIndex.lookup_name, find?_of_perm hperm h he hraw]
    rw [resolvedAt, resolvedAt, huses]
  users := by
    have hothers : (others.map Entity.file).Nodup := (hperm.map Entity.file).nodup_iff.mp hfiles
    apply (List.perm_ext_iff_of_nodup (nodup_withoutName _ _) (nodup_withoutName _ _)).mpr
    intro name
    refine (mem_usedBy_resolvedAt hfiles he).trans
      (Iff.trans ?_ (mem_usedBy_resolvedAt hothers (hperm.mem_iff.mp he)).symm)
    refine and_congr_right fun _ => exists_congr fun user => ?_
    constructor
    · rintro ⟨huser, hname, raw, hraw, hfind⟩
      rw [find?_of_perm hperm h huser hraw] at hfind
      exact ⟨hperm.mem_iff.mp huser, hname, raw, hraw, hfind⟩
    · rintro ⟨huser, hname, raw, hraw, hfind⟩
      have huser := hperm.mem_iff.mpr huser
      rw [← find?_of_perm hperm h huser hraw] at hfind
      exact ⟨huser, hname, raw, hraw, hfind⟩

/-- Unambiguous entities of distinct files are resolved to the same, in any order. -/
theorem resolve_of_perm (hperm : entities.Perm others)
    (hfiles : (entities.map Entity.file).Nodup) (h : Unambiguous entities) :
    SameEntities (resolve entities) (resolve others) := by
  have hothers : (others.map Entity.file).Nodup := (hperm.map Entity.file).nodup_iff.mp hfiles
  refine ⟨entities.map fun e => resolvedAt others e (others.idxOf e), ?_, ?_⟩
  · rw [resolve_eq_map hothers]
    exact hperm.map _
  · rw [resolve_eq_map hfiles, List.forall₂_map_left_iff, List.forall₂_map_right_iff,
      List.forall₂_same]
    exact fun e he => resolvedAt_alike hperm hfiles h he

end Order

end RepoAtlas
