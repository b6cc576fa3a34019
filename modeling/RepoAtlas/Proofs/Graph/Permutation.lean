import RepoAtlas.Proofs.Graph.Declared

/-!
Resolving the same entities in another order. Where no two of them claim one name in
the same way, every entity uses the same names in the same order and is used by the
same others, which are listed in the new order. A name may well be declared by one
entity, exported by another and borne by the file of a third.
-/
namespace RepoAtlas

/-- The names that an entity's file gives it. -/
def Entity.fileNames (e : Entity) : List String :=
  [stemOf e.file, Unicode.capitalize (stemOf e.file)]

/-- Whether no two of some entities have one name of a kind. -/
def ApartBy (names : Entity → List String) (entities : List Entity) : Prop :=
  ∀ e ∈ entities, ∀ other ∈ entities, ∀ name ∈ names e, name ∈ names other → e = other

instance (names : Entity → List String) (entities : List Entity) :
    Decidable (ApartBy names entities) :=
  inferInstanceAs (Decidable (∀ e ∈ entities, ∀ other ∈ entities, ∀ name ∈ names e,
    name ∈ names other → e = other))

/-- Whether no two of some entities claim one name in the same way. -/
structure ClaimedApart (entities : List Entity) : Prop where
  declared : ApartBy (fun e => [e.name]) entities
  exported : ApartBy Entity.exports entities
  called : ApartBy Entity.fileNames entities

section AnyOrder

variable {entities others : List Entity}

/-- The last item of a kind of which there is at most one is the same in any order. -/
theorem find?_reverse_of_perm {α : Type u} {items others : List α} {p : α → Bool}
    (hperm : items.Perm others)
    (hp : ∀ a ∈ items, ∀ b ∈ items, p a = true → p b = true → a = b) :
    items.reverse.find? p = others.reverse.find? p := by
  cases hfind : items.reverse.find? p with
  | none =>
      refine (List.find?_eq_none.mpr fun a hmem => ?_).symm
      exact List.find?_eq_none.mp hfind a
        (List.mem_reverse.mpr (hperm.mem_iff.mpr (List.mem_reverse.mp hmem)))
  | some a =>
      have ha : a ∈ items := List.mem_reverse.mp (List.mem_of_find?_eq_some hfind)
      cases hother : others.reverse.find? p with
      | none =>
          have hnot := List.find?_eq_none.mp hother a
            (List.mem_reverse.mpr (hperm.mem_iff.mp ha))
          exact absurd (List.find?_some hfind) hnot
      | some b =>
          have hb : b ∈ items :=
            hperm.mem_iff.mpr (List.mem_reverse.mp (List.mem_of_find?_eq_some hother))
          rw [hp a ha b hb (List.find?_some hfind) (List.find?_some hother)]

/-- What a name refers to is the same in any order. -/
theorem target?_of_perm (hperm : entities.Perm others) (hclaims : ClaimedApart entities)
    (name : String) : target? entities name = target? others name := by
  have hdeclared : entities.reverse.find? (fun e => name == e.name) =
      others.reverse.find? fun e => name == e.name := by
    refine find?_reverse_of_perm hperm fun a ha b hb hna hnb => ?_
    exact hclaims.declared a ha b hb name (by simpa using hna) (by simpa using hnb)
  have hexported : entities.reverse.find? (fun e => e.exports.contains name) =
      others.reverse.find? fun e => e.exports.contains name := by
    refine find?_reverse_of_perm hperm fun a ha b hb hna hnb => ?_
    exact hclaims.exported a ha b hb name (by simpa using hna) (by simpa using hnb)
  have hcalled : entities.reverse.find?
        (fun e => name == stemOf e.file || name == Unicode.capitalize (stemOf e.file)) =
      others.reverse.find?
        fun e => name == stemOf e.file || name == Unicode.capitalize (stemOf e.file) := by
    refine find?_reverse_of_perm hperm fun a ha b hb hna hnb => ?_
    exact hclaims.called a ha b hb name (by simpa [Entity.fileNames] using hna)
      (by simpa [Entity.fileNames] using hnb)
  rw [target?, target?, hdeclared, hexported, hcalled]

theorem declaredUses_of_perm (hperm : entities.Perm others) (hclaims : ClaimedApart entities)
    (e : Entity) : declaredUses others e = declaredUses entities e := by
  simp only [declaredUses, target?_of_perm hperm hclaims]

theorem usesOther_of_perm (hperm : entities.Perm others) (hclaims : ClaimedApart entities)
    (e : Entity) : usesOther others e = usesOther entities e := by
  funext user
  simp only [usesOther, target?_of_perm hperm hclaims]

/-- Where each name is declared once, the users of an entity are those that refer to it,
none of them dropped. -/
theorem declaredUsers_of_apart (hentities : entities.Nodup)
    (hdeclared : ApartBy (fun e => [e.name]) entities) {e : Entity} (he : e ∈ entities) :
    declaredUsers entities e = (entities.filter (usesOther entities e)).map Entity.name := by
  have hname : ∀ user ∈ entities, ∀ other ∈ entities, user.name = other.name → user = other := by
    intro user huser other hother hsame
    exact hdeclared user huser other hother user.name (by simp) (by simp [hsame])
  have hnodup : ((entities.filter (usesOther entities e)).map Entity.name).Nodup := by
    refine (hentities.filter _).map_on fun user huser other hother => ?_
    exact hname user (List.mem_filter.mp huser).1 other (List.mem_filter.mp hother).1
  rw [declaredUsers, ← Text.distinct_eq_eraseDups, Text.distinct_of_nodup hnodup,
    List.filter_eq_self]
  intro name hmem
  obtain ⟨user, huser, rfl⟩ := List.mem_map.mp hmem
  obtain ⟨huser, huses⟩ := List.mem_filter.mp huser
  have hother : user ≠ e := by
    simp only [usesOther, Bool.and_eq_true, bne_iff_ne] at huses
    exact huses.1
  simpa using fun hsame => hother (hname user huser e he hsame)

/-- Entities resolved in any order, by what they refer to in one of them. -/
theorem resolve_eq_of_perm (hperm : entities.Perm others)
    (hfiles : (entities.map Entity.file).Nodup) (hclaims : ClaimedApart entities) :
    resolve others = others.map fun e =>
      { e with
        uses := declaredUses entities e
        usedBy := (others.filter (usesOther entities e)).map Entity.name } := by
  have hothers : (others.map Entity.file).Nodup := (hperm.map Entity.file).nodup_iff.mp hfiles
  have hdeclared : ApartBy (fun e => [e.name]) others := by
    intro a ha b hb
    exact hclaims.declared a (hperm.mem_iff.mpr ha) b (hperm.mem_iff.mpr hb)
  rw [resolve_eq_map hothers]
  refine List.map_congr_left fun e he => ?_
  have hget : others[others.idxOf e]? = some e := List.getElem?_idxOf he
  have husers := declaredUsers_of_apart (List.Nodup.of_map _ hothers) hdeclared he
  rw [declaredUsers] at husers
  rw [resolvedAt, resolvedUses_eq, declaredUses_of_perm hperm hclaims, withoutName_distinct,
    ← withoutName, withoutName_eq, referrers_eq hothers hget, husers,
    usesOther_of_perm hperm hclaims]

/-- Entities of distinct files that claim names apart are resolved to the same in any order:
each file's entity uses the same names in the same order, and is used by those that refer
to it, listed in the order in which they stand. Nothing else changes. -/
theorem resolve_in_any_order (hperm : entities.Perm others)
    (hfiles : (entities.map Entity.file).Nodup) (hclaims : ClaimedApart entities) :
    (resolve entities).map Entity.file = entities.map Entity.file ∧
      (resolve others).map Entity.file = others.map Entity.file ∧
      ∀ e ∈ entities, ∀ before ∈ resolve entities, ∀ after ∈ resolve others,
        before.file = e.file → after.file = e.file →
          after.uses = before.uses ∧
          (∀ name, name ∈ after.usedBy ↔ name ∈ before.usedBy) ∧
          before.usedBy = (entities.filter (usesOther entities e)).map Entity.name ∧
          after.usedBy = (others.filter (usesOther entities e)).map Entity.name ∧
          { after with usedBy := before.usedBy } = before := by
  have hfirst := resolve_eq_of_perm (List.Perm.refl entities) hfiles hclaims
  have hsecond := resolve_eq_of_perm hperm hfiles hclaims
  refine ⟨by rw [hfirst, List.map_map]; rfl, by rw [hsecond, List.map_map]; rfl, ?_⟩
  intro e he before hbefore after hafter hbeforeFile hafterFile
  rw [hfirst] at hbefore
  rw [hsecond] at hafter
  obtain ⟨source, hsource, rfl⟩ := List.mem_map.mp hbefore
  obtain ⟨again, hagain, rfl⟩ := List.mem_map.mp hafter
  -- Both stand in the file of `e`, so they come from `e` itself.
  obtain rfl : source = e := List.inj_on_of_nodup_map hfiles hsource he hbeforeFile
  obtain rfl : again = source :=
    List.inj_on_of_nodup_map hfiles (hperm.mem_iff.mpr hagain) hsource hafterFile
  refine ⟨rfl, fun name => ?_, rfl, rfl, rfl⟩
  have husers := (hperm.filter (usesOther entities again)).map Entity.name
  exact husers.symm.mem_iff

end AnyOrder

namespace SampleOrders

/-- `Card` is declared by one entity, exported by another and the file of a third. -/
def entities : List Entity := [
  { name := "Card", role := .component, file := "ui/frame.tsx", exports := ["Panel"],
    uses := ["Page", "Badge"] },
  { name := "Box", role := .component, file := "ui/badge.tsx", exports := ["Card", "Box"],
    uses := ["frame", "Gone"] },
  { name := "Page", role := .page, file := "ui/card.tsx",
    uses := ["Card", "card", "Panel", "Box"], usedBy := ["Gone"] },
  { name := "Badge", role := .component, file := "ui/tag.tsx", uses := ["Card", "Badge"] }]

/-- Read backwards, the entities list their users backwards. -/
theorem resolve_in_any_order_sample :
    entities.Perm entities.reverse ∧ (entities.map Entity.file).Nodup ∧ ClaimedApart entities ∧
      (∀ e ∈ entities, ∀ before ∈ resolve entities, ∀ after ∈ resolve entities.reverse,
        before.file = e.file → after.file = e.file → after.uses = before.uses) ∧
      (resolve entities).map Entity.uses =
        [["Page", "Badge"], ["Card", "Gone"], ["Card", "Box"], ["Card"]] ∧
      (resolve entities).map Entity.usedBy =
        [["Box", "Page", "Badge"], ["Page"], ["Card"], ["Card"]] ∧
      (resolve entities.reverse).map Entity.usedBy =
        [["Card"], ["Card"], ["Page"], ["Badge", "Page", "Box"]] := by
  have hperm : entities.Perm entities.reverse := (List.reverse_perm entities).symm
  have hfiles : (entities.map Entity.file).Nodup := by decide
  have hclaims : ClaimedApart entities :=
    ⟨by decide +kernel, by decide +kernel, by decide +kernel⟩
  have hsame := (resolve_in_any_order hperm hfiles hclaims).2.2
  refine ⟨hperm, hfiles, hclaims, ?_, by decide +kernel, by decide +kernel, by decide +kernel⟩
  intro e he before hbefore after hafter hbeforeFile hafterFile
  exact (hsame e he before hbefore after hafter hbeforeFile hafterFile).1

end SampleOrders

end RepoAtlas
