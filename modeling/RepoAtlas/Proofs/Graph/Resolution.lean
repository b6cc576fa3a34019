import Mathlib.Data.List.Nodup
import Mathlib.Data.List.Zip
import RepoAtlas.Graph.Resolve
import RepoAtlas.Proofs.Table

/-!
What resolving references comes to, entity by entity: which entity a name
refers to, and by which others each entity is used.
-/
namespace RepoAtlas

/-- The names of a file in the index, and the entity in it. -/
def ReferenceIndex.fileEntries (e : Entity) : List (String × Entity) :=
  [(stemOf e.file, e), (Unicode.capitalize (stemOf e.file), e)]

/-- Whether an entity claims a name: by its own name, by an export or by its file. -/
def Entity.Claims (e : Entity) (name : String) : Prop :=
  name = e.name ∨ name ∈ e.exports ∨ name ∈ (ReferenceIndex.fileEntries e).map Prod.fst

namespace ReferenceIndex

/-- The three tables after some entities are the tables of their claims. -/
theorem ofEntities_eq (entities : List Entity) :
    ofEntities entities =
      { byName := Table.ofEntries (entities.map fun e => (e.name, e))
        byExport := Table.ofEntries
          (entities.flatMap fun e => e.exports.map fun name => (name, e))
        byFilename := Table.ofEntries (entities.flatMap fileEntries) } := by
  induction entities using List.reverseRecOn with
  | nil => rfl
  | append_singleton entities e ih =>
      have hadd : ofEntities (entities ++ [e]) = (ofEntities entities).add e := by
        simp [ofEntities, List.foldl_append]
      rw [hadd, ih]
      simp [add, fileEntries, Table.ofEntries, List.foldl_append,
        List.flatMap_append, List.foldl_map]

/-- What is found is one of the entities, and claims the name. -/
theorem claims_of_find? {entities : List Entity} {name : String} {e : Entity}
    (h : (ofEntities entities).find? name = some e) : e ∈ entities ∧ e.Claims name := by
  rw [ofEntities_eq] at h
  simp only [find?, Option.or_eq_some_iff] at h
  rcases h with hname | ⟨_, hexport | ⟨_, hfile⟩⟩
  · have hmem := Table.mem_of_get?_ofEntries hname
    obtain ⟨other, hother, heq⟩ := List.mem_map.mp hmem
    obtain ⟨rfl, rfl⟩ := Prod.mk.inj heq
    exact ⟨hother, .inl rfl⟩
  · have hmem := Table.mem_of_get?_ofEntries hexport
    obtain ⟨other, hother, hentry⟩ := List.mem_flatMap.mp hmem
    obtain ⟨_, hclaimed, heq⟩ := List.mem_map.mp hentry
    obtain ⟨rfl, rfl⟩ := Prod.mk.inj heq
    exact ⟨hother, .inr (.inl hclaimed)⟩
  · have hmem := Table.mem_of_get?_ofEntries hfile
    obtain ⟨other, hother, hentry⟩ := List.mem_flatMap.mp hmem
    have hclaimed := List.mem_map_of_mem (f := Prod.fst) hentry
    have heq : e = other := by
      simp only [fileEntries, List.mem_cons, Prod.mk.injEq, List.not_mem_nil,
        or_false] at hentry
      rcases hentry with ⟨_, heq⟩ | ⟨_, heq⟩ <;> exact heq
    subst heq
    exact ⟨hother, .inr (.inr hclaimed)⟩

theorem mem_of_find? {entities : List Entity} {name : String} {e : Entity}
    (h : (ofEntities entities).find? name = some e) : e ∈ entities :=
  (claims_of_find? h).1

/-- A name that is claimed leads to an entity. -/
theorem exists_find?_of_claims {entities : List Entity} {name : String} {e : Entity}
    (he : e ∈ entities) (hclaims : e.Claims name) :
    ∃ target, (ofEntities entities).find? name = some target := by
  cases hfind : (ofEntities entities).find? name with
  | some target => exact ⟨target, rfl⟩
  | none =>
      rw [ofEntities_eq] at hfind
      simp only [find?, Option.or_eq_none_iff, Table.get?_ofEntries_eq_none_iff] at hfind
      obtain ⟨hname, hexport, hfile⟩ := hfind
      rcases hclaims with rfl | hexported | hcalled
      · exact absurd (by simpa using ⟨e, he, rfl⟩) hname
      · exact absurd (by simpa using ⟨e, he, hexported⟩) hexport
      · obtain ⟨entry, hentry, rfl⟩ := List.mem_map.mp hcalled
        exact absurd (List.mem_map_of_mem (List.mem_flatMap.mpr ⟨e, he, hentry⟩)) hfile

/-- A declared name refers to an entity that is declared by it. -/
theorem find?_of_declared {entities : List Entity} {e : Entity}
    (he : e ∈ entities) :
    ∃ target, (ofEntities entities).find? e.name = some target ∧
      target.name = e.name := by
  rw [ofEntities_eq]
  cases hget : Table.get? e.name
      (Table.ofEntries (entities.map fun e => (e.name, e))) with
  | none =>
      rw [Table.get?_ofEntries_eq_none_iff] at hget
      exact absurd (by simpa using ⟨e, he, rfl⟩) hget
  | some target =>
      refine ⟨target, by simp [find?, hget], ?_⟩
      obtain ⟨other, _, heq⟩ :=
        List.mem_map.mp (Table.mem_of_get?_ofEntries hget)
      obtain ⟨hname, rfl⟩ := Prod.mk.inj heq
      exact hname

theorem lookup_name (index : ReferenceIndex) (raw : String) :
    (index.lookup raw).name = ((index.find? raw).map Entity.name).getD raw := by
  unfold lookup
  cases index.find? raw <;> rfl

theorem lookup_file? (index : ReferenceIndex) (raw : String) :
    (index.lookup raw).file? = (index.find? raw).map Entity.file := by
  unfold lookup
  cases index.find? raw <;> rfl

end ReferenceIndex

/-- The position of the entity that a name refers to. -/
def targetPosition (entities : List Entity) (raw : String) : Option Nat :=
  ((ReferenceIndex.ofEntities entities).lookup raw).file?.bind fun file =>
    Table.get? file (filePositions entities)

theorem filePositions_eq (entities : List Entity) :
    filePositions entities =
      Table.ofEntries (entities.zipIdx.map fun user => (user.1.file, user.2)) := by
  rw [filePositions, Table.ofEntries, List.foldl_map]

/-- Where files are distinct, a file leads back to its only position. -/
theorem get?_filePositions {entities : List Entity}
    (hfiles : (entities.map Entity.file).Nodup) {file : String} {i : Nat} :
    Table.get? file (filePositions entities) = some i ↔
      ∃ e, entities[i]? = some e ∧ e.file = file := by
  have hkeys : ((entities.zipIdx.map fun user => (user.1.file, user.2)).map
      Prod.fst).Nodup := by
    have hmap : (entities.zipIdx.map fun user => (user.1.file, user.2)).map
        Prod.fst = entities.map Entity.file := by
      conv => rhs; rw [← List.zipIdx_map_fst 0 entities]
      simp only [List.map_map]
      rfl
    rwa [hmap]
  rw [filePositions_eq, Table.get?_ofEntries_eq_some_iff hkeys]
  simp only [List.mem_map, Prod.mk.injEq, Prod.exists]
  constructor
  · rintro ⟨e, j, hmem, hfile, rfl⟩
    exact ⟨e, List.mem_zipIdx_iff_getElem?.mp hmem, hfile⟩
  · rintro ⟨e, hget, hfile⟩
    exact ⟨e, i, List.mem_zipIdx_iff_getElem?.mpr hget, hfile, rfl⟩

/-- Where files are distinct, a name leads to the position of its entity. -/
theorem targetPosition_eq_some_iff {entities : List Entity}
    (hfiles : (entities.map Entity.file).Nodup) {raw : String} {i : Nat} :
    targetPosition entities raw = some i ↔
      ∃ e, entities[i]? = some e ∧
        (ReferenceIndex.ofEntities entities).find? raw = some e := by
  rw [targetPosition, ReferenceIndex.lookup_file?]
  cases hfind : (ReferenceIndex.ofEntities entities).find? raw with
  | none => simp
  | some target =>
      simp only [Option.map_some, Option.bind_some, get?_filePositions hfiles,
        Option.some.injEq]
      constructor
      · rintro ⟨e, hget, hfile⟩
        have hsame : e = target :=
          List.inj_on_of_nodup_map hfiles (List.mem_of_getElem? hget)
            (ReferenceIndex.mem_of_find? hfind) hfile
        exact ⟨e, hget, hsame.symm⟩
      · rintro ⟨e, hget, rfl⟩
        exact ⟨target, hget, rfl⟩

/-- Whether an entity, at its position, refers to the one at another position. -/
def refersTo (entities : List Entity) (i : Nat) (user : Entity × Nat) : Bool :=
  user.2 != i && user.1.uses.any fun raw => targetPosition entities raw == some i

/-- The names of the entities that refer to the one at a position, in order. -/
def referrers (entities : List Entity) (i : Nat) : List String :=
  (entities.zipIdx.filter (refersTo entities i)).map fun user => user.1.name

theorem mem_referrers {entities : List Entity} {i : Nat} {name : String} :
    name ∈ referrers entities i ↔
      ∃ e j, entities[j]? = some e ∧ e.name = name ∧ j ≠ i ∧
        ∃ raw ∈ e.uses, targetPosition entities raw = some i := by
  simp only [referrers, List.mem_map, List.mem_filter, refersTo, Prod.exists,
    List.mem_zipIdx_iff_getElem?, Bool.and_eq_true, bne_iff_ne, ne_eq,
    List.any_eq_true, beq_iff_eq]
  constructor
  · rintro ⟨e, j, ⟨hget, hne, huse⟩, hname⟩
    exact ⟨e, j, hget, hname, hne, huse⟩
  · rintro ⟨e, j, hget, hname, hne, huse⟩
    exact ⟨e, j, ⟨hget, hne, huse⟩, hname⟩

namespace Users

theorem getElem?_note (name : String) (position i : Nat) (users : Users) :
    (note name position users)[i]? =
      if position = i then users[i]?.map (Text.addNew name) else users[i]? := by
  rw [note, List.getElem?_modify]
  split
  · rfl
  · simp

/-- Noting the uses of one entity adds its name where it refers to, once. -/
theorem getElem?_noteUses (entities : List Entity) (user : Entity × Nat)
    (users : Users) (i : Nat) :
    (noteUses (ReferenceIndex.ofEntities entities) (filePositions entities)
      users user)[i]? =
      if refersTo entities i user then users[i]?.map (Text.addNew user.1.name)
      else users[i]? := by
  unfold noteUses refersTo
  induction user.1.uses generalizing users with
  | nil => simp
  | cons raw rest ih =>
      rw [List.foldl_cons, ih, List.any_cons]
      cases htarget : targetPosition entities raw with
      | none =>
          rw [targetPosition] at htarget
          simp [htarget]
      | some target =>
          rw [targetPosition] at htarget
          simp only [htarget]
          by_cases hself : target = user.2
          · subst hself
            by_cases hi : user.2 = i <;> simp [hi]
          · by_cases hi : target = i
            · subst hi
              have htwice : ∀ known : Option (List String),
                  (known.map (Text.addNew user.1.name)).map
                    (Text.addNew user.1.name) =
                    known.map (Text.addNew user.1.name) := by
                intro known
                cases known <;> simp [Text.addNew_addNew]
              simp [hself, Ne.symm hself, getElem?_note, htwice]
            · simp [hself, getElem?_note, hi]

/-- The users of an entity are those that refer to it, each once. -/
theorem getElem?_ofEntities (entities : List Entity) {i : Nat}
    (hi : i < entities.length) :
    (ofEntities entities)[i]? =
      some (Text.distinct (referrers entities i)) := by
  have hfold : ∀ (users : List (Entity × Nat)) (before : Users),
      (users.foldl (noteUses (ReferenceIndex.ofEntities entities)
        (filePositions entities)) before)[i]? =
      before[i]?.map fun known =>
        ((users.filter (refersTo entities i)).map fun user =>
          user.1.name).foldl (fun known name => Text.addNew name known)
            known := by
    intro users
    induction users with
    | nil => simp
    | cons user rest ih =>
        intro before
        rw [List.foldl_cons, ih, getElem?_noteUses]
        by_cases hrefers : refersTo entities i user
        · simp [hrefers, Function.comp_def]
        · simp [hrefers]
  rw [ofEntities, hfold]
  simp only [List.getElem?_map, List.getElem?_eq_getElem hi, Option.map_some]
  rfl

end Users

/-- What resolving makes of the entity at a position. -/
def resolvedAt (entities : List Entity) (e : Entity) (i : Nat) : Entity :=
  { e with
    uses := resolvedUses (ReferenceIndex.ofEntities entities) e
    usedBy := withoutName e.name (Text.distinct (referrers entities i)) }

theorem getElem?_resolve (entities : List Entity) (i : Nat) :
    (resolve entities)[i]? =
      entities[i]?.map fun e => resolvedAt entities e i := by
  simp only [resolve, List.getElem?_zipWith]
  cases hget : entities[i]? with
  | none => rfl
  | some e =>
      have hi : i < entities.length := (List.getElem?_eq_some_iff.mp hget).1
      rw [Users.getElem?_ofEntities entities hi]
      rfl

theorem resolve_eq (entities : List Entity) :
    resolve entities = entities.mapIdx fun i e => resolvedAt entities e i := by
  apply List.ext_getElem?
  intro i
  rw [getElem?_resolve, List.getElem?_mapIdx]

@[simp]
theorem length_resolve (entities : List Entity) :
    (resolve entities).length = entities.length := by
  rw [resolve_eq, List.length_mapIdx]

theorem mem_resolve {entities : List Entity} {e : Entity} :
    e ∈ resolve entities ↔
      ∃ before i, entities[i]? = some before ∧
        e = resolvedAt entities before i := by
  rw [List.mem_iff_getElem?]
  simp only [getElem?_resolve, Option.map_eq_some_iff]
  constructor
  · rintro ⟨i, before, hget, rfl⟩
    exact ⟨before, i, hget, rfl⟩
  · rintro ⟨before, i, hget, rfl⟩
    exact ⟨i, before, hget, rfl⟩

theorem mem_withoutName {name other : String} {names : List String} :
    other ∈ withoutName name names ↔ other ∈ names ∧ other ≠ name := by
  simp [withoutName]

theorem nodup_withoutName (name : String) (names : List String) :
    (withoutName name names).Nodup :=
  Text.nodup_distinct _

theorem mem_resolvedUses {index : ReferenceIndex} {e : Entity} {name : String} :
    name ∈ resolvedUses index e ↔
      name ≠ e.name ∧
        ∃ raw ∈ e.uses, ((index.find? raw).map Entity.name).getD raw = name := by
  simp only [resolvedUses, mem_withoutName, List.mem_map,
    ReferenceIndex.lookup_name]
  exact and_comm

end RepoAtlas
