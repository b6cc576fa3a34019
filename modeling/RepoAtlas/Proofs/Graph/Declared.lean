import RepoAtlas.Proofs.Graph.Order
import RepoAtlas.Proofs.Graph.Repetition

/-!
Resolving references, without tables and without changing lists on the way: what a
name refers to is the last entity that claims it in the strongest way in which it is
claimed at all, and the lists of an entity follow from that.
-/
namespace RepoAtlas

namespace Text

variable {α : Type u} [BEq α] [LawfulBEq α]

/-- Adding items one by one, if they are new, keeps the first occurrences. -/
theorem distinct_eq_eraseDups (items : List α) : distinct items = items.eraseDups := by
  induction items using List.reverseRecOn with
  | nil => rfl
  | append_singleton items last ih =>
      rw [distinct_concat, List.eraseDups_append, ih]
      by_cases hmem : last ∈ items
      · rw [addNew_of_mem (List.mem_eraseDups.mpr hmem)]
        simp [List.removeAll, hmem]
      · rw [addNew_of_not_mem (mt List.mem_eraseDups.mp hmem)]
        simp [List.removeAll, hmem, List.eraseDups_cons]

end Text

namespace Table

variable {α : Type u}

/-- Of one item under some names, the entry with a given name. -/
theorem find?_reverse_map (key : String) (names : List String) (item : α) :
    (names.map fun name => (name, item)).reverse.find? (fun entry => entry.1 == key) =
      if names.contains key then some (key, item) else none := by
  rw [← List.map_reverse, List.find?_map]
  cases hfind : names.reverse.find? ((fun entry => entry.1 == key) ∘ fun name => (name, item)) with
  | none =>
      have hnot : key ∉ names := by
        intro hmem
        simpa using List.find?_eq_none.mp hfind key (List.mem_reverse.mpr hmem)
      simp [hnot]
  | some found =>
      obtain rfl : found = key := by simpa using List.find?_some hfind
      have hmem : found ∈ names := List.mem_reverse.mp (List.mem_of_find?_eq_some hfind)
      simp [hmem]

/-- Where items are set under names of their own, the last one with a name keeps it. -/
theorem get?_ofEntries_flatMap (names : α → List String) (key : String) (items : List α) :
    get? key (ofEntries (items.flatMap fun item => (names item).map fun name => (name, item))) =
      items.reverse.find? fun item => (names item).contains key := by
  rw [get?_ofEntries]
  induction items using List.reverseRecOn with
  | nil => rfl
  | append_singleton items last ih =>
      rw [List.flatMap_append, List.flatMap_singleton, List.reverse_append, List.find?_append,
        find?_reverse_map, List.reverse_append, List.reverse_singleton, List.singleton_append,
        List.find?_cons]
      by_cases hmem : key ∈ names last
      · simp [hmem]
      · simpa [hmem] using ih

end Table

/-- The entity that a name refers to: the last that is declared by it, else the last that
exports it, else the last whose file is called so, as it stands or with a capital. -/
def target? (entities : List Entity) (name : String) : Option Entity :=
  (entities.reverse.find? fun e => name == e.name).or
    ((entities.reverse.find? fun e => e.exports.contains name).or
      (entities.reverse.find? fun e =>
        name == stemOf e.file || name == Unicode.capitalize (stemOf e.file)))

/-- What an entity uses: the names of what it refers to, or the names it uses for it if
that is nothing known, each at its first occurrence, without its own. -/
def declaredUses (entities : List Entity) (e : Entity) : List String :=
  (e.uses.map fun raw => ((target? entities raw).map Entity.name).getD raw).eraseDups.filter
    (· != e.name)

/-- Whether another entity refers to a given one by some name it uses. -/
def usesOther (entities : List Entity) (e user : Entity) : Bool :=
  user != e && user.uses.any fun raw => target? entities raw == some e

/-- The users of an entity: the names of the others that refer to it, each at its first
occurrence, without its own. -/
def declaredUsers (entities : List Entity) (e : Entity) : List String :=
  ((entities.filter (usesOther entities e)).map Entity.name).eraseDups.filter (· != e.name)

/-- The three tables lead to the last entity that claims a name in the strongest way. -/
theorem ReferenceIndex.find?_ofEntities (entities : List Entity) (name : String) :
    (ofEntities entities).find? name = target? entities name := by
  have hnames : (entities.map fun e => (e.name, e)) =
      entities.flatMap fun e => [e.name].map fun name => (name, e) := by
    simp [List.map_eq_flatMap]
  have hfiles : entities.flatMap fileEntries =
      entities.flatMap fun e => [stemOf e.file, Unicode.capitalize (stemOf e.file)].map
        fun name => (name, e) := rfl
  rw [ofEntities_eq, find?, hnames, hfiles, Table.get?_ofEntries_flatMap,
    Table.get?_ofEntries_flatMap, Table.get?_ofEntries_flatMap, target?]
  simp only [List.contains_cons, List.contains_nil, Bool.or_false]

section Declared

variable {entities : List Entity}

theorem withoutName_eq (name : String) (names : List String) :
    withoutName name names = names.eraseDups.filter (· != name) := by
  rw [withoutName, ← Text.filter_distinct, Text.distinct_eq_eraseDups]

theorem resolvedUses_eq (entities : List Entity) (e : Entity) :
    resolvedUses (ReferenceIndex.ofEntities entities) e = declaredUses entities e := by
  simp only [resolvedUses, withoutName_eq, ReferenceIndex.lookup_name,
    ReferenceIndex.find?_ofEntities, declaredUses]

/-- Where files are distinct, referring to a position is referring to the entity there. -/
theorem refersTo_eq (hfiles : (entities.map Entity.file).Nodup) {e user : Entity} {i j : Nat}
    (he : entities[i]? = some e) (huser : entities[j]? = some user) :
    refersTo entities i (user, j) = usesOther entities e user := by
  have hself : j = i ↔ user = e := by
    constructor
    · rintro rfl
      exact Option.some.inj (huser.symm.trans he)
    · rintro rfl
      obtain ⟨hi, hei⟩ := List.getElem?_eq_some_iff.mp he
      obtain ⟨hj, hej⟩ := List.getElem?_eq_some_iff.mp huser
      exact (List.Nodup.of_map _ hfiles).getElem_inj_iff.mp (hej.trans hei.symm)
  have htarget (raw : String) :
      targetPosition entities raw = some i ↔ target? entities raw = some e := by
    rw [targetPosition_eq_some_iff hfiles, ReferenceIndex.find?_ofEntities, he]
    simp
  rw [Bool.eq_iff_iff]
  simp [refersTo, usesOther, hself, htarget]

/-- The names of those that refer to an entity, in the order of the list. -/
theorem referrers_eq (hfiles : (entities.map Entity.file).Nodup) {e : Entity} {i : Nat}
    (he : entities[i]? = some e) :
    referrers entities i = (entities.filter (usesOther entities e)).map Entity.name := by
  have hrefers : ∀ user ∈ entities.zipIdx,
      refersTo entities i user = usesOther entities e user.1 := by
    rintro ⟨user, j⟩ hmem
    exact refersTo_eq hfiles he (List.mem_zipIdx_iff_getElem?.mp hmem)
  have hplaced (p : Entity → Bool) : (entities.zipIdx.filter fun user => p user.1).map
      (fun user => user.1.name) = (entities.filter p).map Entity.name := by
    conv => rhs; rw [← List.zipIdx_map_fst 0 entities, List.filter_map, List.map_map]
    rfl
  rw [referrers, List.filter_congr hrefers, hplaced (usesOther entities e)]

/-- Resolving entities of distinct files gives each the uses and the users that what
names refer to makes of it. Names, exports and file names may collide in any way. -/
theorem resolve_eq_declared (entities : List Entity)
    (hfiles : (entities.map Entity.file).Nodup) :
    resolve entities = entities.map fun e =>
      { e with uses := declaredUses entities e, usedBy := declaredUsers entities e } := by
  rw [resolve_eq_map hfiles]
  refine List.map_congr_left fun e he => ?_
  have hget : entities[entities.idxOf e]? = some e := List.getElem?_idxOf he
  rw [resolvedAt, resolvedUses_eq, withoutName_distinct, ← withoutName, withoutName_eq,
    referrers_eq hfiles hget]
  rfl

end Declared

namespace SampleClaims

/-- Two entities called `Card`, two that export `Box`, two whose files are called `badge`,
and a page that uses all of these names. -/
def entities : List Entity := [
  { name := "Card", role := .component, file := "a/Card.tsx", exports := ["Box", "Badge"],
    uses := ["Page", "badge"] },
  { name := "Card", role := .component, file := "b/Card.tsx", uses := ["Box"] },
  { name := "Pill", role := .component, file := "a/badge.tsx", exports := ["Box"] },
  { name := "Tag", role := .component, file := "b/badge.tsx" },
  { name := "Page", role := .page, file := "app/page.tsx",
    uses := ["Gone", "Box", "badge", "Badge", "page", "Card", "Gone"], usedBy := ["Gone"] }]

/-- A declared name comes before an export and an export before a file, and each time the
last entity counts. -/
theorem resolve_eq_declared_sample :
    (entities.map Entity.file).Nodup ∧
      resolve entities = (entities.map fun e =>
        { e with uses := declaredUses entities e, usedBy := declaredUsers entities e }) ∧
      (resolve entities).map Entity.uses =
        [["Page", "Tag"], ["Pill"], [], [], ["Gone", "Pill", "Tag", "Card"]] ∧
      (resolve entities).map Entity.usedBy =
        [["Page"], ["Page"], ["Card", "Page"], ["Card", "Page"], ["Card"]] := by
  have hfiles : (entities.map Entity.file).Nodup := by decide
  have hresolve := resolve_eq_declared entities hfiles
  exact ⟨hfiles, hresolve, by decide +kernel, by decide +kernel⟩

end SampleClaims

end RepoAtlas
