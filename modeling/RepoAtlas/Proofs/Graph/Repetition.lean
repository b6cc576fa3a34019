import RepoAtlas.Proofs.Graph.Symmetry

/-!
Resolving references again. The names that entities use stay as they are from
the first time on; who lists them as users may still move, to the entity that
bears a name, and after the second time nothing changes any more.
-/
namespace RepoAtlas

/-- The values of a table may be changed before or after it is made. -/
theorem Table.get?_ofEntries_map {α : Type u} {β : Type v} (f : α → β) (key : String)
    (entries : List (String × α)) :
    get? key (ofEntries (entries.map fun entry => (entry.1, f entry.2))) =
      (get? key (ofEntries entries)).map f := by
  rw [get?_ofEntries, get?_ofEntries, ← List.map_reverse, List.find?_map, Option.map_map,
    Option.map_map]
  rfl

theorem withoutName_of_tidy {name : String} {names : List String} (hname : name ∉ names)
    (hnames : names.Nodup) : withoutName name names = names := by
  have hkept : names.filter (· != name) = names := by
    refine List.filter_eq_self.mpr fun other hmem => ?_
    have hne : other ≠ name := by
      rintro rfl
      exact hname hmem
    simpa using hne
  rw [withoutName, hkept, Text.distinct_of_nodup hnames]

theorem withoutName_distinct (name : String) (names : List String) :
    withoutName name (Text.distinct names) = Text.distinct (names.filter (· != name)) := by
  rw [withoutName, Text.filter_distinct, Text.distinct_of_nodup (Text.nodup_distinct _)]

/-- An entity without what resolving rewrites. -/
def Entity.unlinked (e : Entity) : Entity :=
  { e with uses := [], usedBy := [] }

@[simp]
theorem Entity.name_unlinked (e : Entity) : e.unlinked.name = e.name := rfl

@[simp]
theorem Entity.file_unlinked (e : Entity) : e.unlinked.file = e.file := rfl

@[simp]
theorem Entity.exports_unlinked (e : Entity) : e.unlinked.exports = e.exports := rfl

namespace ReferenceIndex

/-- What a name refers to is found by names, exports and files alone. -/
theorem find?_map_unlinked (entities : List Entity) (raw : String) :
    (ofEntities (entities.map Entity.unlinked)).find? raw =
      ((ofEntities entities).find? raw).map Entity.unlinked := by
  have hname : (entities.map Entity.unlinked).map (fun e => (e.name, e)) =
      (entities.map fun e => (e.name, e)).map fun entry => (entry.1, entry.2.unlinked) := by
    simp [Function.comp_def]
  have hexport : (entities.map Entity.unlinked).flatMap
        (fun e => e.exports.map fun name => (name, e)) =
      (entities.flatMap fun e => e.exports.map fun name => (name, e)).map
        fun entry => (entry.1, entry.2.unlinked) := by
    simp [List.flatMap_map, List.map_flatMap, Function.comp_def]
  have hfile : (entities.map Entity.unlinked).flatMap fileEntries =
      (entities.flatMap fileEntries).map fun entry => (entry.1, entry.2.unlinked) := by
    simp [List.flatMap_map, List.map_flatMap, fileEntries]
  rw [ofEntities_eq, ofEntities_eq]
  simp only [find?, hname, hexport, hfile, Table.get?_ofEntries_map, Option.map_or]

variable {entities others : List Entity}

theorem lookup_eq_of_unlinked (h : entities.map Entity.unlinked = others.map Entity.unlinked)
    (raw : String) : (ofEntities entities).lookup raw = (ofEntities others).lookup raw := by
  have hlookup (list : List Entity) : (ofEntities list).lookup raw =
      (ofEntities (list.map Entity.unlinked)).lookup raw := by
    unfold lookup
    rw [find?_map_unlinked]
    cases (ofEntities list).find? raw <;> rfl
  rw [hlookup entities, hlookup others, h]

end ReferenceIndex

section Unlinked

variable {entities others : List Entity}

theorem targetPosition_eq_of_unlinked
    (h : entities.map Entity.unlinked = others.map Entity.unlinked) (raw : String) :
    targetPosition entities raw = targetPosition others raw := by
  have hfiles : entities.map Entity.file = others.map Entity.file := by
    simpa [Function.comp_def] using congrArg (List.map Entity.file) h
  have hpositions (list : List Entity) : filePositions list =
      Table.ofEntries (list.map Entity.file).zipIdx := by
    rw [filePositions_eq, List.zipIdx_map]
    rfl
  rw [targetPosition, targetPosition, ReferenceIndex.lookup_eq_of_unlinked h, hpositions,
    hpositions, hfiles]

theorem resolvedUses_eq_of_unlinked
    (h : entities.map Entity.unlinked = others.map Entity.unlinked) (e : Entity) :
    resolvedUses (ReferenceIndex.ofEntities entities) e =
      resolvedUses (ReferenceIndex.ofEntities others) e := by
  simp only [resolvedUses, ReferenceIndex.lookup_eq_of_unlinked h]

theorem refersTo_eq_of_unlinked
    (h : entities.map Entity.unlinked = others.map Entity.unlinked) (i : Nat)
    (user : Entity × Nat) : refersTo entities i user = refersTo others i user := by
  simp only [refersTo, targetPosition_eq_of_unlinked h]

end Unlinked

/-- Resolving keeps all but uses and users. -/
theorem map_unlinked_resolve (entities : List Entity) :
    (resolve entities).map Entity.unlinked = entities.map Entity.unlinked := by
  apply List.ext_getElem?
  intro i
  rw [List.getElem?_map, List.getElem?_map, getElem?_resolve, Option.map_map]
  rfl

/-- An entity without the users it lists. -/
def Entity.unlisted (e : Entity) : Entity :=
  { e with usedBy := [] }

/-- Resolving does not look at the users that were listed before. -/
theorem resolve_map_unlisted (entities : List Entity) :
    resolve (entities.map Entity.unlisted) = resolve entities := by
  have h : (entities.map Entity.unlisted).map Entity.unlinked = entities.map Entity.unlinked := by
    rw [List.map_map]
    rfl
  have hreferrers (i : Nat) : referrers (entities.map Entity.unlisted) i =
      referrers entities i := by
    have hrefers : refersTo (entities.map Entity.unlisted) i ∘ Prod.map Entity.unlisted id =
        refersTo entities i := by
      funext user
      exact refersTo_eq_of_unlinked h i _
    rw [referrers, List.zipIdx_map, List.filter_map, List.map_map, hrefers]
    rfl
  apply List.ext_getElem?
  intro i
  rw [getElem?_resolve, getElem?_resolve, List.getElem?_map, Option.map_map]
  refine congrArg (fun f => Option.map f entities[i]?) (funext fun e => ?_)
  simp only [Function.comp_apply, resolvedAt, resolvedUses_eq_of_unlinked h, hreferrers]
  rfl

/-- A name that has been resolved refers to an entity that bears it, or to nothing. -/
theorem lookup_name_of_mem_resolvedUses {entities : List Entity} {e : Entity} {name : String}
    (h : name ∈ resolvedUses (ReferenceIndex.ofEntities entities) e) :
    ((ReferenceIndex.ofEntities entities).lookup name).name = name := by
  obtain ⟨_, raw, _, hname⟩ := mem_resolvedUses.mp h
  rw [ReferenceIndex.lookup_name]
  cases hfind : (ReferenceIndex.ofEntities entities).find? raw with
  | none =>
      rw [hfind] at hname
      obtain rfl : raw = name := hname
      rw [hfind]
      rfl
  | some target =>
      rw [hfind] at hname
      obtain rfl : target.name = name := hname
      obtain ⟨bearer, hbearer, heq⟩ :=
        ReferenceIndex.find?_of_declared (ReferenceIndex.mem_of_find? hfind)
      rw [hbearer]
      exact heq

/-- Names that have been resolved are resolved to themselves. -/
theorem resolvedUses_resolvedAt (entities : List Entity) (e : Entity) (i : Nat) :
    resolvedUses (ReferenceIndex.ofEntities (resolve entities)) (resolvedAt entities e i) =
      resolvedUses (ReferenceIndex.ofEntities entities) e := by
  have htidy := tidyReferences_resolvedAt entities e i
  have hnames : (resolvedAt entities e i).uses.map
      (fun raw => ((ReferenceIndex.ofEntities entities).lookup raw).name) =
        (resolvedAt entities e i).uses := by
    conv => rhs; rw [← List.map_id (resolvedAt entities e i).uses]
    refine List.map_congr_left fun name hmem => ?_
    exact lookup_name_of_mem_resolvedUses hmem
  rw [resolvedUses_eq_of_unlinked (map_unlinked_resolve entities), resolvedUses, hnames,
    withoutName_of_tidy htidy.uses_irrefl htidy.uses_nodup]
  rfl

/-- What resolving again makes of the entity at a position. -/
theorem getElem?_resolve_resolve (entities : List Entity) (i : Nat) :
    (resolve (resolve entities))[i]? = entities[i]?.map fun e =>
      { resolvedAt entities e i with
        usedBy := withoutName e.name (Text.distinct (referrers (resolve entities) i)) } := by
  rw [getElem?_resolve, getElem?_resolve, Option.map_map]
  refine congrArg (fun f => Option.map f entities[i]?) (funext fun e => ?_)
  have huses := resolvedUses_resolvedAt entities e i
  simp only [Function.comp_apply]
  rw [resolvedAt, huses]
  rfl

/-- The uses stay as they are from the first time on. -/
theorem map_uses_resolve_resolve (entities : List Entity) :
    (resolve (resolve entities)).map Entity.uses = (resolve entities).map Entity.uses := by
  apply List.ext_getElem?
  intro i
  rw [List.getElem?_map, List.getElem?_map, getElem?_resolve_resolve, getElem?_resolve,
    Option.map_map, Option.map_map]
  rfl

/-- After the second time nothing changes any more. -/
theorem resolve_resolve_resolve (entities : List Entity) :
    resolve (resolve (resolve entities)) = resolve (resolve entities) := by
  have hunlisted : (resolve (resolve entities)).map Entity.unlisted =
      (resolve entities).map Entity.unlisted := by
    apply List.ext_getElem?
    intro i
    rw [List.getElem?_map, List.getElem?_map, getElem?_resolve_resolve, getElem?_resolve,
      Option.map_map, Option.map_map]
    rfl
  rw [← resolve_map_unlisted (resolve (resolve entities)), hunlisted, resolve_map_unlisted]

/-- Whether every entity that another one refers to, under whatever name, is the
one that its own name refers to. -/
def RefersToBearers (entities : List Entity) : Prop :=
  ∀ e ∈ entities, ∀ raw ∈ e.uses, ∀ target,
    (ReferenceIndex.ofEntities entities).find? raw = some target → target.name ≠ e.name →
      (ReferenceIndex.ofEntities entities).find? target.name = some target

/-- A resolved name that leads to an entity is the name of that entity. -/
theorem name_of_mem_resolvedUses {entities : List Entity} {e target : Entity} {name : String}
    (hmem : name ∈ resolvedUses (ReferenceIndex.ofEntities entities) e)
    (hfind : (ReferenceIndex.ofEntities entities).find? name = some target) :
    target.name = name := by
  have hname := lookup_name_of_mem_resolvedUses hmem
  rwa [ReferenceIndex.lookup_name, hfind] at hname

theorem refersTo_resolve_iff {entities : List Entity} {e : Entity} {i j : Nat} :
    refersTo (resolve entities) i (resolvedAt entities e j, j) = true ↔
      j ≠ i ∧ ∃ name ∈ resolvedUses (ReferenceIndex.ofEntities entities) e,
        targetPosition entities name = some i := by
  rw [refersTo_eq_of_unlinked (map_unlinked_resolve entities)]
  simp [refersTo, resolvedAt]

/-- A reference to an entity of another name lasts if the entity is the one that
its own name refers to. -/
theorem refersTo_resolve_of_bearers {entities : List Entity}
    (hfiles : (entities.map Entity.file).Nodup) (hbearers : RefersToBearers entities)
    {e target : Entity} {i j : Nat} (he : e ∈ entities) (htarget : entities[i]? = some target)
    (hne : e.name ≠ target.name) :
    refersTo (resolve entities) i (resolvedAt entities e j, j) = refersTo entities i (e, j) := by
  have hposition (raw : String) : targetPosition entities raw = some i ↔
      (ReferenceIndex.ofEntities entities).find? raw = some target := by
    rw [targetPosition_eq_some_iff hfiles, htarget]
    simp
  rw [Bool.eq_iff_iff, refersTo_resolve_iff]
  simp only [refersTo, Bool.and_eq_true, bne_iff_ne, List.any_eq_true, beq_iff_eq, hposition]
  refine and_congr_right fun _ => ?_
  constructor
  · rintro ⟨name, hmem, hfind⟩
    have hname := name_of_mem_resolvedUses hmem hfind
    obtain ⟨hself, raw, hraw, hresolved⟩ := mem_resolvedUses.mp hmem
    refine ⟨raw, hraw, ?_⟩
    cases hfound : (ReferenceIndex.ofEntities entities).find? raw with
    | none =>
        rw [hfound] at hresolved
        obtain rfl : raw = name := hresolved
        exact absurd (hfound.symm.trans hfind) (by simp)
    | some found =>
        rw [hfound] at hresolved
        obtain rfl : found.name = name := hresolved
        rw [← hfind]
        exact (hbearers e he raw hraw found hfound hself).symm
  · rintro ⟨raw, hraw, hfind⟩
    refine ⟨target.name, mem_resolvedUses.mpr ⟨hne.symm, raw, hraw, by simp [hfind]⟩, ?_⟩
    exact hbearers e he raw hraw target hfind hne.symm

/-- The entities that refer to the one at a position after resolving, in order. -/
theorem referrers_resolve (entities : List Entity) (i : Nat) :
    referrers (resolve entities) i =
      (entities.zipIdx.filter fun user =>
        refersTo (resolve entities) i (resolvedAt entities user.1 user.2, user.2)).map
          fun user => user.1.name := by
  have hzip : (resolve entities).zipIdx =
      entities.zipIdx.map fun user => (resolvedAt entities user.1 user.2, user.2) := by
    apply List.ext_getElem?
    intro j
    rw [List.getElem?_zipIdx, List.getElem?_map, List.getElem?_zipIdx, getElem?_resolve,
      Option.map_map, Option.map_map]
    simp [Function.comp_def]
  rw [referrers, hzip, List.filter_map, List.map_map]
  rfl

/-- The users of an entity, other than those of its own name, stay if references
lead to the bearers of names. -/
theorem filter_referrers_resolve {entities : List Entity}
    (hfiles : (entities.map Entity.file).Nodup) (hbearers : RefersToBearers entities)
    {target : Entity} {i : Nat} (htarget : entities[i]? = some target) :
    (referrers (resolve entities) i).filter (· != target.name) =
      (referrers entities i).filter (· != target.name) := by
  rw [referrers_resolve, referrers, List.filter_map, List.filter_map, List.filter_filter,
    List.filter_filter]
  refine congrArg (List.map fun user : Entity × Nat => user.1.name) (List.filter_congr ?_)
  rintro ⟨e, j⟩ hmem
  have he : e ∈ entities := List.mem_of_getElem? (List.mem_zipIdx_iff_getElem?.mp hmem)
  by_cases hname : e.name = target.name
  · simp [hname]
  · rw [refersTo_resolve_of_bearers hfiles hbearers he htarget hname]

/-- Where the users stay, references lead to the bearers of names. -/
theorem refersToBearers_of_resolve_resolve {entities : List Entity}
    (hfiles : (entities.map Entity.file).Nodup)
    (h : resolve (resolve entities) = resolve entities) : RefersToBearers entities := by
  intro e he raw hraw target hfind hne
  obtain ⟨i, htarget⟩ := List.mem_iff_getElem?.mp (ReferenceIndex.mem_of_find? hfind)
  obtain ⟨j, hplace⟩ := List.mem_iff_getElem?.mp he
  have hposition : targetPosition entities raw = some i :=
    (targetPosition_eq_some_iff hfiles).mpr ⟨target, htarget, hfind⟩
  have hapart : j ≠ i := by
    rintro rfl
    exact hne (congrArg Entity.name (Option.some.inj (htarget.symm.trans hplace)))
  have hlisted : e.name ∈ withoutName target.name (Text.distinct (referrers entities i)) := by
    refine mem_withoutName.mpr ⟨Text.mem_distinct.mpr ?_, hne.symm⟩
    exact mem_referrers.mpr ⟨e, j, hplace, rfl, hapart, raw, hraw, hposition⟩
  have hstays : withoutName target.name (Text.distinct (referrers (resolve entities) i)) =
      withoutName target.name (Text.distinct (referrers entities i)) := by
    have hentry := congrArg (fun list => list[i]?) h
    simp only [getElem?_resolve_resolve, getElem?_resolve entities i, htarget, Option.map_some,
      Option.some.injEq] at hentry
    exact congrArg Entity.usedBy hentry
  -- Somebody of that name still refers to the target, now by a resolved name.
  rw [← hstays, mem_withoutName, Text.mem_distinct, mem_referrers] at hlisted
  obtain ⟨⟨user, k, huser, _, _, name, hname, hnamed⟩, _⟩ := hlisted
  rw [getElem?_resolve, Option.map_eq_some_iff] at huser
  obtain ⟨before, _, rfl⟩ := huser
  rw [targetPosition_eq_of_unlinked (map_unlinked_resolve entities),
    targetPosition_eq_some_iff hfiles] at hnamed
  obtain ⟨found, hfound, hfindName⟩ := hnamed
  obtain rfl : target = found := Option.some.inj (htarget.symm.trans hfound)
  rw [name_of_mem_resolvedUses hname hfindName]
  exact hfindName

/-- Resolving again leaves the uses of every entity as they are, and changes
nothing more the time after. It changes nothing at all exactly when whatever an
entity refers to is what its own name refers to. -/
theorem resolve_twice (entities : List Entity) (hfiles : (entities.map Entity.file).Nodup) :
    (resolve (resolve entities)).map Entity.uses = (resolve entities).map Entity.uses ∧
      resolve (resolve (resolve entities)) = resolve (resolve entities) ∧
      (resolve (resolve entities) = resolve entities ↔ RefersToBearers entities) := by
  refine ⟨map_uses_resolve_resolve entities, resolve_resolve_resolve entities, ?_⟩
  constructor
  · exact refersToBearers_of_resolve_resolve hfiles
  · intro hbearers
    apply List.ext_getElem?
    intro i
    rw [getElem?_resolve_resolve, getElem?_resolve]
    cases htarget : entities[i]? with
    | none => rfl
    | some target =>
        have hkept := filter_referrers_resolve hfiles hbearers htarget
        simp only [Option.map_some, resolvedAt, withoutName_distinct, hkept]

namespace SharedName

/-- Two entities called `Card`, of which the first exports `Box`, and a page that uses it. -/
def entities : List Entity := [
  { name := "Card", role := .component, file := "a/Card.tsx", exports := ["Box"] },
  { name := "Card", role := .component, file := "b/Card.tsx" },
  { name := "Page", role := .page, file := "app/page.tsx", uses := ["Box"] }]

theorem resolve_resolve_ne : resolve (resolve entities) ≠ resolve entities := by
  decide +kernel

/-- The first entity loses its user to the second when references are resolved
again: what the page uses is the first, but the name of both refers to the second. -/
theorem resolve_twice_moves_user :
    (entities.map Entity.file).Nodup ∧
      (resolve (resolve entities)).map Entity.uses = (resolve entities).map Entity.uses ∧
      resolve (resolve (resolve entities)) = resolve (resolve entities) ∧
      (resolve entities).map Entity.usedBy = [["Page"], [], []] ∧
      (resolve (resolve entities)).map Entity.usedBy = [[], ["Page"], []] ∧
      ¬RefersToBearers entities := by
  have hfiles : (entities.map Entity.file).Nodup := by decide
  have htwice := resolve_twice entities hfiles
  exact ⟨hfiles, htwice.1, htwice.2.1, by decide +kernel, by decide +kernel,
    fun hbearers => resolve_resolve_ne (htwice.2.2.mpr hbearers)⟩

theorem not_always_settled :
    ¬∀ entities : List Entity, (entities.map Entity.file).Nodup →
      resolve (resolve entities) = resolve entities := by
  intro hsettled
  exact resolve_resolve_ne (hsettled entities (by decide))

end SharedName

end RepoAtlas
