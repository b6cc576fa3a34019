import Mathlib.Data.List.Induction
import Mathlib.Data.List.Nodup
import RepoAtlas.Table
import RepoAtlas.Text.Trim

/-!
What a table holds after entries have been set one after another, and what a
list keeps when repeated items are dropped.
-/
namespace RepoAtlas

namespace Table

variable {α : Type u} {β : Type v}

@[simp]
theorem get?_nil (key : String) : get? key ([] : Table α) = none := rfl

theorem get?_set (key other : String) (value : α) (t : Table α) :
    get? other (set key value t) =
      if key = other then some value else get? other t := by
  by_cases h : key = other
  · subst h
    simp [get?_set_self]
  · simp [h, get?_set_of_ne h]

/-- The first entry with a name is one of the entries. -/
theorem mem_of_get? {key : String} {value : α} {t : Table α}
    (h : get? key t = some value) : (key, value) ∈ t := by
  induction t with
  | nil => simp at h
  | cons entry rest ih =>
      obtain ⟨k, v⟩ := entry
      simp only [get?, beq_iff_eq] at h
      split at h
      · next hk =>
          obtain rfl := Option.some.inj h
          simp [hk]
      · exact List.mem_cons_of_mem _ (ih h)

theorem get?_eq_none_iff {key : String} {t : Table α} :
    get? key t = none ↔ key ∉ t.map Prod.fst := by
  induction t with
  | nil => simp
  | cons entry rest ih =>
      obtain ⟨k, v⟩ := entry
      by_cases hk : k = key
      · simp [get?, hk]
      · simp [get?, hk, ih, Ne.symm hk]

/-- Where no name is repeated, looking up is membership. -/
theorem get?_eq_some_iff {t : Table α} (hkeys : (t.map Prod.fst).Nodup)
    {key : String} {value : α} : get? key t = some value ↔ (key, value) ∈ t := by
  refine ⟨mem_of_get?, fun hmem => ?_⟩
  induction t with
  | nil => simp at hmem
  | cons entry rest ih =>
      obtain ⟨k, v⟩ := entry
      simp only [List.map_cons, List.nodup_cons] at hkeys
      rcases List.mem_cons.mp hmem with heq | hrest
      · obtain ⟨rfl, rfl⟩ := Prod.mk.inj heq
        simp [get?]
      · have hne : k ≠ key := by
          rintro rfl
          exact hkeys.1 (List.mem_map_of_mem hrest)
        simp [get?, hne, ih hkeys.2 hrest]

theorem ofEntries_concat (entries : List (String × α)) (entry : String × α) :
    ofEntries (entries ++ [entry]) = set entry.1 entry.2 (ofEntries entries) := by
  simp [ofEntries, List.foldl_append]

theorem set_of_not_mem {key : String} {t : Table α} (h : key ∉ t.map Prod.fst) (value : α) :
    set key value t = t ++ [(key, value)] := by
  induction t with
  | nil => rfl
  | cons entry rest ih =>
      obtain ⟨k, v⟩ := entry
      rw [List.map_cons, List.mem_cons, not_or] at h
      simp [set, Ne.symm h.1, ih h.2]

/-- Entries without a repeated name are set as they stand. -/
theorem ofEntries_of_nodup {entries : List (String × α)} (hkeys : (entries.map Prod.fst).Nodup) :
    ofEntries entries = entries := by
  induction entries using List.reverseRecOn with
  | nil => rfl
  | append_singleton entries entry ih =>
      rw [List.map_append, List.nodup_append] at hkeys
      have hnew : entry.1 ∉ entries.map Prod.fst := by
        intro hmem
        exact hkeys.2.2 _ hmem _ (by simp) rfl
      rw [ofEntries_concat, ih hkeys.1, set_of_not_mem hnew]

/-- Of the entries with one name the last one counts. -/
theorem get?_ofEntries (key : String) (entries : List (String × α)) :
    get? key (ofEntries entries) =
      (entries.reverse.find? fun entry => entry.1 == key).map Prod.snd := by
  induction entries using List.reverseRecOn with
  | nil => rfl
  | append_singleton entries entry ih =>
      rw [ofEntries_concat, get?_set, List.reverse_append]
      by_cases h : entry.1 = key
      · simp [h]
      · simp [h, ih]

theorem mem_of_get?_ofEntries {key : String} {value : α}
    {entries : List (String × α)} (h : get? key (ofEntries entries) = some value) :
    (key, value) ∈ entries := by
  rw [get?_ofEntries, Option.map_eq_some_iff] at h
  obtain ⟨⟨k, v⟩, hfind, rfl⟩ := h
  have hkey : k = key := by simpa using List.find?_some hfind
  subst hkey
  exact List.mem_reverse.mp (List.mem_of_find?_eq_some hfind)

theorem get?_ofEntries_eq_none_iff {key : String} {entries : List (String × α)} :
    get? key (ofEntries entries) = none ↔ key ∉ entries.map Prod.fst := by
  simp only [get?_ofEntries, Option.map_eq_none_iff, List.find?_eq_none,
    List.mem_reverse, beq_iff_eq, List.mem_map, not_exists, not_and]

/-- Entries without a repeated name are looked up as they stand. -/
theorem get?_ofEntries_eq_some_iff {entries : List (String × α)}
    (hkeys : (entries.map Prod.fst).Nodup) {key : String} {value : α} :
    get? key (ofEntries entries) = some value ↔ (key, value) ∈ entries := by
  refine ⟨mem_of_get?_ofEntries, fun hmem => ?_⟩
  cases hget : get? key (ofEntries entries) with
  | none =>
      rw [get?_ofEntries_eq_none_iff] at hget
      exact absurd (List.mem_map_of_mem hmem) hget
  | some other =>
      have hother := mem_of_get?_ofEntries hget
      have heq := List.inj_on_of_nodup_map hkeys hother hmem rfl
      simpa using heq

/-- A table under other names, with other values. -/
def rename (name : String → String) (value : α → β) (t : Table α) : Table β :=
  t.map fun entry => (name entry.1, value entry.2)

section Rename

variable {name : String → String} (value : α → β) {key : String}

/-- A table is looked up under other names as under its own, if they stay apart. -/
theorem get?_rename {t : Table α} (happart : ∀ k ∈ t.map Prod.fst, name k = name key → k = key) :
    get? (name key) (rename name value t) = (get? key t).map value := by
  induction t with
  | nil => rfl
  | cons entry rest ih =>
      obtain ⟨k, v⟩ := entry
      rw [List.map_cons, List.forall_mem_cons] at happart
      by_cases hk : k = key
      · simp [rename, get?, hk]
      · have hname : name k ≠ name key := fun heq => hk (happart.1 heq)
        have hrest := ih happart.2
        rw [rename] at hrest
        simp [rename, get?, hk, hname, hrest]

theorem set_rename {t : Table α} (happart : ∀ k ∈ t.map Prod.fst, name k = name key → k = key)
    (v : α) : set (name key) (value v) (rename name value t) = rename name value (set key v t) := by
  induction t with
  | nil => rfl
  | cons entry rest ih =>
      obtain ⟨k, w⟩ := entry
      rw [List.map_cons, List.forall_mem_cons] at happart
      by_cases hk : k = key
      · simp [rename, set, hk]
      · have hname : name k ≠ name key := fun heq => hk (happart.1 heq)
        have hrest := ih happart.2
        rw [rename, rename] at hrest
        simp [rename, set, hk, hname, hrest]

/-- Taking away some of the new names is taking away the entries that have them. -/
theorem filter_rename (p : String → Bool) (t : Table α) :
    (rename name value t).filter (fun entry => p entry.1) =
      rename name value (t.filter fun entry => p (name entry.1)) := by
  rw [rename, List.filter_map]
  rfl

end Rename

end Table

namespace Text

variable {α : Type u} [BEq α] [LawfulBEq α]

/-- Adds an item to a list that does not hold it. -/
def addNew (item : α) (known : List α) : List α :=
  if known.contains item then known else known ++ [item]

theorem addNew_of_mem {item : α} {known : List α} (h : item ∈ known) :
    addNew item known = known := by
  simp [addNew, h]

theorem addNew_of_not_mem {item : α} {known : List α} (h : item ∉ known) :
    addNew item known = known ++ [item] := by
  simp [addNew, h]

@[simp]
theorem mem_addNew {item other : α} {known : List α} :
    other ∈ addNew item known ↔ other ∈ known ∨ other = item := by
  by_cases h : item ∈ known
  · rw [addNew_of_mem h]
    constructor
    · exact Or.inl
    · rintro (hmem | rfl)
      · exact hmem
      · exact h
  · simp [addNew, h]

/-- Adding an item again changes nothing. -/
theorem addNew_addNew (item : α) (known : List α) :
    addNew item (addNew item known) = addNew item known :=
  addNew_of_mem (by simp)

theorem nodup_addNew {item : α} {known : List α} (h : known.Nodup) :
    (addNew item known).Nodup := by
  by_cases hmem : item ∈ known
  · rwa [addNew_of_mem hmem]
  · simp only [addNew, List.contains_iff_mem, hmem, if_false]
    exact List.nodup_append.mpr ⟨h, by simp, by
      rintro a ha b hb rfl
      exact hmem (List.mem_singleton.mp hb ▸ ha)⟩

omit [LawfulBEq α] in
@[simp]
theorem distinct_nil : distinct ([] : List α) = [] := rfl

omit [LawfulBEq α] in
theorem distinct_concat (items : List α) (item : α) :
    distinct (items ++ [item]) = addNew item (distinct items) := by
  rw [distinct, List.foldl_append]
  rfl

@[simp]
theorem mem_distinct {item : α} {items : List α} :
    item ∈ distinct items ↔ item ∈ items := by
  induction items using List.reverseRecOn with
  | nil => simp
  | append_singleton items last ih =>
      simp [distinct_concat, ih]

theorem nodup_distinct (items : List α) : (distinct items).Nodup := by
  induction items using List.reverseRecOn with
  | nil => exact List.nodup_nil
  | append_singleton items last ih =>
      rw [distinct_concat]
      exact nodup_addNew ih

/-- Of items without repeats nothing is dropped. -/
theorem distinct_of_nodup {items : List α} (h : items.Nodup) : distinct items = items := by
  induction items using List.reverseRecOn with
  | nil => rfl
  | append_singleton items last ih =>
      rw [List.nodup_append] at h
      have hnew : last ∉ items := by
        intro hmem
        exact h.2.2 _ hmem _ (List.mem_singleton_self last) rfl
      rw [distinct_concat, ih h.1, addNew_of_not_mem hnew]

/-- Repeats may be dropped before or after some of the items. -/
theorem filter_distinct (p : α → Bool) (items : List α) :
    (distinct items).filter p = distinct (items.filter p) := by
  induction items using List.reverseRecOn with
  | nil => rfl
  | append_singleton items last ih =>
      rw [distinct_concat, List.filter_append]
      by_cases hp : p last = true
      · rw [List.filter_cons_of_pos hp, List.filter_nil, distinct_concat, ← ih]
        by_cases hmem : last ∈ distinct items
        · rw [addNew_of_mem hmem, addNew_of_mem (List.mem_filter.mpr ⟨hmem, hp⟩)]
        · have hnew : last ∉ (distinct items).filter p := fun h => hmem (List.mem_filter.mp h).1
          rw [addNew_of_not_mem hmem, addNew_of_not_mem hnew, List.filter_append,
            List.filter_cons_of_pos hp, List.filter_nil]
      · rw [List.filter_cons_of_neg hp, List.filter_nil, List.append_nil, ← ih]
        by_cases hmem : last ∈ distinct items
        · rw [addNew_of_mem hmem]
        · rw [addNew_of_not_mem hmem, List.filter_append, List.filter_cons_of_neg hp,
            List.filter_nil, List.append_nil]

end Text

namespace Table

variable {α : Type u}

theorem mem_set {key : String} {value : α} {t : Table α} {entry : String × α}
    (hmem : entry ∈ set key value t) : entry = (key, value) ∨ entry ∈ t := by
  induction t with
  | nil => exact Or.inl (List.mem_singleton.mp hmem)
  | cons first rest ih =>
      obtain ⟨k, v⟩ := first
      by_cases hk : k = key
      · rw [set, if_pos (beq_iff_eq.mpr hk), hk] at hmem
        exact (List.mem_cons.mp hmem).imp_right (List.mem_cons_of_mem _)
      · rw [set, if_neg (by simpa using hk)] at hmem
        rcases List.mem_cons.mp hmem with heq | hrest
        · exact Or.inr (heq ▸ List.mem_cons_self)
        · exact (ih hrest).imp_right (List.mem_cons_of_mem _)

/-- Taking away a name forgets what was set under it. -/
theorem filter_ne_set (key : String) (value : α) (t : Table α) :
    (set key value t).filter (fun entry => entry.1 != key) =
      t.filter fun entry => entry.1 != key := by
  induction t with
  | nil => simp [set]
  | cons first rest ih =>
      obtain ⟨k, v⟩ := first
      by_cases hk : k = key
      · simp [set, hk]
      · simp [set, hk, ih]

/-- Taking away a name that is not there changes nothing. -/
theorem filter_ne_of_not_mem {key : String} {t : Table α} (h : key ∉ t.map Prod.fst) :
    t.filter (fun entry => entry.1 != key) = t := by
  refine List.filter_eq_self.mpr fun entry hmem => ?_
  have hne : entry.1 ≠ key := by
    rintro rfl
    exact h (List.mem_map_of_mem hmem)
  simpa using hne

/-- Where no entry with a name is dropped, looking it up finds what it found. -/
theorem get?_filter_of_kept {key : String} {p : String × α → Bool} {t : Table α}
    (hkept : ∀ value, p (key, value) = true) : get? key (t.filter p) = get? key t := by
  induction t with
  | nil => rfl
  | cons entry rest ih =>
      obtain ⟨k, v⟩ := entry
      by_cases hk : k = key
      · subst hk
        rw [List.filter_cons_of_pos (hkept v)]
        simp [get?]
      · by_cases hp : p (k, v) = true
        · rw [List.filter_cons_of_pos hp]
          simpa [get?, hk] using ih
        · rw [List.filter_cons_of_neg hp, ih]
          simp [get?, hk]

/-- Taking away a name leaves what stands under the others. -/
theorem get?_filter_ne {key other : String} (h : key ≠ other) (t : Table α) :
    get? key (t.filter fun entry => entry.1 != other) = get? key t :=
  get?_filter_of_kept fun _ => by simpa using h

theorem map_fst_set (key : String) (value : α) (t : Table α) :
    (set key value t).map Prod.fst = Text.addNew key (t.map Prod.fst) := by
  induction t with
  | nil => rfl
  | cons first rest ih =>
      obtain ⟨k, v⟩ := first
      by_cases hk : k = key
      · simp [set, Text.addNew, hk]
      · simp only [set, beq_iff_eq, hk, if_false, List.map_cons, ih, Text.addNew,
          List.contains_iff_mem, List.mem_cons, Ne.symm hk, false_or]
        split <;> rfl

/-- Where no name is repeated, setting a name leaves nothing else under it. -/
theorem mem_set_of_nodup {key : String} {value : α} {t : Table α} (hkeys : (t.map Prod.fst).Nodup)
    {entry : String × α} (hmem : entry ∈ set key value t) :
    entry = (key, value) ∨ entry ∈ t ∧ entry.1 ≠ key := by
  by_cases hname : entry.1 = key
  · have hset : ((set key value t).map Prod.fst).Nodup := by
      rw [map_fst_set]
      exact Text.nodup_addNew hkeys
    have hget := (get?_eq_some_iff hset).mpr hmem
    rw [hname, get?_set_self, Option.some.injEq] at hget
    exact .inl (Prod.ext hname hget.symm)
  · refine .inr ⟨(mem_set hmem).resolve_left ?_, hname⟩
    rintro rfl
    exact hname rfl

end Table

end RepoAtlas
