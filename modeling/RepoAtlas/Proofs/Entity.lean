import RepoAtlas.Entity
import RepoAtlas.Proofs.Json.RoundTrip

/-!
Entities, file records and coordinates in JSON: what is read from the form of
one is the one it was made from.
-/
namespace RepoAtlas

open Json (Readable)

/-- Reading the form of each of some items gives the items. -/
theorem filterMap_map_of_mem {f : α → β} {g : β → Option α} {items : List α}
    (h : ∀ item ∈ items, g (f item) = some item) : (items.map f).filterMap g = items := by
  induction items with
  | nil => rfl
  | cons item items ih =>
      rw [List.map_cons, List.filterMap_cons, h item (by simp)]
      exact congrArg _ (ih fun other hmem => h other (List.mem_cons_of_mem _ hmem))

@[simp] theorem Json.string?_str (s : String) : string? (.str s) = some s := rfl

@[simp] theorem Json.text?_str (s : String) : text? (.str s) = some (.ofString s) := rfl

theorem Json.stringItems_strings (items : List String) :
    stringItems (some (strings items)) = items :=
  filterMap_map_of_mem fun _ _ => rfl

theorem Json.readable_strings (items : List String) (depth : Nat) :
    Readable (depth + 1) (strings items) := by
  refine .arr fun v hmem => ?_
  obtain ⟨s, -, rfl⟩ := List.mem_map.mp hmem
  exact .str s

theorem Json.readable_map {f : α → Json} {items : List α} {depth : Nat}
    (h : ∀ item ∈ items, Readable depth (f item)) : Readable (depth + 1) (.arr (items.map f)) := by
  refine .arr fun v hmem => ?_
  obtain ⟨item, hitem, rfl⟩ := List.mem_map.mp hmem
  exact h item hitem

namespace InterfaceField

/-- Whether a field keeps its description in JSON: an empty one is left out. -/
def Described (f : InterfaceField) : Prop :=
  f.description ≠ some ""

instance (f : InterfaceField) : Decidable f.Described :=
  inferInstanceAs (Decidable (_ ≠ _))

theorem ofJson?_toJson {f : InterfaceField} (h : f.Described) : ofJson? f.toJson = some f := by
  obtain ⟨name, type, required, description⟩ := f
  cases description with
  | none => simp [toJson, ofJson?, Table.get?, Json.truthy]
  | some d =>
      have hd : d ≠ "" := fun heq => h (congrArg some heq)
      simp [toJson, ofJson?, Table.get?, Json.truthy, hd]

theorem readable_toJson (f : InterfaceField) (depth : Nat) : Readable (depth + 1) f.toJson := by
  obtain ⟨name, type, required, description⟩ := f
  have hfields : ∀ tail : List (String × Json),
      (tail = [] ∨ ∃ d, tail = [("description", .str d)]) →
      Readable (depth + 1) (.obj ([("name", .str name), ("type", .str type),
        ("required", .bool required)] ++ tail)) := by
    rintro tail (rfl | ⟨d, rfl⟩)
    · refine .obj (by simp) fun field hmem => ?_
      simp only [List.append_nil, List.mem_cons, List.not_mem_nil, or_false] at hmem
      rcases hmem with rfl | rfl | rfl
      · exact .str name
      · exact .str type
      · exact .bool required
    · refine .obj (by simp) fun field hmem => ?_
      simp only [List.cons_append, List.nil_append, List.mem_cons, List.not_mem_nil,
        or_false] at hmem
      rcases hmem with rfl | rfl | rfl | rfl
      · exact .str name
      · exact .str type
      · exact .bool required
      · exact .str d
  apply hfields
  cases description with
  | none => exact Or.inl rfl
  | some d =>
      by_cases hd : d = ""
      · exact Or.inl (by simp [hd])
      · exact Or.inr ⟨d, by simp [hd]⟩

end InterfaceField

namespace Entity

/-- Whether every field of an entity keeps its description in JSON. -/
def Described (e : Entity) : Prop :=
  ∀ f ∈ e.props, f.Described

instance (e : Entity) : Decidable e.Described :=
  inferInstanceAs (Decidable (∀ f ∈ e.props, f.Described))

theorem ofJson?_toJson {e : Entity} (h : e.Described) : ofJson? e.toJson = some e := by
  have hprops : (e.props.map InterfaceField.toJson).filterMap InterfaceField.ofJson? = e.props :=
    filterMap_map_of_mem fun f hmem => InterfaceField.ofJson?_toJson (h f hmem)
  have hdescription : (Json.ofOption .str e.description).string? = e.description := by
    cases e.description <;> rfl
  simp [toJson, ofJson?, Table.get?, Role.ofLabel?_label, Json.items, hprops, hdescription,
    Json.stringItems_strings, Json.truthy]

theorem readable_toJson (e : Entity) (depth : Nat) : Readable (depth + 3) e.toJson := by
  have hdescription : Readable (depth + 2) (Json.ofOption .str e.description) := by
    cases e.description with
    | none => exact .null
    | some d => exact .str d
  refine .obj (by simp) fun field hmem => ?_
  simp only [List.mem_cons, List.not_mem_nil, or_false] at hmem
  rcases hmem with rfl | rfl | rfl | rfl | rfl | rfl | rfl | rfl | rfl | rfl
  · exact .str _
  · exact .str _
  · exact .str _
  · exact hdescription
  · exact Json.readable_map fun f _ => f.readable_toJson depth
  · exact Json.readable_strings _ _
  · exact Json.readable_strings _ _
  · exact Json.readable_strings _ _
  · exact .str _
  · exact .bool _

end Entity

namespace FileRecord

/-- Whether a record is one of a file or of a directory. -/
def Typed (r : FileRecord) : Prop :=
  r.type = .blob ∨ r.type = .tree

instance (r : FileRecord) : Decidable r.Typed :=
  inferInstanceAs (Decidable (_ ∨ _))

theorem ofJson_toJson {r : FileRecord} (h : r.Typed) : ofJson r.toJson = .ok r := by
  obtain ⟨path, type, url⟩ := r
  rcases h with rfl | rfl <;>
    simp [toJson, ofJson, ListedEntry.ofJson, ListedEntry.shown, Table.get?, EntryKind.label,
      Except.map]

theorem listOfJson_map {records : List FileRecord} (h : ∀ r ∈ records, r.Typed) :
    listOfJson (records.map toJson) = .ok records := by
  induction records with
  | nil => rfl
  | cons r records ih =>
      rw [List.map_cons, listOfJson, ofJson_toJson (h r (by simp))]
      simp only [ih fun other hmem => h other (List.mem_cons_of_mem _ hmem)]

theorem readable_toJson (r : FileRecord) (depth : Nat) : Readable (depth + 1) r.toJson := by
  refine .obj (by simp) fun field hmem => ?_
  simp only [List.mem_cons, List.not_mem_nil, or_false] at hmem
  rcases hmem with rfl | rfl | rfl <;> exact .str _

end FileRecord

namespace Coordinates

theorem ofJson?_toJson (c : Coordinates) : ofJson? c.toJson = some c := by
  simp [toJson, ofJson?, Table.get?]

theorem readable_toJson (c : Coordinates) (depth : Nat) : Readable (depth + 1) c.toJson := by
  refine .obj (by simp) fun field hmem => ?_
  simp only [List.mem_cons, List.not_mem_nil, or_false] at hmem
  rcases hmem with rfl | rfl | rfl <;> exact .str _

end Coordinates

end RepoAtlas
