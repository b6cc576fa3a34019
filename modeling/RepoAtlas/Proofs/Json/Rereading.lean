import RepoAtlas.Proofs.Entity

/-!
Reading leniently and writing again. Whatever value an entity, a field, a file record or
coordinates were read from, the form they are written in is read as the same again and
written alike, except that a field's empty description, which is not written, is gone.
-/
namespace RepoAtlas

namespace InterfaceField

/-- A field as its own form tells it: an empty description counts as none. -/
def settled (f : InterfaceField) : InterfaceField :=
  { f with description := f.description.filter (· != "") }

theorem settled_eq_self_iff {f : InterfaceField} : f.settled = f ↔ f.Described := by
  obtain ⟨name, type, required, description⟩ := f
  cases description with
  | none => simp [settled, Described]
  | some d => by_cases hd : d = "" <;> simp [settled, Described, hd]

theorem described_settled (f : InterfaceField) : f.settled.Described := by
  simp [settled, Described, Option.filter_eq_some_iff]

theorem toJson_settled (f : InterfaceField) : f.settled.toJson = f.toJson := by
  obtain ⟨name, type, required, description⟩ := f
  cases description with
  | none => rfl
  | some d => by_cases hd : d = "" <;> simp [settled, toJson, Option.filter, hd]

/-- The form of any field is read, and only an empty description is lost by it. -/
theorem ofJson?_toJson_settled (f : InterfaceField) : ofJson? f.toJson = some f.settled := by
  rw [← toJson_settled, ofJson?_toJson f.described_settled]

theorem ofJson?_toJson_iff {f : InterfaceField} : ofJson? f.toJson = some f ↔ f.Described := by
  rw [ofJson?_toJson_settled, Option.some.injEq, settled_eq_self_iff]

end InterfaceField

namespace Entity

/-- An entity as its own form tells it: an empty description of a field counts as none. -/
def settled (e : Entity) : Entity :=
  { e with props := e.props.map InterfaceField.settled }

theorem settled_eq_self_iff {e : Entity} : e.settled = e ↔ e.Described := by
  have hprops : e.settled = e ↔ e.props.map InterfaceField.settled = e.props.map id := by
    rw [List.map_id]
    constructor
    · intro h
      exact congrArg Entity.props h
    · intro h
      rw [settled, h]
  rw [hprops, List.map_inj_left, Described]
  exact forall₂_congr fun f _ => InterfaceField.settled_eq_self_iff

theorem described_settled (e : Entity) : e.settled.Described := by
  intro f hmem
  obtain ⟨before, -, rfl⟩ := List.mem_map.mp hmem
  exact before.described_settled

theorem toJson_settled (e : Entity) : e.settled.toJson = e.toJson := by
  have hprops : e.settled.props.map InterfaceField.toJson =
      e.props.map InterfaceField.toJson := by
    rw [settled, List.map_map]
    exact List.map_congr_left fun f _ => f.toJson_settled
  rw [toJson, hprops]
  rfl

/-- The form of any entity is read, and only empty descriptions of fields are lost by it. -/
theorem ofJson?_toJson_settled (e : Entity) : ofJson? e.toJson = some e.settled := by
  rw [← toJson_settled, ofJson?_toJson e.described_settled]

theorem ofJson?_toJson_iff {e : Entity} : ofJson? e.toJson = some e ↔ e.Described := by
  rw [ofJson?_toJson_settled, Option.some.injEq, settled_eq_self_iff]

end Entity

namespace FileRecord

/-- No other word is read as the type of a record. -/
theorem typed_of_ofJson {v : Json} {r : FileRecord} (h : ofJson v = .ok r) : r.Typed := by
  unfold ofJson ListedEntry.ofJson at h
  split at h
  · split at h
    · simp only at h
      split at h <;> cases h
      · exact .inl rfl
      · exact .inr rfl
    · cases h
  · cases h

theorem ofJson_toJson_iff {r : FileRecord} : ofJson r.toJson = .ok r ↔ r.Typed :=
  ⟨typed_of_ofJson, ofJson_toJson⟩

end FileRecord

/-- Whatever is read from a JSON value is read again from its own form as what its form tells
of it, which has the same form: for an entity and its fields that is all but the empty
descriptions of fields, for file records and coordinates it is everything. What is built
otherwise is read again as it is just if no field of it has an empty description, and if
its type is one of the two that records of a tree have. -/
theorem forms_are_read_again :
    (∀ value f, InterfaceField.ofJson? value = some f →
      ∃ again, InterfaceField.ofJson? f.toJson = some again ∧
        again.toJson = f.toJson ∧ again = f.settled) ∧
    (∀ value e, Entity.ofJson? value = some e →
      ∃ again, Entity.ofJson? e.toJson = some again ∧
        again.toJson = e.toJson ∧ again = e.settled) ∧
    (∀ value r, FileRecord.ofJson value = .ok r → FileRecord.ofJson r.toJson = .ok r) ∧
    (∀ value c, Coordinates.ofJson? value = some c → Coordinates.ofJson? c.toJson = some c) ∧
    (∀ f : InterfaceField, InterfaceField.ofJson? f.toJson = some f ↔ f.Described) ∧
    (∀ e : Entity, Entity.ofJson? e.toJson = some e ↔ ∀ f ∈ e.props, f.description ≠ some "") ∧
    (∀ r : FileRecord,
      FileRecord.ofJson r.toJson = .ok r ↔ r.type = .blob ∨ r.type = .tree) ∧
    ∀ c : Coordinates, Coordinates.ofJson? c.toJson = some c := by
  refine ⟨fun value f _ => ?_, fun value e _ => ?_, fun value r hread => ?_, fun value c _ => ?_,
    fun f => InterfaceField.ofJson?_toJson_iff, fun e => Entity.ofJson?_toJson_iff,
    fun r => FileRecord.ofJson_toJson_iff, Coordinates.ofJson?_toJson⟩
  · exact ⟨f.settled, f.ofJson?_toJson_settled, f.toJson_settled, rfl⟩
  · exact ⟨e.settled, e.ofJson?_toJson_settled, e.toJson_settled, rfl⟩
  · exact FileRecord.ofJson_toJson (FileRecord.typed_of_ofJson hread)
  · exact c.ofJson?_toJson

namespace SampleForms

/-- An entity with parts of the wrong kind, items that are no fields, and flags that are
no truth values. -/
def value : Json := .obj [
  ("extra", .null),
  ("role", .str "page"),
  ("name", .str "Card"),
  ("file", .str "ui/card.tsx"),
  ("description", .int 7),
  ("props", .arr [
    .str "title",
    .obj [("name", .str "title"), ("type", .int 1)],
    .obj [("description", .str ""), ("type", .str "string"), ("name", .str "title"),
      ("required", .arr [.null])],
    .obj [("name", .str "size"), ("type", .str "number"), ("description", .str "In pixels.")]]),
  ("uses", .arr [.str "Box", .int 2, .str ""]),
  ("usedBy", .str "Page"),
  ("isClient", .str "no")]

/-- What is read of it. The first field that is read has an empty description. -/
def entity : Entity where
  name := "Card"
  role := .page
  file := "ui/card.tsx"
  props := [
    { name := "title", type := "string", required := true, description := some "" },
    { name := "size", type := "number", required := false, description := some "In pixels." }]
  uses := ["Box", ""]
  isClient := true

theorem forms_are_read_again_sample :
    Entity.ofJson? value = some entity ∧
      (∃ again, Entity.ofJson? entity.toJson = some again ∧
        again.toJson = entity.toJson ∧ again = entity.settled) ∧
      entity.settled ≠ entity ∧
      FileRecord.ofJson (.obj [("type", .str "tree"), ("path", .str "ui"), ("url", .null)]) =
        .ok { path := "ui", type := .tree, url := "" } ∧
      FileRecord.ofJson (FileRecord.toJson { path := "ui", type := .tree, url := "" }) =
        .ok { path := "ui", type := .tree, url := "" } := by
  have hread : Entity.ofJson? value = some entity := by rfl
  have hrecord : FileRecord.ofJson
      (.obj [("type", .str "tree"), ("path", .str "ui"), ("url", .null)]) =
        .ok { path := "ui", type := .tree, url := "" } := by rfl
  exact ⟨hread, forms_are_read_again.2.1 value entity hread, by decide,
    hrecord, forms_are_read_again.2.2.1 _ _ hrecord⟩

end SampleForms

end RepoAtlas
