import RepoAtlas.Cache.Record
import RepoAtlas.Proofs.Entity
import RepoAtlas.Proofs.Text.Utf8

/-!
Stored records: the bytes of a record's file hold the record, and say whether it
still counts.
-/
namespace RepoAtlas.CacheRecord

open Json (Readable)

/-- Whether the times of a record are numbers that can be written down. -/
structure Timed (r : CacheRecord) : Prop where
  timestamp : r.timestamp.Valid
  expiresAt : r.expiresAt.Valid

/-- Whether a record loses nothing when it is written down. -/
structure Faithful (r : CacheRecord) : Prop extends Timed r where
  described : ∀ e ∈ r.entities, e.Described
  typed : ∀ file ∈ r.files, file.Typed

/-- How many bytes the document of a record takes. -/
def size (r : CacheRecord) : Nat :=
  ((Json.render .indented 0 r.toJson).flatMap Utf8.encodeChar).length

theorem length_toBytes (r : CacheRecord) : r.toBytes.length = r.size := by
  rw [toBytes, Utf8.encode, Json.pretty, String.toList_ofList]
  rfl

theorem readable_toJson {r : CacheRecord} (h : r.Timed) (depth : Nat) :
    Readable (depth + 5) r.toJson := by
  refine .obj (by simp) fun field hmem => ?_
  simp only [List.mem_cons, List.not_mem_nil, or_false] at hmem
  rcases hmem with rfl | rfl | rfl | rfl | rfl | rfl | rfl | rfl
  · exact .str _
  · exact .str _
  · exact .real h.timestamp
  · exact .real h.expiresAt
  · exact .str _
  · exact Json.readable_map fun e _ => e.readable_toJson depth
  · exact Json.readable_map fun file _ => file.readable_toJson (depth + 2)
  · exact r.repository.readable_toJson (depth + 3)

/-- The bytes of a record's file are those of its document. -/
theorem document_toBytes {r : CacheRecord} (h : r.Timed) : document r.toBytes = .ok r.toJson := by
  rw [document, toBytes, Utf8.decode_encode]
  simp only [Json.readText_pretty (readable_toJson h 975)]

/-- A record's document counts for its version, and until it expires. -/
theorem isCurrent_toJson (r : CacheRecord) (version : String) (now : Binary64) :
    isCurrent version now r.toJson = (r.version == version && now.lt r.expiresAt) := by
  simp [toJson, isCurrent, Table.get?, isBefore]

theorem heading?_toJson (r : CacheRecord) :
    heading? r.toJson = some {
      location := r.location
      branch := r.branch
      timestamp := .real r.timestamp
      expiresAt := .real r.expiresAt
      version := r.version
      repository := r.repository } := by
  simp [toJson, heading?, Json.get?, Table.get?, Coordinates.ofJson?_toJson, Quantity.ofJson?]

/-- The record in a record's document is the record. -/
theorem ofJson_toJson {r : CacheRecord} (h : r.Faithful) :
    ofJson r.key r.toJson = .ok (some r) := by
  have hentities : itemsOf r.toJson "components" = r.entities.map Entity.toJson := by
    simp [toJson, itemsOf, Json.get?, Table.get?, Json.items]
  have hfiles : itemsOf r.toJson "allFiles" = r.files.map FileRecord.toJson := by
    simp [toJson, itemsOf, Json.get?, Table.get?, Json.items]
  rw [ofJson, heading?_toJson]
  simp only [hentities, hfiles, FileRecord.listOfJson_map h.typed,
    filterMap_map_of_mem fun e hmem => Entity.ofJson?_toJson (h.described e hmem)]
  rfl

end RepoAtlas.CacheRecord
