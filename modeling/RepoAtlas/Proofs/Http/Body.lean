import RepoAtlas.Http.Response
import RepoAtlas.Proofs.Json.RoundTrip
import RepoAtlas.Proofs.Text.Utf8

/-!
Documents in answers. An object on one line begins with two ASCII characters, so its bytes
are taken for UTF-8, and it is read as the object.
-/
namespace RepoAtlas

namespace Json

/-- An ASCII character in front, with no null byte behind it, tells that bytes are UTF-8. -/
theorem textOfBytes?_of_ascii {a b : UInt8} (hlow : a < 128) (ha : a ≠ 0) (hb : b ≠ 0)
    (rest : List UInt8) : textOfBytes? (a :: b :: rest) = Utf8.decodeLoose? (a :: b :: rest) := by
  have hnot {mark : UInt8} (hmark : 128 ≤ mark) : a ≠ mark := by
    rintro rfl
    exact absurd hlow (UInt8.not_lt.mpr hmark)
  have hutf8 : a ≠ 0xef := hnot (by decide)
  have hlittle : a ≠ 0xff := hnot (by decide)
  have hbig : a ≠ 0xfe := hnot (by decide)
  unfold textOfBytes?
  split
  · next heq => exact absurd (List.cons.inj heq).1 hutf8
  · next hbytes =>
      cases hbytes
      simp [ha, hb, hlittle, hbig]
  · rfl

/-- The text of an object begins with two ASCII characters. -/
theorem exists_render_obj (fields : List (String × Json)) :
    ∃ c rest, render .line 0 (.obj fields) = '\x7b' :: c :: rest ∧ (c = '"' ∨ c = '\x7d') := by
  cases fields with
  | nil => exact ⟨_, _, rfl, .inr rfl⟩
  | cons field fields => exact ⟨_, _, rfl, .inl rfl⟩

theorem textOfBytes?_encode_compact (fields : List (String × Json)) :
    textOfBytes? (Utf8.encode (obj fields).compact) = some (.ofString (obj fields).compact) := by
  obtain ⟨c, rest, htext, hc⟩ := exists_render_obj fields
  rw [← Utf8.decodeLoose?_encode, compact, htext, Utf8.encode, String.toList_ofList]
  rcases hc with rfl | rfl <;> exact textOfBytes?_of_ascii (by decide) (by decide) (by decide) _

end Json

/-- An object that is served on one line is read as the object. -/
theorem Response.json_of_compact {response : Response} {fields : List (String × Json)}
    (hbody : response.body = Utf8.encode (Json.obj fields).compact)
    (h : Json.Readable Json.maxDepth (.obj fields)) : response.json = .ok (.obj fields) := by
  have hread : Json.readLoose (.ofString (Json.obj fields).compact) = .ok (.obj fields) :=
    Json.readText_compact h
  rw [json, hbody, Json.textOfBytes?_encode_compact]
  simp only [hread]

end RepoAtlas
