import RepoAtlas.Service.Message
import RepoAtlas.Proofs.Entity
import RepoAtlas.Proofs.Json.Printable

/-!
The event stream as its reader sees it. The text is cut at its blank lines, and
what follows the mark of each block is read as a document: these are the
documents of the events, whatever characters are in their texts.
-/
namespace RepoAtlas

open Json (Readable Printable IsPrintable)

/-- The blocks of a text: it is cut wherever two line feeds stand together. -/
def blocks : List Char → List (List Char)
  | [] => [[]]
  | '\n' :: '\n' :: rest => [] :: blocks rest
  | c :: rest => Text.consLine c (blocks rest)

theorem blocks_blankLine (rest : List Char) :
    blocks ('\n' :: '\n' :: rest) = [] :: blocks rest :=
  rfl

theorem blocks_cons {c : Char} (hc : c ≠ '\n') (rest : List Char) :
    blocks (c :: rest) = Text.consLine c (blocks rest) := by
  rw [blocks]
  rintro more rfl
  exact absurd rfl hc

/-- A text on one line is the block before the blank line that follows it. -/
theorem blocks_append_blankLine {line : List Char} (hline : '\n' ∉ line) (rest : List Char) :
    blocks (line ++ '\n' :: '\n' :: rest) = line :: blocks rest := by
  induction line with
  | nil => exact blocks_blankLine rest
  | cons c line ih =>
      have hc : c ≠ '\n' := (List.ne_of_not_mem_cons hline).symm
      rw [List.cons_append, blocks_cons hc, ih (List.not_mem_of_not_mem_cons hline)]
      rfl

/-- Lines that each end in a blank line are the blocks, and one empty block is left at the end. -/
theorem blocks_flatMap {f : α → List Char} {items : List α} (h : ∀ a ∈ items, '\n' ∉ f a) :
    blocks (items.flatMap fun a => f a ++ ['\n', '\n']) = items.map f ++ [[]] := by
  induction items with
  | nil => rfl
  | cons a items ih =>
      obtain ⟨ha, hrest⟩ := List.forall_mem_cons.mp h
      have hcut : (a :: items).flatMap (fun a => f a ++ ['\n', '\n']) =
          f a ++ '\n' :: '\n' :: items.flatMap fun a => f a ++ ['\n', '\n'] := by
        simp
      rw [hcut, blocks_append_blankLine ha, ih hrest]
      rfl

/-- The mark before the document of a block. -/
def dataMark : List Char :=
  "data: ".toList

/-- The document of a block. -/
def document? (block : List Char) : Option Json :=
  (Text.afterStart? dataMark block).bind fun text => (Json.readText text).toOption

/-- The documents of a stream: each block that is not empty has to hold one. -/
def documents? (text : String) : Option (List Json) :=
  ((blocks text.toList).filter fun block => !block.isEmpty).mapM document?

theorem document?_mark {text : List Char} {v : Json} (h : Json.readText text = .ok v) :
    document? (dataMark ++ text) = some v := by
  have hstart : Text.afterStart? dataMark (dataMark ++ text) = some text := by
    simp [Text.afterStart?, Text.beginsWith]
  rw [document?, hstart, Option.bind_some, h]
  rfl

namespace Event

/-- Whether the counts of an event are no longer than integers that are read and written. -/
def ShortCounts : Event → Prop
  | progress current total _ =>
    current.natAbs < 10 ^ Json.maxIntegerDigits ∧ total.natAbs < 10 ^ Json.maxIntegerDigits
  | complete _ totalFiles analyzedFiles _ =>
    totalFiles.natAbs < 10 ^ Json.maxIntegerDigits ∧
      analyzedFiles.natAbs < 10 ^ Json.maxIntegerDigits
  | _ => True

/-- The document of an event has at most five brackets open. -/
theorem readable_toJson {e : Event} (h : e.ShortCounts) (depth : Nat) :
    Readable (depth + 5) e.toJson := by
  cases e with
  | status message =>
      refine .obj (by simp) fun field hmem => ?_
      simp only [List.mem_cons, List.not_mem_nil, or_false] at hmem
      rcases hmem with rfl | rfl <;> exact .str _
  | files records repository =>
      refine .obj (by simp) fun field hmem => ?_
      simp only [List.mem_cons, List.not_mem_nil, or_false] at hmem
      rcases hmem with rfl | rfl | rfl
      · exact .str _
      · exact Json.readable_map fun r _ => r.readable_toJson _
      · exact repository.readable_toJson _
  | progress current total path =>
      refine .obj (by simp) fun field hmem => ?_
      simp only [List.mem_cons, List.not_mem_nil, or_false] at hmem
      rcases hmem with rfl | rfl | rfl | rfl
      · exact .str _
      · exact .int h.1
      · exact .int h.2
      · exact .str _
  | component entity =>
      refine .obj (by simp) fun field hmem => ?_
      simp only [List.mem_cons, List.not_mem_nil, or_false] at hmem
      rcases hmem with rfl | rfl
      · exact .str _
      · exact entity.readable_toJson _
  | complete entities totalFiles analyzedFiles fromCache =>
      refine .obj (by simp) fun field hmem => ?_
      simp only [List.mem_cons, List.not_mem_nil, or_false] at hmem
      rcases hmem with rfl | rfl | rfl | rfl | rfl
      · exact .str _
      · exact Json.readable_map fun entity _ => entity.readable_toJson _
      · exact .int h.1
      · exact .int h.2
      · exact .bool _
  | error message =>
      refine .obj (by simp) fun field hmem => ?_
      simp only [List.mem_cons, List.not_mem_nil, or_false] at hmem
      rcases hmem with rfl | rfl <;> exact .str _

/-- The line of data of an event, without what ends its frame. -/
def line (e : Event) : List Char :=
  dataMark ++ e.toJson.compact.toList

theorem frame_toList (e : Event) : e.frame.toList = e.line ++ ['\n', '\n'] := by
  rw [frame, String.toList_append, String.toList_append]
  rfl

theorem printable_line (e : Event) : Printable e.line :=
  .append (by decide) (Json.printable_compact e.toJson)

theorem lineFeed_not_mem_line (e : Event) : '\n' ∉ e.line :=
  Json.not_mem_of_printable e.printable_line (by decide)

theorem line_ne_nil (e : Event) : e.line ≠ [] :=
  List.append_ne_nil_of_left_ne_nil (by decide) _

theorem document?_line {e : Event} (h : e.ShortCounts) : document? e.line = some e.toJson :=
  document?_mark (Json.readText_compact (e.readable_toJson h 975))

end Event

theorem toList_join (texts : List String) :
    (String.join texts).toList = texts.flatMap String.toList := by
  have hfold : ∀ start : String, (texts.foldl (fun r s => r ++ s) start).toList =
      start.toList ++ texts.flatMap String.toList := by
    induction texts with
    | nil => simp
    | cons text texts ih =>
        intro start
        rw [List.foldl_cons, ih]
        simp
  exact hfold ""

theorem toList_render_stream (events : List Event) :
    (ServiceBody.stream events).render.toList =
      events.flatMap fun e => e.line ++ ['\n', '\n'] := by
  rw [ServiceBody.render, toList_join, List.flatMap_map]
  simp only [Event.frame_toList]

theorem blocks_stream (events : List Event) :
    blocks (ServiceBody.stream events).render.toList = events.map Event.line ++ [[]] := by
  rw [toList_render_stream]
  exact blocks_flatMap fun e _ => e.lineFeed_not_mem_line

theorem mapM_document?_lines {events : List Event} (h : ∀ e ∈ events, e.ShortCounts) :
    (events.map Event.line).mapM document? = some (events.map Event.toJson) := by
  induction events with
  | nil => rfl
  | cons e events ih =>
      obtain ⟨he, hrest⟩ := List.forall_mem_cons.mp h
      simp [Event.document?_line he, ih hrest]

theorem documents?_stream {events : List Event} (h : ∀ e ∈ events, e.ShortCounts) :
    documents? (ServiceBody.stream events).render = some (events.map Event.toJson) := by
  have hlines : (events.map Event.line).filter (fun block => !block.isEmpty) =
      events.map Event.line := by
    refine List.filter_eq_self.mpr fun block hmem => ?_
    obtain ⟨e, -, rfl⟩ := List.mem_map.mp hmem
    simpa using e.line_ne_nil
  rw [documents?, blocks_stream, List.filter_append, hlines]
  simpa using mapM_document?_lines h

/--
A stream is cut into the lines of its events, each of them whole and on one
line of printable characters, and they are read as the documents of the events.
-/
theorem stream_decodes_back (events : List Event) (hshort : ∀ e ∈ events, e.ShortCounts) :
    (∀ e ∈ events, e.frame.toList = e.line ++ ['\n', '\n'] ∧ Printable e.line) ∧
      blocks (ServiceBody.stream events).render.toList = events.map Event.line ++ [[]] ∧
      documents? (ServiceBody.stream events).render = some (events.map Event.toJson) :=
  ⟨fun e _ => ⟨e.frame_toList, e.printable_line⟩, blocks_stream events,
    documents?_stream hshort⟩

/-- Events whose texts hold what could end a line, a frame or a string. -/
def awkwardEvents : List Event :=
  [.status "a blank\n\nline, data: and\r\na \"quoted\" \\ one", .status "",
    .files [⟨"src/\u2028App😀.tsx", .blob, "\x00\x7f"⟩] ⟨"acme", "widgets", "main"⟩,
    .progress 1 1 "\n", .complete [] 1 0 false]

theorem shortCounts_awkwardEvents : ∀ e ∈ awkwardEvents, e.ShortCounts := by
  have hcount : ∀ n < 10, n < 10 ^ Json.maxIntegerDigits := fun n hn =>
    hn.trans_le (Nat.le_self_pow (by decide) 10)
  simp only [awkwardEvents, List.forall_mem_cons]
  exact ⟨trivial, trivial, trivial, ⟨hcount 1 (by decide), hcount 1 (by decide)⟩,
    ⟨hcount 1 (by decide), hcount 0 (by decide)⟩, by simp⟩

theorem stream_decodes_back_awkward :
    (∀ e ∈ awkwardEvents, e.ShortCounts) ∧
      documents? (ServiceBody.stream awkwardEvents).render =
        some (awkwardEvents.map Event.toJson) :=
  ⟨shortCounts_awkwardEvents, (stream_decodes_back awkwardEvents shortCounts_awkwardEvents).2.2⟩

end RepoAtlas
