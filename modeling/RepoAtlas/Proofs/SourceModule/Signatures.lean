import Mathlib.Data.List.Forall2
import Mathlib.Data.String.Basic
import RepoAtlas.Proofs.Text.Cut
import RepoAtlas.SourceModule.Read

/-!
What is said of the properties and methods of a type body, told by the parts of the source
that they span. Places are counted in bytes there; a name that takes more
bytes than characters costs the type of its method as many characters.
-/
namespace RepoAtlas

open Syntax Text

namespace Syntax

/-- The characters of a source between two of its bytes. -/
def Spans (source : List Char) (start stop : Nat) (chars : List Char) : Prop :=
  ∃ front behind, source = front ++ chars ++ behind ∧ String.utf8Len front = start ∧
    String.utf8Len (front ++ chars) = stop

section Spans

variable {source front chars behind : List Char} {start middle stop offset : Nat}

theorem charsBetween_front (hstart : offset + String.utf8Len front ≤ start) (hstop : start ≤ stop) :
    charsBetween start stop offset (front ++ behind) =
      charsBetween start stop (offset + String.utf8Len front) behind := by
  induction front generalizing offset with
  | nil => rfl
  | cons c front ih =>
      rw [String.utf8Len_cons] at hstart ⊢
      have hpos := c.utf8Size_pos
      have hinside : ¬ stop < offset + c.utf8Size := by omega
      have hfront : offset < start := by omega
      simp only [List.cons_append, charsBetween, if_neg hinside, if_pos hfront]
      rw [ih (by omega)]
      congr 1
      omega

theorem charsBetween_inside (hstart : start ≤ offset)
    (hstop : offset + String.utf8Len chars = stop) :
    charsBetween start stop offset (chars ++ behind) = chars := by
  induction chars generalizing offset with
  | nil =>
      cases behind with
      | nil => rfl
      | cons c behind =>
          have hpos := c.utf8Size_pos
          rw [String.utf8Len_nil] at hstop
          have hend : stop < offset + c.utf8Size := by omega
          simp only [List.nil_append, charsBetween, if_pos hend]
  | cons c chars ih =>
      rw [String.utf8Len_cons] at hstop
      have hinside : ¬ stop < offset + c.utf8Size := by omega
      have hbehind : ¬ offset < start := by omega
      simp only [List.cons_append, charsBetween, if_neg hinside, if_neg hbehind]
      rw [ih (by omega) (by omega)]

theorem Spans.charsBetween_eq (h : Spans source start stop chars) :
    charsBetween start stop 0 source = chars := by
  obtain ⟨front, behind, rfl, rfl, rfl⟩ := h
  rw [String.utf8Len_append, List.append_assoc, charsBetween_front (by omega) (by omega)]
  exact charsBetween_inside (by omega) (by omega)

theorem Spans.text_eq {t : Tree} (h : Spans source t.start t.stop chars) :
    t.text source = String.ofList chars := by
  rw [Tree.text, h.charsBetween_eq]

/-- A source has one beginning for each number of bytes. -/
theorem eq_of_utf8Len_eq {front' behind' : List Char} (h : front ++ behind = front' ++ behind')
    (hlength : String.utf8Len front = String.utf8Len front') : front = front' ∧ behind = behind' := by
  suffices hfront : front = front' by
    subst hfront
    exact ⟨rfl, List.append_cancel_left h⟩
  have hnil {a b : List Char} (hstarts : a <+: b) (heq : String.utf8Len a = String.utf8Len b) :
      a = b := by
    obtain ⟨more, rfl⟩ := hstarts
    rw [String.utf8Len_append] at heq
    have hmore : more = [] := String.utf8Len_eq_zero.mp (by omega)
    rw [hmore, List.append_nil]
  rcases List.prefix_or_prefix_of_prefix (List.prefix_append front behind)
    (h ▸ List.prefix_append front' behind') with hstarts | hstarts
  · exact hnil hstarts hlength
  · exact (hnil hstarts hlength.symm).symm

theorem Spans.append {more : List Char} (h : Spans source start middle chars)
    (hmore : Spans source middle stop more) : Spans source start stop (chars ++ more) := by
  obtain ⟨front, behind, rfl, rfl, hmiddle⟩ := h
  obtain ⟨front', behind', hsource, hfront', rfl⟩ := hmore
  rw [List.append_assoc front'] at hsource
  obtain ⟨rfl, rfl⟩ := eq_of_utf8Len_eq hsource (hmiddle.trans hfront'.symm)
  exact ⟨front, behind', by simp only [List.append_assoc], rfl, by rw [List.append_assoc]⟩

end Spans

end Syntax

namespace ModuleFacts

/-- Whether `name` is a text without white space around it, and without quotes that enclose it. -/
def NameIn (text name : List Char) : Prop :=
  ∃ word, CutAround Unicode.isBlank text word ∧
    ((∃ quote ∈ ['\'', '"', '\u0060'], word = quote :: name ++ [quote]) ∨
      (∀ quote ∈ ['\'', '"', '\u0060'], ∀ inner, word ≠ quote :: inner ++ [quote]) ∧ name = word)

/-- Whether `type` is an annotation without its colon, and without white space around it. -/
def AnnotatedIn (text type : List Char) : Prop :=
  ∃ annotation rest, CutAround Unicode.isBlank text annotation ∧
    CutInFront (· == ':') annotation rest ∧ CutAround Unicode.isBlank rest type

/-- Whether `type` is a text without question marks in front, white space around it and
separators behind. -/
def SignatureIn (text type : List Char) : Prop :=
  ∃ rest word, CutInFront (· == '?') text rest ∧ CutAround Unicode.isBlank rest word ∧
    CutBehind (fun c => c == ';' || c == ',') word type

/-- The characters that are lost behind a text whose bytes are taken for characters. -/
def surplus (chars : List Char) : Nat :=
  String.utf8Len chars - chars.length

/-- Whether a node is a property or a method with a name. -/
def isSignature (t : Tree) : Bool :=
  (t.kind == .propertySignature || t.kind == .methodSignature) && (t.child? .name).isSome

/-- The properties and methods of a body, each with the named node in front of it. -/
def signatures (body : Tree) : List (Option Tree × Tree) :=
  ((none :: body.namedChildren.map some).zip body.namedChildren).filter fun entry =>
    isSignature entry.2

/-- What is said of a property or a method in the source. -/
structure Recorded (source : List Char) (previous : Option Tree) (t : Tree) (f : InterfaceField) :
    Prop where
  name : ∀ node ∈ t.child? .name, ∀ text, Spans source node.start node.stop text →
    NameIn text f.name.toList
  required : f.required = true ↔ ∀ child ∈ t.children, child.kind ≠ .token "?"
  untyped : t.kind = .propertySignature → t.child? .type = none → f.type = "any"
  property : t.kind = .propertySignature → ∀ node ∈ t.child? .type, ∀ text,
    Spans source node.start node.stop text → AnnotatedIn text f.type.toList
  /-- The type is what follows the name, the characters apart that are lost. -/
  method : t.kind = .methodSignature → ∀ node ∈ t.child? .name, ∀ front text,
    Spans source t.start node.stop front → Spans source node.stop t.stop text →
      SignatureIn (text.drop (surplus front)) f.type.toList
  method_whole : t.kind = .methodSignature → ∀ node ∈ t.child? .name, ∀ front text,
    Spans source t.start node.stop front → Spans source node.stop t.stop text →
      (∀ c ∈ front, c.utf8Size = 1) → SignatureIn text f.type.toList
  description : ∀ prose, f.description = some prose ↔ ∃ comment, previous = some comment ∧
    comment.kind = .comment ∧ isStartOf "/**" (comment.text source) = true ∧
      proseOf (comment.text source) = prose ∧ prose ≠ ""

section Texts

theorem nameIn_unquote (s : String) : NameIn s.toList (unquote s).toList := by
  refine ⟨trimWhile Unicode.isBlank s.toList, trimWhile_eq_iff.mp rfl, ?_⟩
  unfold unquote
  simp only
  generalize trimWhile Unicode.isBlank s.toList = word
  by_cases hquoted : ∃ quote ∈ ['\'', '"', '\u0060'], ∃ inner, word = quote :: inner ++ [quote]
  · obtain ⟨quote, hquote, inner, rfl⟩ := hquoted
    refine .inl ⟨quote, hquote, ?_⟩
    have hlast : (quote :: inner ++ [quote]).getLast? = some quote := List.getLast?_concat
    have hcontains : ['\'', '"', '\u0060'].contains quote = true := List.contains_iff_mem.mpr hquote
    have hne : (inner ++ [quote]).isEmpty = false := by simp
    rw [List.cons_append] at hlast ⊢
    simp only [hlast, hne, hcontains, Bool.not_false, BEq.rfl, Bool.true_and, if_true,
      List.dropLast_concat, String.toList_ofList, List.cons_append]
  · refine .inr ⟨fun quote hquote inner h => hquoted ⟨quote, hquote, inner, h⟩, ?_⟩
    split
    · next first rest last hlast =>
        split
        · next hcut =>
            simp only [Bool.and_eq_true, Bool.not_eq_true', List.isEmpty_eq_false_iff,
              beq_iff_eq] at hcut
            obtain ⟨⟨hrest, rfl⟩, hquote⟩ := hcut
            refine absurd ⟨first, List.contains_iff_mem.mp hquote, rest.dropLast, ?_⟩ hquoted
            rw [List.getLast?_cons, Option.some.injEq, List.getLast?_eq_some_getLast hrest,
              Option.getD_some] at hlast
            rw [List.cons_append, ← hlast, List.dropLast_concat_getLast]
        · exact String.toList_ofList
    · exact String.toList_ofList

theorem annotatedIn_annotatedType (s : String) : AnnotatedIn s.toList (annotatedType s).toList := by
  simp only [annotatedType, trim, trimStart, String.toList_ofList]
  exact ⟨_, _, trimWhile_eq_iff.mp rfl, dropWhile_eq_iff.mp rfl, trimWhile_eq_iff.mp rfl⟩

theorem length_le_utf8Len (chars : List Char) : chars.length ≤ String.utf8Len chars := by
  induction chars with
  | nil => exact Nat.le_refl _
  | cons c chars ih =>
      have hpos := c.utf8Size_pos
      rw [List.length_cons, String.utf8Len_cons]
      omega

/-- Nothing is lost behind a text just if each of its characters takes one byte. -/
theorem surplus_eq_zero_iff {chars : List Char} :
    surplus chars = 0 ↔ ∀ c ∈ chars, c.utf8Size = 1 := by
  induction chars with
  | nil => simp [surplus]
  | cons c chars ih =>
      have hpos := c.utf8Size_pos
      have hlength := length_le_utf8Len chars
      rw [List.forall_mem_cons, ← ih]
      simp only [surplus, String.utf8Len_cons, List.length_cons]
      omega

variable {source front text : List Char} {member name : Tree}

theorem signatureIn_methodType (hfront : Spans source member.start name.stop front)
    (htext : Spans source name.stop member.stop text) :
    SignatureIn (text.drop (surplus front)) (methodType source member name).toList := by
  have hbytes : name.stop - member.start = String.utf8Len front := by
    obtain ⟨before, behind, -, hstart, hstop⟩ := hfront
    rw [← hstart, ← hstop, String.utf8Len_append]
    omega
  have hrest : (member.text source).toList.drop (name.stop - member.start) =
      text.drop (surplus front) := by
    rw [(hfront.append htext).text_eq, String.toList_ofList, hbytes, List.drop_append,
      List.drop_eq_nil_of_le (length_le_utf8Len front), List.nil_append, surplus]
  simp only [methodType, hrest, trimEnd, trim, String.toList_ofList]
  exact ⟨_, _, dropWhile_eq_iff.mp rfl, trimWhile_eq_iff.mp rfl, dropEndWhile_eq_iff.mp rfl⟩

theorem memberProse?_eq_some_iff {previous : Option Tree} {prose : String} :
    memberProse? source previous = some prose ↔ ∃ comment, previous = some comment ∧
      comment.kind = .comment ∧ isStartOf "/**" (comment.text source) = true ∧
        proseOf (comment.text source) = prose ∧ prose ≠ "" := by
  cases previous with
  | none => simp [memberProse?]
  | some comment =>
      simp only [memberProse?, Bool.and_eq_true, beq_iff_eq, Option.some.injEq, exists_eq_left']
      by_cases hcomment : comment.kind = .comment ∧ isStartOf "/**" (comment.text source) = true
      · rw [if_pos hcomment]
        by_cases hempty : proseOf (comment.text source) = ""
        · rw [if_pos hempty]
          simp only [reduceCtorEq, false_iff]
          rintro ⟨-, -, rfl, hne⟩
          exact hne hempty
        · rw [if_neg hempty, Option.some.injEq]
          exact ⟨fun h => ⟨hcomment.1, hcomment.2, h, h ▸ hempty⟩, fun h => h.2.2.1⟩
      · rw [if_neg hcomment]
        simp only [reduceCtorEq, false_iff]
        exact fun h => hcomment ⟨h.1, h.2.1⟩

end Texts

section Members

variable {source : List Char} {previous : Option Tree} {t : Tree}

theorem hasToken_eq_false_iff {text : String} :
    t.hasToken text = false ↔ ∀ child ∈ t.children, child.kind ≠ .token text := by
  simp [Tree.hasToken]

/-- What is said of a node but for its type is the same for a property and a method. -/
theorem recorded_of_type {name : Tree} {type : String} (hname : t.child? .name = some name)
    (huntyped : t.kind = .propertySignature → t.child? .type = none → type = "any")
    (hproperty : t.kind = .propertySignature → ∀ node ∈ t.child? .type, ∀ text,
      Spans source node.start node.stop text → AnnotatedIn text type.toList)
    (hmethod : t.kind = .methodSignature → ∀ front text, Spans source t.start name.stop front →
      Spans source name.stop t.stop text → SignatureIn (text.drop (surplus front)) type.toList) :
    Recorded source previous t
      { name := unquote (name.text source), type, required := !t.hasToken "?",
        description := memberProse? source previous } := by
  have heq (node : Tree) (hnode : node ∈ t.child? .name) : node = name :=
    (Option.some.inj (hname.symm.trans hnode)).symm
  constructor
  case name =>
    intro node hnode text htext
    have hin := nameIn_unquote (node.text source)
    rw [htext.text_eq, String.toList_ofList] at hin
    rw [← heq node hnode, htext.text_eq]
    exact hin
  case required => rw [Bool.not_eq_true', hasToken_eq_false_iff]
  case untyped => exact huntyped
  case property => exact hproperty
  case method =>
    intro hkind node hnode
    rw [heq node hnode]
    exact hmethod hkind
  case method_whole =>
    intro hkind node hnode front text hfront htext hnarrow
    rw [heq node hnode] at hfront htext
    have hin := hmethod hkind front text hfront htext
    rwa [surplus_eq_zero_iff.mpr hnarrow, List.drop_zero] at hin
  case description => exact fun prose => memberProse?_eq_some_iff

/-- A property or a method with a name is recorded, and no other node. -/
theorem member?_cases (source : List Char) (previous : Option Tree) (t : Tree) :
    (isSignature t = true ∧
        ∃ f, member? source previous t = some f ∧ Recorded source previous t f) ∨
      isSignature t = false ∧ member? source previous t = none := by
  unfold member?
  simp only
  split
  · next name hkind hname =>
      refine .inl ⟨by simp [isSignature, hkind, hname], _, rfl,
        recorded_of_type hname (fun _ hnone => ?_) (fun _ node hnode text htext => ?_) fun h => ?_⟩
      · rw [hnone]
      · rw [Option.mem_def.mp hnode]
        have hin := annotatedIn_annotatedType (node.text source)
        rwa [htext.text_eq, String.toList_ofList, ← htext.text_eq] at hin
      · rw [hkind] at h
        cases h
  · next name hkind hname =>
      have hnot : t.kind ≠ .propertySignature := fun h => by
        rw [hkind] at h
        cases h
      exact .inl ⟨by simp [isSignature, hkind, hname], _, rfl,
        recorded_of_type hname (fun h => absurd h hnot) (fun h => absurd h hnot)
          fun _ front text => signatureIn_methodType⟩
  · next hproperty hmethod =>
      refine .inr ⟨?_, rfl⟩
      cases hname : t.child? .name with
      | none => simp [isSignature, hname]
      | some name =>
          have hkinds : t.kind ≠ .propertySignature ∧ t.kind ≠ .methodSignature :=
            ⟨fun h => hproperty name h hname, fun h => hmethod name h hname⟩
          simp [isSignature, hkinds]

/-- What is said of the signatures among some nodes comes in the same order. -/
theorem forall₂_membersFrom (source : List Char) (previous : Option Tree) (trees : List Tree) :
    List.Forall₂ (fun entry f => Recorded source entry.1 entry.2 f)
      (((previous :: trees.map some).zip trees).filter fun entry => isSignature entry.2)
      (membersFrom source previous trees) := by
  induction trees generalizing previous with
  | nil => exact .nil
  | cons t rest ih =>
      rw [membersFrom, List.map_cons, List.zip_cons_cons]
      rcases member?_cases source previous t with ⟨hsignature, f, hf, hrecorded⟩ | ⟨hother, hnone⟩
      · rw [List.filter_cons_of_pos (by simpa using hsignature), hf]
        exact .cons hrecorded (ih (some t))
      · rw [List.filter_cons_of_neg (by simpa using hother), hnone]
        exact ih (some t)

/-- What is said of a member but for its description. -/
def undescribed (f : InterfaceField) : InterfaceField :=
  { f with description := none }

theorem undescribed_member? (source : List Char) (previous : Option Tree) (t : Tree) :
    (member? source previous t).map undescribed = member? source none t := by
  unfold member?
  simp only
  split <;> rfl

/-- But for descriptions, nothing but the signatures themselves makes a difference. -/
theorem undescribed_membersFrom (source : List Char) (previous : Option Tree)
    (trees : List Tree) : (membersFrom source previous trees).map undescribed =
      (trees.filter isSignature).filterMap (member? source none) := by
  induction trees generalizing previous with
  | nil => rfl
  | cons t rest ih =>
      rw [membersFrom, List.map_append, ih, ← Option.toList_map, undescribed_member?]
      rcases member?_cases source none t with ⟨hsignature, f, hf, -⟩ | ⟨hother, hnone⟩
      · rw [List.filter_cons_of_pos hsignature, List.filterMap_cons_some hf, hf]
        rfl
      · rw [List.filter_cons_of_neg (by simp [hother]), hnone]
        rfl

theorem map_snd_signatures (body : Tree) :
    (signatures body).map Prod.snd = body.namedChildren.filter isSignature := by
  have hzip : ((none :: body.namedChildren.map some).zip body.namedChildren).map Prod.snd =
      body.namedChildren := List.map_snd_zip (by simp)
  calc (signatures body).map Prod.snd
      = (((none :: body.namedChildren.map some).zip body.namedChildren).map Prod.snd).filter
          isSignature := by rw [List.filter_map]; rfl
    _ = body.namedChildren.filter isSignature := by rw [hzip]

end Members

end ModuleFacts

open ModuleFacts

/--
The properties and methods of a body are recorded one by one, in the order of the
source. But for their descriptions, what stands between them makes no difference.
-/
theorem members_recorded (source : List Char) (body : Tree) :
    List.Forall₂ (fun entry f => Recorded source entry.1 entry.2 f) (signatures body)
        (members source body) ∧
      ∀ other : Tree, (signatures other).map Prod.snd = (signatures body).map Prod.snd →
        (members source other).map undescribed = (members source body).map undescribed := by
  refine ⟨forall₂_membersFrom source none body.namedChildren, fun other h => ?_⟩
  rw [map_snd_signatures, map_snd_signatures] at h
  rw [members, members, undescribed_membersFrom, undescribed_membersFrom, h]

namespace SampleSignatures

def source : String := "interface A \x7b größe(): void \x7d"

def name : Tree := .node .identifier (some .name) 14 21 []

def method : Tree := .node .methodSignature none 14 29 [name, .node .other none 21 29 []]

/-- The body of the interface, with what matters of its method. -/
def body : Tree :=
  .node .interfaceBody (some .body) 12 31
    [.node (.token "\x7b") none 12 13 [], method, .node (.token "\x7d") none 30 31 []]

theorem spans_name : Spans source.toList method.start name.stop "größe".toList :=
  ⟨"interface A \x7b ".toList, "(): void \x7d".toList, by decide, by decide, by decide⟩

theorem spans_type : Spans source.toList name.stop method.stop "(): void".toList :=
  ⟨"interface A \x7b größe".toList, " \x7d".toList, by decide, by decide, by decide⟩

theorem signatures_body : signatures body = [(none, method)] := rfl

/-- The name takes two bytes more than characters, and two characters of the type are lost. -/
theorem members_recorded_sample : ∃ f, members source.toList body = [f] ∧
    NameIn "größe".toList f.name.toList ∧ f.required = true ∧
      SignatureIn ": void".toList f.type.toList := by
  have hrecorded := (members_recorded source.toList body).1
  rw [signatures_body, List.forall₂_cons_left_iff] at hrecorded
  obtain ⟨f, rest, hf, hrest, hmembers⟩ := hrecorded
  obtain rfl := List.forall₂_nil_left_iff.mp hrest
  exact ⟨f, hmembers, hf.name name rfl _ spans_name, hf.required.mpr (by decide),
    hf.method rfl name rfl _ _ spans_name spans_type⟩

/-- Not all types are as in the source. -/
theorem not_always_whole :
    ¬ ∀ (source : List Char) (body : Tree), List.Forall₂ (fun entry f =>
      entry.2.kind = .methodSignature → ∀ node ∈ entry.2.child? .name, ∀ text,
        Spans source node.stop entry.2.stop text → SignatureIn text f.type.toList)
      (signatures body) (members source body) := by
  intro hwhole
  have hmembers : members source.toList body = [⟨"größe", ": void", true, none⟩] := by
    decide +kernel
  have hsample := hwhole source.toList body
  rw [hmembers, signatures_body, List.forall₂_cons] at hsample
  obtain ⟨rest, word, hrest, hword, htype⟩ :=
    hsample.1 rfl name rfl _ spans_type
  rw [← dropWhile_eq_iff] at hrest
  rw [← hrest, ← trimWhile_eq_iff] at hword
  rw [← hword, ← dropEndWhile_eq_iff] at htype
  exact absurd htype (by decide)

/-- The same comes of reading the source. -/
example : (ModuleFacts.read "a.ts" source).value.map (fun facts => facts.interfaces) =
    some [("A", [⟨"größe", ": void", true, none⟩])] := by
  decide +kernel

end SampleSignatures

end RepoAtlas
