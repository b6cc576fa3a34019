import RepoAtlas.Proofs.Text.Ends
import RepoAtlas.Repository.Location

/-!
What locations name a repository: an address or the short form, told by what they
look like, and not by how they are looked for.
-/
namespace RepoAtlas

open Text

namespace RepositoryAddress

/-- The name of the host of all repositories. -/
def hostName : List Char := "github.com".toList

/-- Whether a character may stand in the owner that an address names. -/
def isOwnerChar (c : Char) : Bool :=
  c != '/' && !Unicode.isBlank c

/-- Whether a character may stand in the name that an address names. -/
def isNameChar (c : Char) : Bool :=
  c != '/' && !Unicode.isBlank c && c != '#' && c != '?'

end RepositoryAddress

open RepositoryAddress (hostName isOwnerChar isNameChar)

/--
A text in which the name of the host stands, then a slash or a colon, an owner, a
slash and a name. What comes last does not go on with the name.
-/
structure RepositoryAddress where
  front : List Char
  sign : Char
  owner : List Char
  name : List Char
  behind : List Char
  sign_mem : sign ∈ ['/', ':']
  owner_ne : owner ≠ []
  owner_char : ∀ c ∈ owner, isOwnerChar c = true
  name_ne : name ≠ []
  name_char : ∀ c ∈ name, isNameChar c = true
  name_ends : ∀ c ∈ behind.head?, isNameChar c = false

namespace RepositoryAddress

/-- What stands behind the name of the host. -/
def tail (a : RepositoryAddress) : List Char :=
  a.sign :: (a.owner ++ '/' :: (a.name ++ a.behind))

def text (a : RepositoryAddress) : List Char :=
  a.front ++ (hostName ++ a.tail)

/-- The same address with other characters in front. -/
def withFront (front : List Char) (a : RepositoryAddress) : RepositoryAddress :=
  { a with front := front }

/-- Whether no address stands further in front in the same text. -/
def IsFirst (a : RepositoryAddress) : Prop :=
  ∀ other : RepositoryAddress, other.text = a.text → a.front.length ≤ other.front.length

@[simp] theorem withFront_front (front : List Char) (a : RepositoryAddress) :
    (a.withFront front).front = front := rfl

theorem text_withFront (front : List Char) (a : RepositoryAddress) :
    (a.withFront front).text = front ++ (hostName ++ a.tail) := rfl

theorem text_of_front_eq_cons {a : RepositoryAddress} {c : Char} {front : List Char}
    (h : a.front = c :: front) : a.text = c :: (a.withFront front).text := by
  rw [text, h, List.cons_append, text_withFront]

theorem text_ne_nil (a : RepositoryAddress) : a.text ≠ [] := by
  intro htext
  rw [text, List.append_eq_nil_iff, List.append_eq_nil_iff] at htext
  cases htext.2.2

theorem isFirst_of_front_nil {a : RepositoryAddress} (h : a.front = []) : a.IsFirst := by
  intro other _
  rw [h]
  exact Nat.zero_le _

/-- A first address is one still without the first character of its text. -/
theorem IsFirst.of_cons {a : RepositoryAddress} {c : Char} {front : List Char} (h : a.IsFirst)
    (hfront : a.front = c :: front) : (a.withFront front).IsFirst := by
  intro other hother
  have hle := h (other.withFront (c :: other.front)) (by
    rw [text_of_front_eq_cons hfront, ← hother, text_of_front_eq_cons (withFront_front _ _)]
    rfl)
  rw [hfront, withFront_front] at hle
  exact Nat.le_of_succ_le_succ hle

/-- A first address stays one behind a character at which no address stands. -/
theorem IsFirst.cons {a : RepositoryAddress} (h : a.IsFirst) (c : Char)
    (hnone : ∀ other : RepositoryAddress, other.text = c :: a.text → other.front ≠ []) :
    (a.withFront (c :: a.front)).IsFirst := by
  intro other htext
  cases hfront : other.front with
  | nil => exact absurd hfront (hnone other htext)
  | cons d front =>
      rw [text_of_front_eq_cons hfront, text_withFront (c :: a.front), List.cons_append,
        List.cons.injEq] at htext
      exact Nat.succ_le_succ (h (other.withFront front) htext.2)

end RepositoryAddress

/-- Whether a text is an owner and a name in the short form. -/
structure IsShorthand (text owner name : List Char) : Prop where
  text_eq : text = owner ++ '/' :: name
  owner_ne : owner ≠ []
  owner_char : ∀ c ∈ owner, Coordinates.isShorthandChar c = true
  name_ne : name ≠ []
  name_char : ∀ c ∈ name, Coordinates.isShorthandChar c = true

theorem IsShorthand.char_of_mem {text owner name : List Char} (h : IsShorthand text owner name)
    {c : Char} (hc : c ∈ text) : c = '/' ∨ Coordinates.isShorthandChar c = true := by
  rw [h.text_eq, List.mem_append, List.mem_cons] at hc
  rcases hc with howner | rfl | hname
  · exact .inr (h.owner_char c howner)
  · exact .inl rfl
  · exact .inr (h.name_char c hname)

/-- Whether the first address in a text names an owner and a name. -/
def NamedByAddress (text owner name : List Char) : Prop :=
  ∃ a : RepositoryAddress, a.IsFirst ∧ a.text = text ∧ a.owner = owner ∧ a.name = name

/-- A name without one `.git` at its end. -/
def withoutGit (name : List Char) : List Char :=
  (beforeEnd? ".git".toList name).getD name

namespace Coordinates

/-- The coordinates of an owner, a name and a branch. The branch is `main` unless it is named. -/
def ofNames (owner name : List Char) (branch : Option String) : Coordinates where
  owner := String.ofList owner
  name := String.ofList (withoutGit name)
  branch := match branch with
    | some b => if b == "" then "main" else b
    | none => "main"

open RepositoryAddress (text_of_front_eq_cons)

theorem afterHost?_cons (sign : Char) (rest : List Char) :
    afterHost? (sign :: rest) =
      if sign == '/' || sign == ':' then
        match rest.drop (rest.takeWhile isOwnerChar).length with
        | '/' :: more =>
          if !(rest.takeWhile isOwnerChar).isEmpty && !(more.takeWhile isNameChar).isEmpty then
            some (rest.takeWhile isOwnerChar, more.takeWhile isNameChar)
          else none
        | _ => none
      else none := rfl

theorem afterHost?_tail (a : RepositoryAddress) : afterHost? a.tail = some (a.owner, a.name) := by
  have hsign : (a.sign == '/' || a.sign == ':') = true := by
    simpa using a.sign_mem
  have howner : (a.owner ++ '/' :: (a.name ++ a.behind)).takeWhile isOwnerChar = a.owner :=
    takeWhile_append_end a.owner_char (by simp [isOwnerChar])
  have hname : (a.name ++ a.behind).takeWhile isNameChar = a.name :=
    takeWhile_append_end a.name_char a.name_ends
  rw [RepositoryAddress.tail, afterHost?_cons, if_pos hsign, howner, List.drop_left]
  simp [hname, a.owner_ne, a.name_ne]

theorem exists_tail_of_afterHost? {s owner name : List Char}
    (h : afterHost? s = some (owner, name)) :
    ∃ a : RepositoryAddress, a.tail = s ∧ a.owner = owner ∧ a.name = name := by
  cases s with
  | nil => cases h
  | cons sign rest =>
      rw [afterHost?_cons, drop_length_takeWhile] at h
      split at h
      · next hsign =>
          split at h
          · next more hmore =>
              split at h
              · next hne =>
                  cases h
                  rw [Bool.and_eq_true, Bool.not_eq_true', Bool.not_eq_true',
                    List.isEmpty_eq_false_iff, List.isEmpty_eq_false_iff] at hne
                  have hends (c : Char) (hc : c ∈ (more.dropWhile isNameChar).head?) :
                      isNameChar c = false := by
                    have hhead := List.head?_dropWhile_not isNameChar more
                    rwa [hc] at hhead
                  refine ⟨⟨[], sign, rest.takeWhile isOwnerChar, more.takeWhile isNameChar,
                    more.dropWhile isNameChar, by simpa using hsign, hne.1,
                    fun c => List.mem_takeWhile_imp, hne.2, fun c => List.mem_takeWhile_imp,
                    hends⟩, ?_, rfl, rfl⟩
                  rw [RepositoryAddress.tail, List.takeWhile_append_dropWhile, ← hmore,
                    List.takeWhile_append_dropWhile]
              · cases h
          · cases h
      · cases h

/-- Right at the start of a text an address is found just if one stands there. -/
theorem afterStart?_bind_afterHost?_eq_some_iff {s owner name : List Char} :
    (afterStart? hostName s).bind afterHost? = some (owner, name) ↔
      ∃ a : RepositoryAddress, a.front = [] ∧ a.text = s ∧ a.owner = owner ∧ a.name = name := by
  rw [Option.bind_eq_some_iff]
  constructor
  · rintro ⟨tail, hstart, hfound⟩
    obtain ⟨a, rfl, rfl, rfl⟩ := exists_tail_of_afterHost? hfound
    refine ⟨a.withFront [], rfl, ?_, rfl, rfl⟩
    rw [afterStart?_eq_some_iff.mp hstart]
    rfl
  · rintro ⟨a, hfront, rfl, rfl, rfl⟩
    refine ⟨a.tail, ?_, afterHost?_tail a⟩
    rw [afterStart?_eq_some_iff, RepositoryAddress.text, hfront, List.nil_append]

theorem afterStart?_bind_afterHost?_eq_none_iff {s : List Char} :
    (afterStart? hostName s).bind afterHost? = none ↔
      ∀ a : RepositoryAddress, a.text = s → a.front ≠ [] := by
  rw [Option.eq_none_iff_forall_ne_some]
  constructor
  · intro hnone a htext hfront
    exact hnone (a.owner, a.name)
      (afterStart?_bind_afterHost?_eq_some_iff.mpr ⟨a, hfront, htext, rfl, rfl⟩)
  · rintro hnone ⟨owner, name⟩ hhere
    obtain ⟨a, hfront, htext, -, -⟩ := afterStart?_bind_afterHost?_eq_some_iff.mp hhere
    exact hnone a htext hfront

/-- What is found in a text is its first address. -/
theorem address?_eq_some_iff {s owner name : List Char} :
    address? s = some (owner, name) ↔ NamedByAddress s owner name := by
  induction s with
  | nil =>
      constructor
      · intro h
        cases h
      · rintro ⟨a, -, htext, -, -⟩
        exact absurd htext a.text_ne_nil
  | cons c rest ih =>
      have hcons : address? (c :: rest) =
          ((afterStart? hostName (c :: rest)).bind afterHost?).or (address? rest) := rfl
      rw [hcons, Option.or_eq_some_iff, afterStart?_bind_afterHost?_eq_some_iff,
        afterStart?_bind_afterHost?_eq_none_iff]
      constructor
      · rintro (⟨a, hfront, htext, howner, hname⟩ | ⟨hnone, hlater⟩)
        · exact ⟨a, RepositoryAddress.isFirst_of_front_nil hfront, htext, howner, hname⟩
        · obtain ⟨a, hfirst, rfl, rfl, rfl⟩ := ih.mp hlater
          exact ⟨a.withFront (c :: a.front), hfirst.cons c hnone, rfl, rfl, rfl⟩
      · rintro ⟨a, hfirst, htext, rfl, rfl⟩
        cases hfront : a.front with
        | nil => exact .inl ⟨a, hfront, htext, rfl, rfl⟩
        | cons d front =>
            refine .inr ⟨?_, ih.mpr ⟨a.withFront front, hfirst.of_cons hfront, ?_, rfl, rfl⟩⟩
            · intro other hother hnil
              have hle := hfirst other (hother.trans htext.symm)
              rw [hfront, hnil] at hle
              cases hle
            · rw [text_of_front_eq_cons hfront, List.cons.injEq] at htext
              exact htext.2

theorem shorthand?_eq_some_iff {s owner name : List Char} :
    shorthand? s = some (owner, name) ↔ IsShorthand s owner name := by
  have hslash : isShorthandChar '/' = false := by decide
  rw [shorthand?, drop_length_takeWhile]
  constructor
  · intro h
    split at h
    · next name' hrest =>
        split at h
        · next hname =>
            cases h
            rw [Bool.and_eq_true, Bool.and_eq_true, List.all_eq_true, Bool.not_eq_true',
              Bool.not_eq_true', List.isEmpty_eq_false_iff, List.isEmpty_eq_false_iff] at hname
            refine ⟨?_, hname.1.1, fun c => List.mem_takeWhile_imp, hname.1.2, hname.2⟩
            rw [← hrest, List.takeWhile_append_dropWhile]
        · cases h
    · cases h
  · rintro ⟨rfl, howner, hownerChar, hname, hnameChar⟩
    have hrun : (owner ++ '/' :: name).takeWhile isShorthandChar = owner :=
      takeWhile_append_end hownerChar (by simpa using hslash)
    have hrest : (owner ++ '/' :: name).dropWhile isShorthandChar = '/' :: name := by
      rw [← drop_length_takeWhile, hrun, List.drop_left]
    rw [hrun, hrest]
    simpa [howner, hname] using hnameChar

/-- An address has a slash or a colon more than the short form. -/
theorem not_isShorthand_text (a : RepositoryAddress) {owner name : List Char} :
    ¬ IsShorthand a.text owner name := by
  intro hshort
  have hsign := a.sign_mem
  simp only [List.mem_cons, List.not_mem_nil, or_false] at hsign
  rcases hsign with hslash | hcolon
  · have hnone : ∀ word : List Char, (∀ c ∈ word, isShorthandChar c = true) →
        word.count '/' = 0 := by
      intro word hword
      rw [List.count_eq_zero]
      intro hmem
      exact absurd (hword '/' hmem) (by decide)
    have hone : a.text.count '/' = 1 := by
      rw [hshort.text_eq, List.count_append, List.count_cons_self, hnone owner hshort.owner_char,
        hnone name hshort.name_char]
    rw [RepositoryAddress.text, RepositoryAddress.tail] at hone
    simp [hslash] at hone
    omega
  · have hmem : ':' ∈ a.text := by
      rw [RepositoryAddress.text, RepositoryAddress.tail, hcolon]
      simp
    exact absurd (hshort.char_of_mem hmem) (by decide)

/-- What is found in a location is an address or the short form. -/
theorem found_eq_some_iff {text owner name : List Char} :
    (address? text).or (shorthand? text) = some (owner, name) ↔
      NamedByAddress text owner name ∨ IsShorthand text owner name := by
  rw [Option.or_eq_some_iff, address?_eq_some_iff, shorthand?_eq_some_iff]
  refine or_congr_right (and_iff_right_of_imp fun hshort => ?_)
  rw [Option.eq_none_iff_forall_ne_some]
  rintro ⟨owner, name⟩ haddress
  obtain ⟨a, -, rfl, -, -⟩ := address?_eq_some_iff.mp haddress
  exact not_isShorthand_text a hshort

theorem ofLocation?_of_named {location : String} (branch : Option String) {owner name : List Char}
    (h : NamedByAddress (trim location).toList owner name ∨
      IsShorthand (trim location).toList owner name) :
    ofLocation? location branch =
      if withoutGit name = [] then none else some (ofNames owner name branch) := by
  rw [← found_eq_some_iff] at h
  simp only [ofLocation?, h]
  change (if (withoutGit name).isEmpty then none else some (ofNames owner name branch)) = _
  by_cases hname : withoutGit name = []
  · simp [hname]
  · rw [if_neg (by simpa using hname), if_neg hname]

/-- Just what locations have coordinates, and which. -/
theorem ofLocation?_eq_some_iff {location : String} {branch : Option String} {r : Coordinates} :
    ofLocation? location branch = some r ↔
      ∃ owner name, (NamedByAddress (trim location).toList owner name ∨
          IsShorthand (trim location).toList owner name) ∧
        withoutGit name ≠ [] ∧ r = ofNames owner name branch := by
  constructor
  · intro h
    cases hfound : (address? (trim location).toList).or (shorthand? (trim location).toList) with
    | none =>
        simp only [ofLocation?, hfound] at h
        cases h
    | some found =>
        obtain ⟨owner, name⟩ := found
        rw [found_eq_some_iff] at hfound
        rw [ofLocation?_of_named branch hfound] at h
        by_cases hname : withoutGit name = []
        · rw [if_pos hname] at h
          cases h
        · rw [if_neg hname, Option.some.injEq] at h
          exact ⟨owner, name, hfound, hname, h.symm⟩
  · rintro ⟨owner, name, hnamed, hname, rfl⟩
    rw [ofLocation?_of_named branch hnamed, if_neg hname]

theorem ofLocation_eq_ok_iff {location : String} {branch : Option String} {r : Coordinates} :
    ofLocation location branch = .ok r ↔ ofLocation? location branch = some r := by
  rw [ofLocation]
  cases ofLocation? location branch with
  | none => simp
  | some found => simp

theorem withoutGit_starts (name : List Char) : withoutGit name <+: name := by
  rw [withoutGit]
  cases hstem : beforeEnd? ".git".toList name with
  | none => exact List.prefix_refl name
  | some stem =>
      rw [beforeEnd?_eq_some_iff] at hstem
      exact ⟨_, hstem.symm⟩

theorem not_isBlank_of_isShorthandChar {c : Char} (h : isShorthandChar c = true) :
    Unicode.isBlank c = false := by
  simp only [isShorthandChar, Bool.or_eq_true, beq_iff_eq] at h
  rcases h with ((hletter | rfl) | rfl) | rfl
  · have hbounds := bounds_of_isAlphanum hletter
    simp [Unicode.isBlank]
    omega
  all_goals decide

theorem isNameChar_of_isShorthandChar {c : Char} (h : isShorthandChar c = true) :
    isNameChar c = true := by
  have hne (sign : Char) (hsign : isShorthandChar sign = false) : c ≠ sign := by
    rintro rfl
    rw [h] at hsign
    cases hsign
  simp [isNameChar, not_isBlank_of_isShorthandChar h, hne '/' (by decide), hne '#' (by decide),
    hne '?' (by decide)]

theorem isNameChar_of_named {text owner name : List Char}
    (h : NamedByAddress text owner name ∨ IsShorthand text owner name) :
    '/' ∉ owner ∧ ∀ c ∈ name, isNameChar c = true := by
  rcases h with ⟨a, -, -, rfl, rfl⟩ | hshort
  · refine ⟨fun hmem => ?_, a.name_char⟩
    simpa [isOwnerChar] using a.owner_char '/' hmem
  · refine ⟨fun hmem => absurd (hshort.owner_char '/' hmem) (by decide), fun c hmem => ?_⟩
    exact isNameChar_of_isShorthandChar (hshort.name_char c hmem)

/-- The name of a repository is not empty, and an address can hold it as it is. -/
theorem isNameChar_of_ofLocation? {location : String} {branch : Option String} {r : Coordinates}
    (h : ofLocation? location branch = some r) :
    r.name.toList ≠ [] ∧ ∀ c ∈ r.name.toList, isNameChar c = true := by
  obtain ⟨owner, name, hnamed, hne, rfl⟩ := ofLocation?_eq_some_iff.mp h
  have htext : (ofNames owner name branch).name.toList = withoutGit name := String.toList_ofList
  rw [htext]
  refine ⟨hne, fun c hmem => ?_⟩
  exact (isNameChar_of_named hnamed).2 c ((withoutGit_starts name).subset hmem)

/-- Neither the owner nor the name of a repository holds a slash. -/
theorem noSlash_of_ofLocation? {location : String} {branch : Option String} {r : Coordinates}
    (h : ofLocation? location branch = some r) : '/' ∉ r.owner.toList ∧ '/' ∉ r.name.toList := by
  constructor
  · obtain ⟨owner, name, hnamed, -, rfl⟩ := ofLocation?_eq_some_iff.mp h
    have htext : (ofNames owner name branch).owner.toList = owner := String.toList_ofList
    rw [htext]
    exact (isNameChar_of_named hnamed).1
  · intro hmem
    exact absurd ((isNameChar_of_ofLocation? h).2 '/' hmem) (by simp [isNameChar])

end Coordinates

end RepoAtlas
