import RepoAtlas.Proofs.Http.Steps

/-!
Addresses that continue another one: they lead to the same port of the same
host, along a path that goes on where the other one ends. Whether they stay below
a folder there depends on the steps of the path.
-/
namespace RepoAtlas.Address

/-- Whether a character may stand in a scheme. -/
def isSchemeChar (c : Char) : Bool :=
  c.isAlphanum || c == '+' || c == '.' || c == '-'

theorem scheme?_eq (s : List Char) :
    scheme? s = match s.dropWhile isSchemeChar with
      | ':' :: rest =>
        if (s.takeWhile isSchemeChar).isEmpty || (s.takeWhile isSchemeChar).head?.any Char.isAlpha
        then some (s.takeWhile isSchemeChar, rest) else none
      | _ => none := by
  rw [← Text.drop_length_takeWhile]
  rfl

/-- The scheme ends before what is added to an address. -/
theorem scheme?_append {s name rest : List Char} (h : scheme? s = some (name, rest))
    (t : List Char) : scheme? (s ++ t) = some (name, rest ++ t) := by
  rw [scheme?_eq] at h ⊢
  split at h
  · next more hdrop =>
      have hcolon : isSchemeChar ':' = false := by decide
      have hs : s = s.takeWhile isSchemeChar ++ ':' :: more := by
        rw [← hdrop, List.takeWhile_append_dropWhile]
      have hstart : (s ++ t).takeWhile isSchemeChar = s.takeWhile isSchemeChar := by
        conv => lhs; rw [hs]
        rw [List.append_assoc, List.cons_append, Text.takeWhile_append_stop hcolon,
          List.takeWhile_idem]
      have hend : (s ++ t).dropWhile isSchemeChar = ':' :: (more ++ t) := by
        conv => lhs; rw [hs]
        rw [List.append_assoc, List.cons_append,
          List.dropWhile_append_of_pos fun _ => List.mem_takeWhile_imp,
          List.dropWhile_cons_of_neg (by simp [hcolon])]
      rw [hstart, hend]
      simp only
      split at h
      · next hname =>
          rw [if_pos hname]
          obtain ⟨rfl, rfl⟩ := Prod.mk.inj (Option.some.inj h)
          rfl
      · cases h
  · cases h

/-- The names along the path of an address. -/
def names (a : Address) : List String :=
  Text.splitOnChar '/' a.path

/-- A text up to where a path in it ends. -/
def pathPart (s : List Char) : List Char :=
  s.takeWhile (!isPathEnd ·)

/-- Where there is neither a query nor a fragment, nothing follows the path. -/
theorem eq_nil_of_parts {rest : List Char} {isMark isLast : Char → Bool}
    (hend : ∀ c more, rest = c :: more → isPathEnd c = true)
    (hquery : (partAfter '?' isMark rest).1 = none)
    (hfragment : (partAfter '#' isLast (partAfter '?' isMark rest).2).1 = none) : rest = [] := by
  cases rest with
  | nil => rfl
  | cons c more =>
      have hc := hend c more rfl
      rw [isPathEnd, Bool.or_eq_true, beq_iff_eq, beq_iff_eq] at hc
      rcases hc with rfl | rfl
      · simp [partAfter] at hquery
      · simp [partAfter] at hfragment

/-- The parts of an address that continues one without a query and a fragment. -/
theorem pieces_append {s name more : List Char}
    (hscheme : scheme? s = some (name, '/' :: '/' :: more)) (hquery : (pieces s).query = none)
    (hfragment : (pieces s).fragment = none) (t : List Char) :
    (pieces (s ++ '/' :: t)).scheme = (pieces s).scheme ∧
      (pieces (s ++ '/' :: t)).authority = (pieces s).authority ∧
      (pieces (s ++ '/' :: t)).path = (pieces s).path ++ '/' :: pathPart t := by
  unfold pieces at *
  simp only [hscheme, scheme?_append hscheme, Option.getD_some, List.cons_append, cut] at *
  have hslash : (!('/' == '/' || isPathEnd '/')) = false := by decide
  have hpath : ('/' :: t).takeWhile (!isPathEnd ·) = '/' :: pathPart t :=
    List.takeWhile_cons_of_pos (by decide)
  have hall := List.dropWhile_eq_nil_iff.mp (eq_nil_of_parts (fun c rest hdrop => by
    simpa using Text.not_of_dropWhile_eq_cons hdrop) hquery hfragment)
  have hhost := Text.takeWhile_append_stop (q := fun c => !(c == '/' || isPathEnd c)) hslash more t
  have hrest := Text.dropWhile_append_stop (q := fun c => !(c == '/' || isPathEnd c)) hslash more t
  refine ⟨trivial, hhost, ?_⟩
  rw [hrest, List.takeWhile_append_of_pos hall, hpath, List.takeWhile_eq_self_iff.mpr hall]

/-- What two steps yield, the second yields on what the first one yields. -/
theorem exists_of_bind_eq_ok {ε α β : Type} {first : Except ε α} {next : α → Except ε β} {b : β}
    (h : first >>= next = .ok b) : ∃ a, first = .ok a ∧ next a = .ok b := by
  cases first with
  | error e => cases h
  | ok a => exact ⟨a, rfl, h⟩

theorem ofPieces_of_ofString {s : String} {a : Address} (h : ofString s = .ok a) :
    ofPieces (pieces s.toList) = .ok a := by
  rw [ofString, ofChars] at h
  split at h
  · cases h
  · cases hcontrol : control? s.toList with
    | some found =>
        rw [hcontrol] at h
        cases h
    | none =>
        rw [hcontrol] at h
        exact h

/-- Without a scheme and a host in the text there is none in the address. -/
theorem readOrigin_ne_nil {scheme authority : List Char} {origin : Address}
    (h : readOrigin scheme authority = .ok origin) :
    (origin.scheme ≠ "" → scheme ≠ []) ∧ (origin.host ≠ "" → authority ≠ []) := by
  obtain ⟨host, hhost, hrest⟩ := exists_of_bind_eq_ok h
  obtain ⟨port, -, hdone⟩ := exists_of_bind_eq_ok hrest
  cases hdone
  constructor
  · rintro hscheme rfl
    have hnone : (String.ofList []).toLower = "" := by decide +kernel
    exact hscheme hnone
  · rintro hname rfl
    have hnone : readHost [] = .ok "" := by decide +kernel
    have hempty : readHost [] = .ok host := hhost
    rw [hnone] at hempty
    cases hempty
    exact hname rfl

/-- The path of an address with a host is empty or starts with a slash. -/
theorem path_of_checkPath {path : List Char} {u : Unit} (h : checkPath true true path = .ok u) :
    path = [] ∨ ∃ rest, path = '/' :: rest := by
  cases path with
  | nil => exact .inl rfl
  | cons c rest =>
      by_cases hc : c = '/'
      · exact .inr ⟨rest, hc ▸ rfl⟩
      · simp [checkPath, hc] at h

/-- Whether two addresses lead to the same port of the same host, for the same user. -/
def SameServer (a b : Address) : Prop :=
  a.scheme = b.scheme ∧ a.userinfo = b.userinfo ∧ a.host = b.host ∧ a.port = b.port

instance (a b : Address) : Decidable (SameServer a b) :=
  inferInstanceAs (Decidable (_ ∧ _))

theorem SameServer.isAbsolute {a b : Address} (h : SameServer a b) (hb : b.isAbsolute) :
    a.isAbsolute := by
  rwa [Address.isAbsolute, h.1, h.2.2.1]

theorem readOrigin_of_ofPieces {p : Pieces} {a : Address} (h : ofPieces p = .ok a) :
    ∃ origin, readOrigin p.scheme p.authority = .ok origin ∧ SameServer a origin := by
  obtain ⟨origin, horigin, hrest⟩ := exists_of_bind_eq_ok h
  obtain ⟨checked, -, hdone⟩ := exists_of_bind_eq_ok hrest
  cases hdone
  exact ⟨origin, horigin, rfl, rfl, rfl, rfl⟩

/-- How the parts of an address with a scheme and a host make it up. -/
theorem eq_of_ofPieces {p : Pieces} {a origin : Address} (h : ofPieces p = .ok a)
    (horigin : readOrigin p.scheme p.authority = .ok origin) (habsolute : origin.isAbsolute) :
    (p.path = [] ∨ ∃ rest, p.path = '/' :: rest) ∧ a = { origin with
      path := escapeText pathSpecial (normalPath (String.ofList p.path))
      query := p.query.map fun q => escapeText querySpecial (String.ofList q)
      fragment := p.fragment.map fun f => escapeText fragmentSpecial (String.ofList f) } := by
  obtain ⟨found, hfound, hrest⟩ := exists_of_bind_eq_ok h
  rw [horigin] at hfound
  cases hfound
  obtain ⟨checked, hcheck, hdone⟩ := exists_of_bind_eq_ok hrest
  cases hdone
  obtain ⟨hscheme, hhost⟩ : (origin.scheme != "") = true ∧ (origin.host != "") = true := by
    rwa [isAbsolute, Bool.and_eq_true] at habsolute
  rw [hscheme, hhost, Bool.or_true, Bool.true_or, Bool.true_or] at hcheck
  refine ⟨path_of_checkPath hcheck, ?_⟩
  rw [hscheme, Bool.true_or, if_pos rfl]

/-- The names that lead from the root to where the steps of a path lead. -/
theorem names_normalPath {path first : String} {rest : List String}
    (h : (Text.splitOnChar '/' path).foldl stepPath [] = first :: rest) :
    Text.splitOnChar '/' (escapeText pathSpecial (normalPath path)) =
      (first :: rest).map (escapeText pathSpecial) := by
  rw [normalPath, h, escapeText_intercalate]
  apply Text.splitOnChar_intercalate
  · simp
  · intro part hpart
    obtain ⟨name, hname, rfl⟩ := List.mem_map.mp hpart
    apply not_slash_mem_escapeText
    rw [← h] at hname
    rcases mem_foldl_stepPath hname with hnil | ⟨hmem, -⟩
    · cases hnil
    · exact Text.not_mem_of_mem_splitOnChar hmem

/-- A path that is empty or starts with a slash leads somewhere from the root. -/
theorem exists_top {path : List Char} (hpath : path = [] ∨ ∃ rest, path = '/' :: rest) :
    ∃ top, "." ∉ top ∧ ".." ∉ top ∧
      (Text.splitOnChar '/' (String.ofList path)).foldl stepPath [] = "" :: top := by
  obtain ⟨top, htop⟩ : ∃ top,
      (Text.splitOnChar '/' (String.ofList path)).foldl stepPath [] = "" :: top := by
    rcases hpath with rfl | ⟨rest, rfl⟩
    · exact ⟨[], by decide⟩
    · have hlist : String.ofList ('/' :: rest) = "" ++ "/" ++ String.ofList rest :=
        Text.ofList_append_slash [] rest
      have hfirst : (Text.splitOnChar '/' "").foldl stepPath [] = [""] := by decide
      rw [hlist, Text.splitOnChar_append, List.foldl_append, hfirst, foldl_stepPath]
      exact ⟨_, rfl⟩
  have hplain : ∀ name ∈ top, name ≠ "." ∧ name ≠ ".." := by
    intro name hname
    rcases mem_foldl_stepPath (htop ▸ List.mem_cons_of_mem "" hname) with hnil | ⟨-, hstep⟩
    · cases hnil
    · exact hstep
  exact ⟨top, fun hmem => (hplain _ hmem).1 rfl, fun hmem => (hplain _ hmem).2 rfl, htop⟩

/-- A text that is an address to which paths can be added. -/
structure IsBase (text : String) (base : Address) : Prop where
  reads : ofString text = .ok base
  absolute : base.isAbsolute = true
  query : base.query = none
  fragment : base.fragment = none

theorem exists_of_pieces {s : List Char} (hscheme : (pieces s).scheme ≠ [])
    (hauthority : (pieces s).authority ≠ []) :
    ∃ name more, scheme? s = some (name, '/' :: '/' :: more) := by
  cases hs : scheme? s with
  | none => simp [pieces, hs] at hscheme
  | some found =>
      obtain ⟨name, rest⟩ := found
      simp only [pieces, hs, Option.getD_some] at hauthority
      split at hauthority
      · exact ⟨name, _, rfl⟩
      · exact absurd rfl hauthority

/-- The text of a base names a scheme and a host, and its path goes on to its end. -/
theorem IsBase.exists_origin {text : String} {base : Address} (h : IsBase text base) :
    ∃ origin name more,
      readOrigin (pieces text.toList).scheme (pieces text.toList).authority = .ok origin ∧
      origin.isAbsolute ∧ scheme? text.toList = some (name, '/' :: '/' :: more) ∧
      (pieces text.toList).query = none ∧ (pieces text.toList).fragment = none := by
  have hread := ofPieces_of_ofString h.reads
  obtain ⟨origin, horigin, hserver⟩ := readOrigin_of_ofPieces hread
  obtain ⟨hscheme, hhost⟩ : origin.scheme ≠ "" ∧ origin.host ≠ "" := by
    simpa [isAbsolute, hserver.1, hserver.2.2.1] using h.absolute
  have habsolute : origin.isAbsolute := by simp [isAbsolute, hscheme, hhost]
  obtain ⟨hschemePart, hauthorityPart⟩ := readOrigin_ne_nil horigin
  obtain ⟨name, more, hfound⟩ := exists_of_pieces (hschemePart hscheme) (hauthorityPart hhost)
  obtain ⟨-, hbase⟩ := eq_of_ofPieces hread horigin habsolute
  have hquery := h.query
  have hfragment := h.fragment
  rw [hbase, Option.map_eq_none_iff] at hquery hfragment
  exact ⟨origin, name, more, horigin, habsolute, hfound, hquery, hfragment⟩

/--
What continues a base leads to the same server, and from the folder of the base
on along the names that are added to it.
-/
theorem IsBase.exists_names {text : String} {base : Address} (h : IsBase text base) :
    ∃ top, "." ∉ top ∧ ".." ∉ top ∧ base.names = ("" :: top).map (escapeText pathSpecial) ∧
      ∀ tail a, ofString (text ++ "/" ++ tail) = .ok a → SameServer a base ∧
        a.names = ((Text.splitOnChar '/' (String.ofList (pathPart tail.toList))).foldl stepPath
          ("" :: top)).map (escapeText pathSpecial) := by
  obtain ⟨origin, name, more, horigin, habsolute, hfound, hquery, hfragment⟩ := h.exists_origin
  obtain ⟨hpath, hbase⟩ := eq_of_ofPieces (ofPieces_of_ofString h.reads) horigin habsolute
  obtain ⟨top, hdot, hup, htop⟩ := exists_top hpath
  refine ⟨top, hdot, hup, ?_, ?_⟩
  · rw [hbase]
    exact names_normalPath htop
  · intro tail a ha
    obtain ⟨hscheme, hauthority, hlonger⟩ := pieces_append hfound hquery hfragment tail.toList
    have hread := ofPieces_of_ofString ha
    rw [Text.toList_append_slash] at hread
    rw [← hscheme, ← hauthority] at horigin
    obtain ⟨-, heq⟩ := eq_of_ofPieces hread horigin habsolute
    have hsteps : (Text.splitOnChar '/' (String.ofList
        (pieces (text.toList ++ '/' :: tail.toList)).path)).foldl stepPath [] =
        (Text.splitOnChar '/' (String.ofList (pathPart tail.toList))).foldl stepPath
          ("" :: top) := by
      rw [hlonger, Text.ofList_append_slash, Text.splitOnChar_append, List.foldl_append, htop]
    rw [foldl_stepPath] at hsteps ⊢
    constructor
    · rw [hbase, heq]
      exact ⟨rfl, rfl, rfl, rfl⟩
    · rw [heq]
      exact names_normalPath hsteps

/-- Whether an address leads below a folder that is found at a base. -/
def IsUnder (a base : Address) (folder : List String) : Prop :=
  SameServer a base ∧ Below (base.names ++ folder.map (escapeText pathSpecial)) a.names

instance (a base : Address) (folder : List String) : Decidable (IsUnder a base folder) :=
  inferInstanceAs (Decidable (_ ∧ _))

/-- Whether a name stands in an address as one name of its path. -/
def IsKept (name : String) : Prop :=
  name ≠ "." ∧ name ≠ ".." ∧ ∀ c ∈ name.toList, isPathEnd c = false

/-- Whether a path that starts in a folder at a base ends below the folder. -/
def StaysIn (base : Address) (folder : List String) (path : String) : Prop :=
  (∀ name ∈ folder, IsKept name) ∧
    Returns (base.names.tail ++ folder.map (escapeText pathSpecial))
      ((walk (Text.splitOnChar '/' path)).1,
        (walk (Text.splitOnChar '/' path)).2.map (Percent.quote []))

/-- A path without steps stays in every folder whose names are kept. -/
theorem staysIn_of_plain {base : Address} {folder : List String} {path : String}
    (hfolder : ∀ name ∈ folder, IsKept name)
    (hpath : ∀ part ∈ Text.splitOnChar '/' path, part ≠ "." ∧ part ≠ "..") :
    base.StaysIn folder path := by
  have hwalk : walk (Text.splitOnChar '/' path) = (0, Text.splitOnChar '/' path) :=
    walk_of_plain hpath
  refine ⟨hfolder, ?_⟩
  rw [hwalk, Returns, Nat.sub_zero, List.drop_length]
  refine ⟨List.nil_prefix, ?_⟩
  rw [ne_comm, ne_eq, List.map_eq_nil_iff]
  exact Text.splitOnChar_ne_nil '/' path

theorem pathPart_append {s : List Char} (h : ∃ c ∈ s, isPathEnd c = true) (t : List Char) :
    pathPart (s ++ t) = pathPart s := by
  obtain ⟨c, hmem, hc⟩ := h
  obtain ⟨front, rest, rfl⟩ := List.append_of_mem hmem
  have hstop : (!isPathEnd c) = false := by rw [hc, Bool.not_true]
  have hfirst := Text.takeWhile_append_stop (q := fun c => !isPathEnd c) hstop front
  rw [pathPart, pathPart, List.append_assoc, List.cons_append, hfirst, hfirst]

theorem pathPart_eq_self {s : List Char} (h : ∀ c ∈ s, isPathEnd c = false) : pathPart s = s :=
  List.takeWhile_eq_self_iff.mpr fun c hc => by rw [h c hc, Bool.not_false]

theorem length_splitOnChar_pathPart_le (s : String) :
    (Text.splitOnChar '/' (String.ofList (pathPart s.toList))).length ≤
      (Text.splitOnChar '/' s).length := by
  rw [Text.length_splitOnChar, Text.length_splitOnChar, String.toList_ofList]
  have hcount := (List.takeWhile_sublist (fun c => !isPathEnd c) (l := s.toList)).count_le '/'
  exact Nat.succ_le_succ hcount

theorem not_isPathEnd_of_mem_quotePath {path : String} :
    ∀ c ∈ (Percent.quotePath path).toList, isPathEnd c = false := by
  intro c hc
  rcases Percent.mem_quote hc with (hkept | hslash) | rfl
  · cases hend : isPathEnd c with
    | false => rfl
    | true =>
        rw [isPathEnd, Bool.or_eq_true, beq_iff_eq, beq_iff_eq] at hend
        rcases hend with rfl | rfl
        · exact absurd hkept (by decide)
        · exact absurd hkept (by decide)
  · rw [List.mem_singleton] at hslash
    exact hslash ▸ rfl
  · rfl

section Continuing

variable {text front path : String} {base a : Address}

/-- Where a folder's names hold the end of a path, the path is not longer than they are. -/
theorem IsBase.not_isUnder (hbase : IsBase text base)
    (hend : ∃ c ∈ front.toList, isPathEnd c = true)
    (ha : ofString (text ++ "/" ++ (front ++ "/" ++ Percent.quotePath path)) = .ok a) :
    ¬IsUnder a base (Text.splitOnChar '/' front) := by
  obtain ⟨top, -, -, hnames, hcontinues⟩ := hbase.exists_names
  obtain ⟨-, hway⟩ := hcontinues _ a ha
  rintro ⟨-, hbelow⟩
  rw [Text.toList_append_slash, pathPart_append hend] at hway
  have hshort := length_foldl_stepPath_le ("" :: top)
    (Text.splitOnChar '/' (String.ofList (pathPart front.toList)))
  have hparts := length_splitOnChar_pathPart_le front
  have hlong := hbelow.length_lt
  rw [hnames, hway] at hlong
  simp only [List.length_append, List.length_map, List.length_cons] at hlong hshort
  omega

theorem not_staysIn (hend : ∃ c ∈ front.toList, isPathEnd c = true) :
    ¬StaysIn base (Text.splitOnChar '/' front) path := by
  rintro ⟨hkept, -⟩
  obtain ⟨c, hc, hstop⟩ := hend
  have hne : c ≠ '/' := by
    rintro rfl
    exact absurd hstop (by decide)
  obtain ⟨name, hname, hmem⟩ := Text.exists_mem_splitOnChar_iff.mpr ⟨hc, hne⟩
  rw [(hkept name hname).2.2 c hmem] at hstop
  cases hstop

theorem forall_isKept_iff (hfront : ∀ c ∈ front.toList, isPathEnd c = false) :
    (∀ name ∈ Text.splitOnChar '/' front, IsKept name) ↔
      ∀ name ∈ Text.splitOnChar '/' front, name ≠ "." ∧ name ≠ ".." := by
  refine forall₂_congr fun name hname => ?_
  have hnone : ∀ c ∈ name.toList, isPathEnd c = false := fun c hc =>
    hfront c (Text.exists_mem_splitOnChar_iff.mp ⟨name, hname, hc⟩).1
  rw [IsKept, and_iff_left hnone]

/--
An address that is made of a base, the names of a folder and a path leads below
the folder if and only if the names are kept and the path stays in the folder.
-/
theorem IsBase.isUnder_iff (hbase : IsBase text base)
    (ha : ofString (text ++ "/" ++ (front ++ "/" ++ Percent.quotePath path)) = .ok a) :
    IsUnder a base (Text.splitOnChar '/' front) ↔
      StaysIn base (Text.splitOnChar '/' front) path := by
  by_cases hend : ∃ c ∈ front.toList, isPathEnd c = true
  · exact iff_of_false (hbase.not_isUnder hend ha) (not_staysIn hend)
  · obtain ⟨top, hdot, hup, hnames, hcontinues⟩ := hbase.exists_names
    obtain ⟨hserver, hway⟩ := hcontinues _ a ha
    have hfront : ∀ c ∈ front.toList, isPathEnd c = false := by simpa using hend
    have hall : ∀ c ∈ (front ++ "/" ++ Percent.quotePath path).toList, isPathEnd c = false := by
      rw [Text.toList_append_slash, List.forall_mem_append, List.forall_mem_cons]
      exact ⟨hfront, rfl, not_isPathEnd_of_mem_quotePath⟩
    rw [pathPart_eq_self hall, String.ofList_toList, Text.splitOnChar_append,
      Percent.splitOnChar_quotePath] at hway
    have hfolder : base.names ++ (Text.splitOnChar '/' front).map (escapeText pathSpecial) =
        ("" :: (top ++ Text.splitOnChar '/' front)).map (escapeText pathSpecial) := by
      rw [hnames, ← List.map_append, List.cons_append]
    have htail : base.names.tail ++ (Text.splitOnChar '/' front).map (escapeText pathSpecial) =
        (top ++ Text.splitOnChar '/' front).map (escapeText pathSpecial) := by
      rw [hnames, List.map_cons, List.tail_cons, ← List.map_append]
    -- The names of the path are already written with percent signs, and stay as they are.
    have hescape : escapeText pathSpecial ∘ Percent.quote [] = Percent.quote [] :=
      funext escapeText_quote
    rw [IsUnder, and_iff_right hserver, StaysIn, hfolder, hway, below_foldl_iff hdot hup,
      walk_map_quote, List.map_map, hescape, htail, forall_isKept_iff hfront]

end Continuing

end RepoAtlas.Address
