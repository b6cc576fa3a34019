import RepoAtlas.Number.Reading
import RepoAtlas.Text.Percent

/-!
Addresses of documents on the network. Reading one takes the steps `.` and `..`
out of its path and writes what may not stand in it with percent signs.
-/
namespace RepoAtlas

structure Address where
  scheme : String := ""
  userinfo : String := ""
  host : String := ""
  port : Option Int := none
  path : String := ""
  query : Option String := none
  fragment : Option String := none
deriving Repr, DecidableEq, Inhabited

/-- Why a text is no address. -/
inductive AddressFault where
  | tooLong
  | control (c : Char) (position : Nat)
  | badPort (text : String)
  | badHost (kind text : String)
  | pathWithoutSlash
  | twoSlashes
  | leadingColon
deriving Repr, DecidableEq, Inhabited

namespace AddressFault

def message : AddressFault → String
  | tooLong => "URL too long"
  | control c position =>
    "Invalid non-printable ASCII character in URL, " ++ Text.quoted c.toString ++
      s!" at position {position}."
  | badPort text => "Invalid port: " ++ Text.quoted text
  | badHost kind text => "Invalid " ++ kind ++ ": " ++ Text.quoted text
  | pathWithoutSlash => "For absolute URLs, path must be empty or begin with '/'"
  | twoSlashes => "Relative URLs cannot have a path starting with '//'"
  | leadingColon => "Relative URLs cannot have a path starting with ':'"

end AddressFault

namespace Address

/-- Most characters of an address. -/
def maxLength : Nat := 65536

/-- Whether a character may stand as it is where those in `special` may not. -/
def isPlain (special : List Char) (c : Char) : Bool :=
  33 ≤ c.toNat && c.toNat < 127 && !special.contains c

def isHexDigit (c : Char) : Bool :=
  c.isDigit || ('a' ≤ c && c ≤ 'f') || ('A' ≤ c && c ≤ 'F')

/-- Writes what is not plain with percent signs; what is written so already stays. -/
def escape (special : List Char) : List Char → List Char
  | [] => []
  | '%' :: a :: b :: rest =>
    if isHexDigit a && isHexDigit b then '%' :: a :: b :: escape special rest
    else escapeChar '%' ++ escape special (a :: b :: rest)
  | c :: rest => escapeChar c ++ escape special rest
where
  escapeChar (c : Char) : List Char :=
    if isPlain special c then [c] else (Utf8.encodeChar c).flatMap Percent.escapeByte

def querySpecial : List Char := "\"#<>".toList
def pathSpecial : List Char := "\"#<>?\u0060\x7b\x7d".toList
def fragmentSpecial : List Char := "\"<>\u0060".toList
def userinfoSpecial : List Char := pathSpecial ++ "/;=@[\\]^|".toList
def hostSpecial : List Char := "#<>?/:@[]^".toList

def escapeText (special : List Char) (s : String) : String :=
  String.ofList (escape special s.toList)

/-- One step along a path: up, nowhere, or down. -/
def stepPath (done : List String) (part : String) : List String :=
  if part == "." then done
  else if part == ".." then (if done.isEmpty || done == [""] then done else done.dropLast)
  else done ++ [part]

/-- A path without the steps `.` and `..`. -/
def normalPath (path : String) : String :=
  "/".intercalate ((Text.splitOnChar '/' path).foldl stepPath [])

/-- The port that a scheme has by itself. -/
def defaultPort? (scheme : String) : Option Int :=
  [("ftp", 21), ("http", 80), ("https", 443), ("ws", 80), ("wss", 443)].lookup scheme

def readPort (scheme : String) (port : String) : Except AddressFault (Option Int) :=
  if port == "" then .ok none
  else
    match NumberText.readWhole 10 port with
    | .error _ => .error (.badPort port)
    | .ok n => .ok (if defaultPort? scheme == some n then none else some n)

/-- Whether a host has the shape of four numbers. -/
def isNumeric (host : List Char) : Bool :=
  host.all (fun c => c.isDigit || c == '.') && host.count '.' == 3 &&
    !(Text.splitAt (· == '.') host).any List.isEmpty

/-- Whether four numbers are an address: none above 255, none with a zero in front. -/
def isNetworkNumber (host : List Char) : Bool :=
  (Text.splitAt (· == '.') host).all fun part =>
    part.length ≤ 3 && NumberText.decimalValue part ≤ 255 && (part.length == 1 || part.head? != some '0')

def readHost (host : List Char) : Except AddressFault String :=
  let text := String.ofList host
  match host with
  | '[' :: rest => .ok (String.ofList ((Text.beforeEnd? [']'] rest).getD rest))
  | _ =>
    if isNumeric host then
      if isNetworkNumber host then .ok text else .error (.badHost "IPv4 address" text)
    else if host.all fun c => c.toNat < 128 then .ok (escapeText hostSpecial text.toLower)
    else .error (.badHost "IDNA hostname" text)

/-- What stands before and after the first character of a class, and that character. -/
def cut (p : Char → Bool) (s : List Char) : List Char × List Char :=
  (s.takeWhile (!p ·), s.dropWhile (!p ·))

/-- The scheme at the start of an address, if there is one. -/
def scheme? (s : List Char) : Option (List Char × List Char) :=
  let name := s.takeWhile fun c => c.isAlphanum || c == '+' || c == '.' || c == '-'
  match s.drop name.length with
  | ':' :: rest =>
    if name.isEmpty || name.head?.any Char.isAlpha then some (name, rest) else none
  | _ => none

/-- User, host and port of an address. -/
def readAuthority (s : List Char) : String × List Char × String :=
  let afterUser := (s.reverse.takeWhile (· != '@')).reverse
  let user := s.take (s.length - afterUser.length - 1)
  let (host, rest) :=
    match afterUser with
    | '[' :: _ =>
      let tail := (afterUser.reverse.takeWhile (· != ']')).reverse
      if tail.length < afterUser.length then
        (afterUser.take (afterUser.length - tail.length), tail)
      else cut (fun c => c == ':' || c == '@') afterUser
    | _ => cut (fun c => c == ':' || c == '@') afterUser
  (String.ofList user, host, String.ofList (if rest.head? == some ':' then rest.drop 1 else rest))

/-- The part after a mark, if the mark comes next, and what follows it. -/
def partAfter (mark : Char) (ends : Char → Bool) (s : List Char) :
    Option (List Char) × List Char :=
  match s with
  | c :: rest => if c == mark then (some (rest.takeWhile (!ends ·)), rest.dropWhile (!ends ·))
    else (none, s)
  | [] => (none, [])

def checkPath (absolute hasAuthority : Bool) (path : List Char) : Except AddressFault Unit :=
  if hasAuthority && !path.isEmpty && path.head? != some '/' then .error .pathWithoutSlash
  else if absolute then .ok ()
  else if Text.beginsWith ['/', '/'] path then .error .twoSlashes
  else if path.head? == some ':' then .error .leadingColon
  else .ok ()

/-- The first character that no address may hold, and its position. -/
def control? (s : List Char) : Option (Char × Nat) :=
  (s.zipIdx.find? fun (c, _) => c.toNat < 32 || c.toNat == 127)

/-- The parts of an address as they are written. -/
structure Pieces where
  scheme : List Char
  authority : List Char
  path : List Char
  query : Option (List Char)
  fragment : Option (List Char)
deriving Repr, DecidableEq, Inhabited

/-- Whether a character ends a path. -/
def isPathEnd (c : Char) : Bool :=
  c == '?' || c == '#'

/-- Cuts an address into its parts. -/
def pieces (s : List Char) : Pieces :=
  let (scheme, rest) := (scheme? s).getD ([], s)
  let (authority, rest) := match rest with
    | '/' :: '/' :: more => cut (fun c => c == '/' || isPathEnd c) more
    | _ => ([], rest)
  let (path, rest) := cut isPathEnd rest
  let (query, rest) := partAfter '?' (· == '#') rest
  { scheme, authority, path, query, fragment := (partAfter '#' (fun _ => false) rest).1 }

/-- Where an address leads, whatever its path. -/
def readOrigin (scheme authority : List Char) : Except AddressFault Address := do
  let (user, host, port) := readAuthority authority
  let scheme := (String.ofList scheme).toLower
  let host ← readHost host
  let port ← readPort scheme port
  return { scheme, userinfo := escapeText userinfoSpecial user, host, port }

/-- The address that its parts make up. -/
def ofPieces (p : Pieces) : Except AddressFault Address := do
  let origin ← readOrigin p.scheme p.authority
  let hasAuthority := origin.userinfo != "" || origin.host != "" || origin.port.isSome
  let absolute := origin.scheme != "" || hasAuthority
  checkPath absolute hasAuthority p.path
  let path := String.ofList p.path
  return { origin with
    path := escapeText pathSpecial (if absolute then normalPath path else path)
    query := p.query.map fun q => escapeText querySpecial (String.ofList q)
    fragment := p.fragment.map fun f => escapeText fragmentSpecial (String.ofList f) }

/-- The address that a text writes. -/
def ofChars (s : List Char) : Except AddressFault Address := do
  if maxLength < s.length then throw .tooLong
  if let some (c, position) := control? s then throw (.control c position)
  ofPieces (pieces s)

def ofString (s : String) : Except AddressFault Address :=
  ofChars s.toList

/-- User, host and port as text. -/
def authority (a : Address) : String :=
  (if a.userinfo == "" then "" else a.userinfo ++ "@") ++
    (if a.host.toList.contains ':' then "[" ++ a.host ++ "]" else a.host) ++
    (match a.port with
      | some n => s!":{n}"
      | none => "")

def toString (a : Address) : String :=
  (if a.scheme == "" then "" else a.scheme ++ ":") ++
    (if a.authority == "" then "" else "//" ++ a.authority) ++ a.path ++
    ((a.query.map ("?" ++ ·)).getD "") ++ ((a.fragment.map ("#" ++ ·)).getD "")

instance : ToString Address := ⟨toString⟩

/-- Whether an address says by itself where it leads. -/
def isAbsolute (a : Address) : Bool :=
  a.scheme != "" && a.host != ""

/-- The path, which is a slash if there is none. -/
def fullPath (a : Address) : String :=
  if a.path == "" then "/" else a.path

/-- The address as a place on a host that is not known; nothing but path and query is left. -/
def withoutHost (a : Address) : Address :=
  { path := normalPath ("/" ++ Text.trimStart (· == '/') a.fullPath), query := a.query }

/-- A value of a query as text: spaces are written as plus signs. -/
def queryText (s : String) : String :=
  String.ofList ((Percent.quote [' '] s).toList.map fun c => if c == ' ' then '+' else c)

/-- The address with another query. -/
def withQuery (a : Address) (params : List (String × String)) : Address :=
  if params.isEmpty then { a with query := none }
  else { a with
    query := some ("&".intercalate (params.map fun (k, v) => queryText k ++ "=" ++ queryText v)) }

/-- The port that an address leads to. -/
def effectivePort? (a : Address) : Option Int :=
  a.port.or ([("http", 80), ("https", 443)].lookup a.scheme)

/-- Whether two addresses lead to the same port of the same host, by the same scheme. -/
def sameOrigin (a b : Address) : Bool :=
  a.scheme == b.scheme && a.host == b.host && a.effectivePort? == b.effectivePort?

/-- Whether `b` is the secure form of `a`. -/
def isUpgrade (a b : Address) : Bool :=
  a.host == b.host && a.scheme == "http" && a.effectivePort? == some 80 && b.scheme == "https" &&
    b.effectivePort? == some 443

/-- The names along a path, with steps upwards taken. -/
def resolveParts (parts : List String) : List String :=
  let done := parts.foldl (fun done part =>
    if part == ".." then done.dropLast else if part == "." then done else done ++ [part]) []
  match parts.getLast? with
  | some "." | some ".." => done ++ [""]
  | _ => done

/-- The path that a path means when it is found at another one. -/
def joinPath (base path : String) : String :=
  let parts := Text.splitOnChar '/' path
  let joined :=
    if Text.isStartOf "/" path then parts
    else
      let baseParts := Text.splitOnChar '/' base
      let kept := if baseParts.getLast? == some "" then baseParts else baseParts.dropLast
      let all := kept ++ parts
      all.take 1 ++ ((all.drop 1).dropLast.filter (· != "")) ++ (all.drop 1).getLast?.toList
  let text := "/".intercalate (resolveParts joined)
  if text == "" then "/" else text

/-- The address that `b` means when it is found at `a`. -/
def join (a b : Address) : Address :=
  if b.scheme != "" && b.scheme != a.scheme then b
  else if b.authority != "" then
    { b with scheme := a.scheme, port := b.port.filter fun n => defaultPort? a.scheme != some n }
  else if b.path == "" then
    { a with query := b.query.or a.query, fragment := b.fragment }
  else { a with path := joinPath a.path b.path, query := b.query, fragment := b.fragment }

end Address

end RepoAtlas
