import RepoAtlas.Text.Loose

/-!
Text as bytes in UTF-8: writing it, reading it, and saying where bytes are no
such text. A fault covers as many bytes as could have begun a character. A looser
reader lets halves of surrogate pairs pass.
-/
namespace RepoAtlas.Utf8

/-- The bytes of one character. -/
def encodeChar (c : Char) : List UInt8 :=
  let n := c.toNat
  let more (i : Nat) : UInt8 := UInt8.ofNat (128 + n / Nat.pow 64 i % 64)
  if n < 128 then [UInt8.ofNat n]
  else if n < 2048 then [UInt8.ofNat (192 + n / 64), more 0]
  else if n < 65536 then [UInt8.ofNat (224 + n / 4096), more 1, more 0]
  else [UInt8.ofNat (240 + n / 262144), more 2, more 1, more 0]

/-- The bytes of a text. -/
def encode (s : String) : List UInt8 :=
  s.toList.flatMap encodeChar

inductive FaultKind where
  | badStart
  | badContinuation
  | truncated
deriving Repr, DecidableEq, Inhabited

namespace FaultKind

def message : FaultKind → String
  | badStart => "invalid start byte"
  | badContinuation => "invalid continuation byte"
  | truncated => "unexpected end of data"

end FaultKind

/-- What some bytes start with: a character, or bytes that are none. -/
inductive Step where
  | char (c : Char) (length : Nat)
  | fault (kind : FaultKind) (length : Nat)
deriving Repr, DecidableEq, Inhabited

def isContinuation (b : UInt8) : Bool :=
  128 ≤ b && b < 192

/--
Bytes that may follow a first one: some first bytes allow fewer, so that no
character has two forms and none is a surrogate or lies beyond the last.
-/
def maySecond (first second : UInt8) : Bool :=
  isContinuation second &&
    !(first == 0xe0 && second < 0xa0) && !(first == 0xed && 0xa0 ≤ second) &&
    !(first == 0xf0 && second < 0x90) && !(first == 0xf4 && 0x90 ≤ second)

/-- How many bytes a character takes that starts with this one; zero if none does. -/
def lengthFrom (first : UInt8) : Nat :=
  if first < 0x80 then 1
  else if first < 0xc2 then 0
  else if first < 0xe0 then 2
  else if first < 0xf0 then 3
  else if first < 0xf5 then 4
  else 0

/-- The six bits that a continuation byte carries. -/
def payload (b : UInt8) : Nat :=
  b.toNat % 64

/-- What follows the first byte of a character. -/
def stepAfter (first : UInt8) (rest : List UInt8) : Step :=
  match lengthFrom first with
  | 0 => .fault .badStart 1
  | 1 => .char (Char.ofNat first.toNat) 1
  | length =>
    match rest with
    | [] => .fault .truncated 1
    | second :: rest =>
      if !maySecond first second then .fault .badContinuation 1
      else if length == 2 then .char (Char.ofNat (first.toNat % 32 * 64 + payload second)) 2
      else
        match rest with
        | [] => .fault .truncated 2
        | third :: rest =>
          if !isContinuation third then .fault .badContinuation 2
          else if length == 3 then
            .char (Char.ofNat ((first.toNat % 16 * 64 + payload second) * 64 + payload third)) 3
          else
            match rest with
            | [] => .fault .truncated 3
            | fourth :: _ =>
              if !isContinuation fourth then .fault .badContinuation 3
              else
                .char (Char.ofNat (((first.toNat % 8 * 64 + payload second) * 64 +
                  payload third) * 64 + payload fourth)) 4

/-- Where bytes are no text. -/
structure Fault where
  kind : FaultKind
  /-- The first byte that belongs to no character. -/
  byte : UInt8
  start : Nat
  length : Nat
deriving Repr, DecidableEq, Inhabited

/-- The wording of a fault. -/
def Fault.message (f : Fault) : String :=
  let place :=
    if f.length == 1 then
      s!"byte 0x{String.ofList (Text.hexText 2 f.byte.toNat)} in position {f.start}"
    else s!"bytes in position {f.start}-{f.start + f.length - 1}"
  "'utf-8' codec can't decode " ++ place ++ ": " ++ f.kind.message

/-- The text of some bytes after `skip` more; `offset` is the position of the first of them. -/
def decodeFrom (offset : Nat) : (skip : Nat) → List UInt8 → Except Fault (List Char)
  | _, [] => .ok []
  | skip + 1, _ :: rest => decodeFrom (offset + 1) skip rest
  | 0, b :: rest =>
    match stepAfter b rest with
    | .fault kind length => .error ⟨kind, b, offset, length⟩
    | .char c length =>
      match decodeFrom (offset + 1) (length - 1) rest with
      | .ok cs => .ok (c :: cs)
      | .error f => .error f

/-- The text that bytes stand for. -/
def decode (bytes : List UInt8) : Except Fault (List Char) :=
  decodeFrom 0 0 bytes

/-- As `decodeFrom`, with a mark in the place of each fault. -/
def decodeLossyFrom : (skip : Nat) → List UInt8 → List Char
  | _, [] => []
  | skip + 1, _ :: rest => decodeLossyFrom skip rest
  | 0, b :: rest =>
    match stepAfter b rest with
    | .fault _ length => Char.ofNat 65533 :: decodeLossyFrom (length - 1) rest
    | .char c length => c :: decodeLossyFrom (length - 1) rest

/-- The text that bytes stand for; what is no text shows as a mark. -/
def decodeLossy (bytes : List UInt8) : List Char :=
  decodeLossyFrom 0 bytes

/-- The half of a surrogate pair that some bytes start with. -/
def surrogateAfter? (first : UInt8) : List UInt8 → Option CodePoint
  | second :: third :: _ =>
    if first == 0xed && isContinuation second && 0xa0 ≤ second && isContinuation third then
      some (.ofNat ((first.toNat % 16 * 64 + payload second) * 64 + payload third))
    else none
  | _ => none

/-- As `decodeFrom`, where a half of a surrogate pair may stand like a character of three bytes. -/
def decodeLooseFrom? : (skip : Nat) → List UInt8 → Option LooseText
  | _, [] => some []
  | skip + 1, _ :: rest => decodeLooseFrom? skip rest
  | 0, b :: rest =>
    match stepAfter b rest with
    | .char c length => (decodeLooseFrom? (length - 1) rest).map (.char c :: ·)
    | .fault _ _ =>
      match surrogateAfter? b rest with
      | some point => (decodeLooseFrom? 2 rest).map (point :: ·)
      | none => none

/-- The text that bytes stand for, if halves of surrogate pairs may stand alone in it. -/
def decodeLoose? (bytes : List UInt8) : Option LooseText :=
  decodeLooseFrom? 0 bytes

end RepoAtlas.Utf8
