/-!
Reading bytes written in base 64. Characters of no meaning are passed over, and
nothing counts after a padding that completes a group of four.
-/
namespace RepoAtlas.Base64

/-- Why a text stands for no bytes. -/
inductive Fault where
  | notAscii
  /-- One character more than whole groups and their bytes account for. -/
  | loneCharacter (count : Nat)
  | padding
deriving Repr, DecidableEq, Inhabited

def Fault.message : Fault → String
  | notAscii => "string argument should contain only ASCII characters"
  | loneCharacter count =>
    s!"Invalid base64-encoded string: number of data characters ({count}) cannot be 1 more " ++
      "than a multiple of 4"
  | padding => "Incorrect padding"

/-- The six bits that a character stands for. -/
def bits? (c : Char) : Option Nat :=
  if 'A' ≤ c && c ≤ 'Z' then some (c.toNat - 65)
  else if 'a' ≤ c && c ≤ 'z' then some (c.toNat - 71)
  else if '0' ≤ c && c ≤ '9' then some (c.toNat + 4)
  else if c == '+' then some 62
  else if c == '/' then some 63
  else none

/-- How far a group of four has been read. -/
structure Group where
  position : Nat := 0
  /-- Bits of the last character that belong to the next byte. -/
  left : Nat := 0
  pads : Nat := 0

/-- Takes in one character of data. Gives the byte that it completes. -/
def Group.push (g : Group) (bits : Nat) : Group × List UInt8 :=
  match g.position with
  | 0 => (⟨1, bits, 0⟩, [])
  | 1 => (⟨2, bits % 16, 0⟩, [UInt8.ofNat (g.left * 4 + bits / 16)])
  | 2 => (⟨3, bits % 4, 0⟩, [UInt8.ofNat (g.left * 16 + bits / 4)])
  | _ => (⟨0, 0, 0⟩, [UInt8.ofNat (g.left * 64 + bits)])

/-- The bytes of the rest of a text of which `count` bytes have been read. -/
def decodeFrom (g : Group) (count : Nat) : List Char → Except Fault (List UInt8)
  | [] =>
    match g.position with
    | 0 => .ok []
    | 1 => .error (.loneCharacter (count / 3 * 4 + 1))
    | _ => .error .padding
  | c :: rest =>
    if c == '=' then
      if 2 ≤ g.position then
        if 4 ≤ g.position + (g.pads + 1) then .ok []
        else decodeFrom { g with pads := g.pads + 1 } count rest
      else decodeFrom g count rest
    else
      match bits? c with
      | none => decodeFrom g count rest
      | some bits =>
        let (next, bytes) := g.push bits
        (decodeFrom next (count + bytes.length) rest).map fun more => bytes ++ more

/-- The bytes that a text stands for. -/
def decode (s : String) : Except Fault (List UInt8) :=
  if s.toList.any fun c => 127 < c.toNat then .error .notAscii else decodeFrom {} 0 s.toList

end RepoAtlas.Base64
