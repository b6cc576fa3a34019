/-!
Numbers of 64-bit binary floating point, held exactly, and the operations on
them that round once, to the nearest number, ties to an even significand.
-/
namespace RepoAtlas

/--
A floating-point number. A finite one is `significand * 2 ^ exponent`, with a
sign of its own so that zero has two.
-/
inductive Binary64 where
  | nan
  | infinite (negative : Bool)
  | finite (negative : Bool) (significand : Nat) (exponent : Int)
deriving Repr, DecidableEq, Inhabited

namespace Binary64

/-- The least exponent: that of the numbers next to zero. -/
def minExponent : Int := -1074

/-- The greatest exponent of a finite number. -/
def maxExponent : Int := 971

/-- The quotient rounded to the nearest integer, a half to the even one. -/
def roundDiv (num den : Nat) : Nat :=
  let q := num / den
  let r := num % den
  if den < 2 * r || (2 * r == den && q % 2 == 1) then q + 1 else q

/-- The quotient of two naturals, scaled down by a power of two and rounded. -/
def scaledDiv (num den : Nat) (exponent : Int) : Nat :=
  if exponent < 0 then roundDiv (num * Nat.pow 2 (-exponent).toNat) den
  else roundDiv num (den * Nat.pow 2 exponent.toNat)

/-- A significand at an exponent, brought back into range after a carry. -/
def normalized (negative : Bool) (significand : Nat) (exponent : Int) : Binary64 :=
  let carried := significand == Nat.pow 2 53
  let e := if carried then exponent + 1 else exponent
  if maxExponent < e then infinite negative
  else finite negative (if carried then Nat.pow 2 52 else significand) e

/-- The number nearest to `num / den`. -/
def ofRatio (negative : Bool) (num den : Nat) : Binary64 :=
  if num == 0 then finite negative 0 minExponent
  else
    let gap : Int := (num.log2 : Int) - den.log2
    let low := max minExponent (gap - 53)
    let tooLow :=
      if low < 0 then Nat.pow 2 53 * den ≤ num * Nat.pow 2 (-low).toNat
      else Nat.pow 2 53 * (den * Nat.pow 2 low.toNat) ≤ num
    let e := if tooLow then low + 1 else low
    normalized negative (scaledDiv num den e) e

/-- The number nearest to `num * 2 ^ exponent`. -/
def ofScaled (negative : Bool) (num : Nat) (exponent : Int) : Binary64 :=
  if exponent < 0 then ofRatio negative num (Nat.pow 2 (-exponent).toNat)
  else ofRatio negative (num * Nat.pow 2 exponent.toNat) 1

/-- The number nearest to an integer. -/
def ofInt (i : Int) : Binary64 :=
  ofRatio (i < 0) i.natAbs 1

def zero : Binary64 := finite false 0 minExponent

/-- The number nearest to an integer, unless it is too large for a finite one. -/
def ofInt? (i : Int) : Option Binary64 :=
  match ofInt i with
  | infinite _ => none
  | x => some x

/-- Whether `a * 2 ^ d < b * 2 ^ e`. -/
def scaledLt (a d b e : Int) : Bool :=
  let least := min d e
  a * Nat.pow 2 (d - least).toNat < b * Nat.pow 2 (e - least).toNat

/-- The order of numbers. Nothing is less or greater than what is no number. -/
def lt (x y : Binary64) : Bool :=
  match x, y with
  | nan, _ => false
  | _, nan => false
  | infinite true, infinite true => false
  | infinite true, _ => true
  | infinite false, _ => false
  | finite .., infinite negative => !negative
  | finite s m d, finite t n e =>
    scaledLt (if s then -(m : Int) else m) d (if t then -(n : Int) else n) e

/-- Whether a number is less than an integer, compared exactly. -/
def ltInt (x : Binary64) (i : Int) : Bool :=
  match x with
  | nan => false
  | infinite negative => negative
  | finite s m d => scaledLt (if s then -(m : Int) else m) d i 0

/-- Whether two numbers are equal; the two zeros are. -/
def same (x y : Binary64) : Bool :=
  match x, y with
  | nan, _ => false
  | _, nan => false
  | x, y => !lt x y && !lt y x

/-- The sum, rounded once. -/
def add (x y : Binary64) : Binary64 :=
  match x, y with
  | nan, _ => nan
  | _, nan => nan
  | infinite s, infinite t => if s == t then infinite s else nan
  | infinite s, _ => infinite s
  | _, infinite t => infinite t
  | finite s m d, finite t n e =>
    let least := min d e
    let a : Int := (if s then -(m : Int) else m) * Nat.pow 2 (d - least).toNat
    let b : Int := (if t then -(n : Int) else n) * Nat.pow 2 (e - least).toNat
    let sum := a + b
    if sum == 0 then finite (s && t) 0 minExponent
    else ofScaled (sum < 0) sum.natAbs least

/-- The product, rounded once. -/
def mul (x y : Binary64) : Binary64 :=
  match x, y with
  | nan, _ => nan
  | _, nan => nan
  | infinite s, infinite t => infinite (s != t)
  | infinite s, finite t n _ => if n == 0 then nan else infinite (s != t)
  | finite s m _, infinite t => if m == 0 then nan else infinite (s != t)
  | finite s m d, finite t n e => ofScaled (s != t) (m * n) (d + e)

/-- The integer that is left when the fraction of a finite number is dropped. -/
def truncate? : Binary64 → Option Int
  | finite negative m e =>
    let magnitude := if e < 0 then m / Nat.pow 2 (-e).toNat else m * Nat.pow 2 e.toNat
    some (if negative then -(magnitude : Int) else magnitude)
  | _ => none

/-- Whether a finite number is zero. -/
def isZero : Binary64 → Bool
  | finite _ m _ => m == 0
  | _ => false

/-- Whether a number is greater than zero. -/
def isPositive (x : Binary64) : Bool :=
  lt zero x

end Binary64

end RepoAtlas
