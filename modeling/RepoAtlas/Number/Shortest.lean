import RepoAtlas.Number.Binary64

/-!
Floating-point numbers in decimal: the fewest digits that read back, and
reading digits to the nearest number.
-/
namespace RepoAtlas.Binary64

/-- The decimal digits of a natural number. -/
def digitsOf (n : Nat) : List Char := Nat.toDigits 10 n

/--
The first of the grids with `n`, `n + 1`, … digits that has a point between
`low` and `high`, as the digits and the power of ten by which the grid is
coarser than the unit. Of two points the nearer is taken, of two equally near
ones the even. The ends count if `closed` is true.
-/
def firstGrid (value low high : Nat) (closed : Bool) (length : Nat) :
    (grids n : Nat) → Nat × Nat
  | 0, _ => (value, 0)
  | grids + 1, n =>
    let step := Nat.pow 10 (length - n)
    let below := value / step
    let above := below + 1
    let belowIn := if closed then low ≤ below * step else low < below * step
    let aboveIn := if closed then above * step ≤ high else above * step < high
    let downward := value - below * step
    let upward := above * step - value
    if belowIn && aboveIn then
      if downward < upward || (downward == upward && below % 2 == 0) then (below, length - n)
      else (above, length - n)
    else if belowIn then (below, length - n)
    else if aboveIn then (above, length - n)
    else firstGrid value low high closed length grids (n + 1)

/-- Drops the zeros at the end of a list of digits. -/
def dropZeros (digits : List Char) : List Char :=
  (digits.reverse.dropWhile (· == '0')).reverse

/--
The fewest digits that read back as `m * 2 ^ e`, without zeros at the end, and
the place of the decimal point counted from the first of them.
-/
def shortestDigits (m : Nat) (e : Int) : List Char × Int :=
  let places : Nat := (-e).toNat + 2
  let unit := if e < 0 then Nat.pow 5 places else 25 * Nat.pow 2 e.toNat
  let lowGap := if m == Nat.pow 2 52 && minExponent < e then 1 else 2
  let value := 4 * m * unit
  let length := (digitsOf value).length
  let (digits, power) :=
    firstGrid value ((4 * m - lowGap) * unit) ((4 * m + 2) * unit) (m % 2 == 0) length 17 1
  let text := digitsOf digits
  (dropZeros text, (text.length : Int) + power - places)

/-- At least two digits and a sign, as exponents are written. -/
def exponentText (e : Int) : List Char :=
  let digits := digitsOf e.natAbs
  (if e < 0 then '-' else '+') :: (if digits.length < 2 then '0' :: digits else digits)

/--
Digits with a decimal point after `point` of them: positional from 0.0001 up
to below 10^16, with an exponent outside.
-/
def layout (digits : List Char) (point : Int) : List Char :=
  if point ≤ -4 || 16 < point then
    let mantissa :=
      match digits with
      | d :: [] => [d]
      | d :: rest => d :: '.' :: rest
      | [] => ['0']
    mantissa ++ ['e'] ++ exponentText (point - 1)
  else if point ≤ 0 then
    ['0', '.'] ++ List.replicate (-point).toNat '0' ++ digits
  else if digits.length ≤ point.toNat then
    digits ++ List.replicate (point.toNat - digits.length) '0' ++ ['.', '0']
  else
    digits.take point.toNat ++ ['.'] ++ digits.drop point.toNat

/-- The text of a number: the fewest digits that read back, and a point or an exponent. -/
def toText : Binary64 → String
  | nan => "nan"
  | infinite negative => if negative then "-inf" else "inf"
  | finite negative m e =>
    let magnitude :=
      if m == 0 then ['0', '.', '0']
      else
        let (digits, point) := shortestDigits m e
        layout digits point
    String.ofList (if negative then '-' :: magnitude else magnitude)

/-- The number nearest to `digits * 10 ^ exponent`. -/
def ofDecimal (negative : Bool) (digits : Nat) (exponent : Int) : Binary64 :=
  if digits == 0 then finite negative 0 minExponent
  else
    let size : Int := (digitsOf digits).length
    if 400 < size + exponent then infinite negative
    else if size + exponent < -400 then finite negative 0 minExponent
    else if exponent < 0 then ofRatio negative digits (Nat.pow 10 (-exponent).toNat)
    else ofRatio negative (digits * Nat.pow 10 exponent.toNat) 1

/--
A number with exactly `places` digits after the point, a half going to the
even neighbour, as the digits before and after the point.
-/
def toFixed (x : Binary64) (places : Nat) : Option (Bool × Nat) :=
  match x with
  | finite negative m e =>
    some (negative,
      if e < 0 then roundDiv (m * Nat.pow 10 places) (Nat.pow 2 (-e).toNat)
      else m * Nat.pow 2 e.toNat * Nat.pow 10 places)
  | _ => none

/-- The text of a finite number with exactly `places` digits after the point. -/
def fixedText (x : Binary64) (places : Nat) : String :=
  match toFixed x places with
  | none => toText x
  | some (negative, n) =>
    let digits := digitsOf n
    let padded := List.replicate (places + 1 - digits.length) '0' ++ digits
    let whole := padded.take (padded.length - places)
    let text := if places == 0 then whole else whole ++ ['.'] ++ padded.drop (padded.length - places)
    String.ofList (if negative then '-' :: text else text)

/-- The number nearest to `x` among those with `places` decimal places. -/
def roundTo (x : Binary64) (places : Nat) : Binary64 :=
  match toFixed x places with
  | none => x
  | some (negative, n) => ofDecimal negative n (-(places : Int))

example : toText (ofDecimal false 1 (-1)) = "0.1" := by decide +kernel
example : toText (ofDecimal false 1 16) = "1e+16" := by decide +kernel
example : toText (ofDecimal false 5 (-324)) = "5e-324" := by decide +kernel
example : toText (add (ofDecimal false 1 (-1)) (ofDecimal false 2 (-1))) =
    "0.30000000000000004" := by decide +kernel
example : toText (ofInt 1000000) = "1000000.0" := by decide +kernel

end RepoAtlas.Binary64
