import RepoAtlas.Failure
import RepoAtlas.Json.Value

/-!
Numbers as they are set: whole numbers of any size, or floating-point ones.
-/
namespace RepoAtlas

inductive Quantity where
  | whole (i : Int)
  | real (x : Binary64)
deriving Repr, DecidableEq, Inhabited

namespace Quantity

def toJson : Quantity → Json
  | whole i => .int i
  | real x => .real x

def ofJson? : Json → Option Quantity
  | .int i => some (whole i)
  | .real x => some (real x)
  | .bool b => some (whole (if b then 1 else 0))
  | _ => none

/-- The failure of making a floating-point number out of too large a whole one. -/
def tooLarge : Unexpected :=
  ⟨"OverflowError", "int too large to convert to float"⟩

def toReal : Quantity → Except Unexpected Binary64
  | whole i =>
    match Binary64.ofInt? i with
    | some x => .ok x
    | none => .error tooLarge
  | real x => .ok x

/-- The product with a whole number; a floating-point product is rounded. -/
def times (q : Quantity) (factor : Int) : Quantity :=
  match q with
  | whole i => whole (i * factor)
  | real x => real (x.mul (.ofInt factor))

/-- The whole number that is left when the fraction is dropped. -/
def truncated : Quantity → Except Unexpected Int
  | whole i => .ok i
  | real .nan => .error ⟨"ValueError", "cannot convert float NaN to integer"⟩
  | real (.infinite _) => .error ⟨"OverflowError", "cannot convert float infinity to integer"⟩
  | real x => .ok (x.truncate?.getD 0)

def isPositive : Quantity → Bool
  | whole i => 0 < i
  | real x => x.isPositive

end Quantity

end RepoAtlas
