import KnowledgeImport.Decimal.Binary64

/-!
# Decimals with fixed places

A binary64 number rounded to a given number of decimal places. The exact value is rounded, and a
half goes to the even neighbour.
-/

namespace KnowledgeImport

/-- The digits of `units / 10 ^ places`, with at least one before the point. -/
def fixedDigits (places units : Nat) : List Char :=
  let cs := Nat.toDigits 10 units
  let cs := List.replicate (places + 1 - cs.length) '0' ++ cs
  cs.take (cs.length - places) ++ '.' :: cs.drop (cs.length - places)

/-- How many units of `10 ^ -places` are nearest to `m * 2 ^ q`. -/
def fixedUnits (places m : Nat) (q : Int) : Nat :=
  if 0 ≤ q then m * Nat.pow 2 q.toNat * Nat.pow 10 places
  else Binary64.roundDiv (m * Nat.pow 10 places) (Nat.pow 2 (-q).toNat)

namespace Binary64

/-- The number with a fixed, positive number of places. The sign is kept also where all digits are
zero. -/
def fixed (places : Nat) (x : Binary64) : String :=
  match x.value with
  | .nan => "NaN"
  | .infinite negative => if negative then "-inf" else "inf"
  | .finite negative m q =>
    let cs := fixedDigits places (fixedUnits places m q)
    String.ofList (if negative then '-' :: cs else cs)

end Binary64

end KnowledgeImport
