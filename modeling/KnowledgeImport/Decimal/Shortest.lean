import KnowledgeImport.Decimal.Binary64

/-!
# Shortest decimals

The fewest decimal digits that read back as a given binary64 number, and the two ways in which
messages write them.
-/

namespace KnowledgeImport

/-- The number `digits * 10 ^ exponent`; the digits do not end in zero. -/
structure ShortDecimal where
  digits : Nat
  exponent : Int
  deriving DecidableEq, Repr

namespace ShortDecimal

/-- The power of ten as a fraction. -/
def tenTo (e : Int) : Nat × Nat :=
  if 0 ≤ e then (Nat.pow 10 e.toNat, 1) else (1, Nat.pow 10 (-e).toNat)

/-- The power of two as a fraction. -/
def twoTo (e : Int) : Nat × Nat :=
  if 0 ≤ e then (Nat.pow 2 e.toNat, 1) else (1, Nat.pow 2 (-e).toNat)

/-- `m * 2 ^ q` in units of `10 ^ e`, as a fraction. -/
def inUnits (m : Nat) (q e : Int) : Nat × Nat :=
  let (a, b) := twoTo q
  let (c, d) := tenTo e
  (m * a * d, b * c)

/-- The `e` for which `10 ^ e ≤ m * 2 ^ q < 10 ^ (e + 1)`, for a positive `m`. -/
def leadingPower (m : Nat) (q : Int) : Int :=
  let guess := (((m.log2 : Int) + q) * 30103).fdiv 100000
  let atLeast (e : Int) : Bool :=
    let (n, d) := inUnits m q e
    d ≤ n
  if !atLeast guess then guess - 1
  else if atLeast (guess + 1) then guess + 1
  else guess

/-- The digits without zeros at the end; at most `fuel` are taken off. -/
def dropZeros (fuel : Nat) (digits : Nat) (exponent : Int) : ShortDecimal :=
  match fuel with
  | 0 => ⟨digits, exponent⟩
  | fuel + 1 =>
    if digits ≠ 0 ∧ digits % 10 = 0 then dropZeros fuel (digits / 10) (exponent + 1)
    else ⟨digits, exponent⟩

/-- The multiple of `10 ^ e` nearest to `m * 2 ^ q` among those that read back as it. All points
nearer to the number than half the gap to its neighbours read back, and the half itself does if `m`
is even; below a power of two the gap is half as wide. -/
def onGrid? (m : Nat) (q e : Int) : Option ShortDecimal :=
  let low := if m = Nat.pow 2 52 ∧ q > Binary64.leastExponent then 4 * m - 1 else 4 * m - 2
  let high := 4 * m + 2
  let (n, d) := inUnits (4 * m) (q - 2) e
  let (nLow, _) := inUnits low (q - 2) e
  let (nHigh, _) := inUnits high (q - 2) e
  let readsBack (k : Nat) : Bool :=
    if m % 2 = 0 then nLow ≤ k * d && k * d ≤ nHigh else nLow < k * d && k * d < nHigh
  let k := n / d
  let nearer := 2 * (n % d) < d || (2 * (n % d) = d && k % 2 = 0)
  let (first, second) := if nearer then (k, k + 1) else (k + 1, k)
  if readsBack first then some (dropZeros 20 first e)
  else if readsBack second then some (dropZeros 20 second e)
  else none

/-- The shortest decimal of `m * 2 ^ q`: the coarsest grid with a point that reads back. Seventeen
digits always do. -/
def ofParts (m : Nat) (q : Int) : ShortDecimal :=
  if m = 0 then ⟨0, 0⟩
  else
    let e := leadingPower m q
    ((List.range 17).findSome? fun (n : Nat) => onGrid? m q (e - (n : Int))).getD ⟨m, q⟩

/-- The digits as characters. -/
def text (d : ShortDecimal) : List Char :=
  Nat.toDigits 10 d.digits

/-- Where the point stands, counted from the first digit. -/
def point (d : ShortDecimal) : Int :=
  (d.text.length : Int) + d.exponent

/-- All digits written out, with a point and at least one digit on either side of it. -/
def positional (d : ShortDecimal) : List Char :=
  let cs := d.text
  if 0 ≤ d.exponent then cs ++ List.replicate d.exponent.toNat '0' ++ ['.', '0']
  else if 0 < d.point then cs.take d.point.toNat ++ '.' :: cs.drop d.point.toNat
  else ['0', '.'] ++ List.replicate (-d.point).toNat '0' ++ cs

/-- Positional where the point is at most sixteen digits to the right and at most four zeros follow
it, else one digit before the point and an exponent. -/
def compact (d : ShortDecimal) : List Char :=
  if d.digits = 0 ∨ (-5 < d.point ∧ d.point ≤ 16) then d.positional
  else
    let power := (toString (d.point - 1)).toList
    match d.text with
    | [c] => c :: 'e' :: power
    | c :: cs => c :: '.' :: cs ++ 'e' :: power
    | [] => []

end ShortDecimal

namespace Binary64

/-- The text of a number by a way to write its digits. -/
def render (write : ShortDecimal → List Char) (x : Binary64) : String :=
  match x.value with
  | .nan => "NaN"
  | .infinite negative => if negative then "-inf" else "inf"
  | .finite negative m q =>
    let cs := write (ShortDecimal.ofParts m q)
    String.ofList (if negative then '-' :: cs else cs)

/-- The number with all its digits written out. -/
def positional (x : Binary64) : String :=
  x.render ShortDecimal.positional

/-- The number in its compact form. -/
def compact (x : Binary64) : String :=
  x.render ShortDecimal.compact

end Binary64

end KnowledgeImport
