/-!
# Binary floating point numbers

The binary64 numbers as words of 64 bits: what a word stands for, and the word nearest to a given
fraction. A finite number is `m * 2 ^ q` with `m` below `2 ^ 53`.
-/

namespace KnowledgeImport

/-- A binary64 number, by its word. -/
structure Binary64 where
  bits : UInt64
  deriving DecidableEq, Repr

namespace Binary64

/-- What a word stands for. -/
inductive Value where
  | nan
  | infinite (negative : Bool)
  /-- The number `m * 2 ^ q`, or its opposite. -/
  | finite (negative : Bool) (m : Nat) (q : Int)
  deriving DecidableEq, Repr

/-- The least exponent of a finite number. -/
def leastExponent : Int := -1074

/-- The sign bit, the eleven bits of the exponent and the fifty-two of the significand. -/
def value (x : Binary64) : Value :=
  let n := x.bits.toNat
  let negative := Nat.pow 2 63 ≤ n
  let exponent : Nat := n / Nat.pow 2 52 % Nat.pow 2 11
  let fraction : Nat := n % Nat.pow 2 52
  if exponent = 2047 then
    if fraction = 0 then .infinite negative else .nan
  else if exponent = 0 then .finite negative fraction leastExponent
  else .finite negative (Nat.pow 2 52 + fraction) (leastExponent + (exponent : Int) - 1)

/-- The word whose magnitude has the given number, with a sign. -/
def ofMagnitude (negative : Bool) (n : Nat) : Binary64 :=
  ⟨UInt64.ofNat (n + if negative then Nat.pow 2 63 else 0)⟩

/-- The magnitude of infinity: all finite magnitudes are below it. -/
def infinity : Nat := 2047 * Nat.pow 2 52

/-- The quotient rounded to the nearest integer; a half goes to the even neighbour. -/
def roundDiv (num den : Nat) : Nat :=
  let k := num / den
  let rest := 2 * (num % den)
  if rest < den ∨ (rest = den ∧ k % 2 = 0) then k else k + 1

/-- `num / den / 2 ^ q` as a fraction. -/
def scaled (num den : Nat) (q : Int) : Nat × Nat :=
  if 0 ≤ q then (num, den * Nat.pow 2 q.toNat) else (num * Nat.pow 2 (-q).toNat, den)

/-- The exponent at which `num / den` has a significand of fifty-three bits, or the least one. -/
def exponentFor (num den : Nat) : Int :=
  let q : Int := (num.log2 : Int) - (den.log2 : Int) - 53
  let (n, d) := scaled num den q
  max leastExponent (if n / d < Nat.pow 2 53 then q else q + 1)

/-- The number nearest to `num / den`, which is infinity where a finite one would need too large an
exponent. Consecutive magnitudes are consecutive numbers, so a significand that is rounded up to
`2 ^ 53` carries into the exponent by itself. -/
def ofFraction (negative : Bool) (num den : Nat) : Binary64 :=
  if num = 0 then ofMagnitude negative 0
  else
    let q := exponentFor num den
    let (n, d) := scaled num den q
    let magnitude := (q - leastExponent).toNat * Nat.pow 2 52 + roundDiv n d
    ofMagnitude negative (min magnitude infinity)

/-- The exponents beyond which a decimal is infinite or zero whatever its digits. -/
def decimalLimit : Int := 400

/-- The number nearest to `digits * 10 ^ exponent`. -/
def ofDecimal (negative : Bool) (digits : Nat) (exponent : Int) : Binary64 :=
  if digits = 0 then ofMagnitude negative 0
  else
    let places : Int := (Nat.toDigits 10 digits).length + exponent
    if places > decimalLimit then ofMagnitude negative infinity
    else if places < -decimalLimit then ofMagnitude negative 0
    else if 0 ≤ exponent then ofFraction negative (digits * Nat.pow 10 exponent.toNat) 1
    else ofFraction negative digits (Nat.pow 10 (-exponent).toNat)

/-- The number is neither infinite nor no number. -/
def isFinite (x : Binary64) : Bool :=
  match x.value with
  | .finite .. => true
  | _ => false

end Binary64

end KnowledgeImport
