import KnowledgeImport.Json.Token
import KnowledgeImport.Decimal.Shortest

/-!
# Numbers of JSON

What a written number stands for: an integer if it is written as one and fits sixty-four bits, else
a binary64 number. The significand of the latter is the first digits that fit sixty-four bits; it is
rounded, and then multiplied or divided by a power of ten and rounded again.
-/

namespace KnowledgeImport.Json

/-- A number. -/
inductive Number where
  | natural (n : Nat)
  | negative (n : Nat)
  | float (x : Binary64)
  deriving DecidableEq, Repr

/-- Integers are below this. -/
def wordLimit : Nat := Nat.pow 2 64

namespace Number

/-- The number as a message writes it. -/
def text : Number → String
  | .natural n => toString n
  | .negative n => "-" ++ toString n
  | .float x => x.compact

end Number

/-! ### Significands -/

/-- The digits of a significand that were taken, and by which power of ten they are to be
multiplied. -/
structure Significand where
  digits : Nat := 0
  exponent : Int := 0
  /-- A digit did not fit. -/
  full : Bool := false
  deriving DecidableEq, Repr

namespace Significand

/-- A digit before the point. -/
def pushWhole (s : Significand) (c : Char) : Significand :=
  let next := s.digits * 10 + (c.toNat - '0'.toNat)
  if s.full || wordLimit ≤ next then { s with full := true, exponent := s.exponent + 1 }
  else { s with digits := next }

/-- A digit after the point. -/
def pushFraction (s : Significand) (c : Char) : Significand :=
  let next := s.digits * 10 + (c.toNat - '0'.toNat)
  if s.full || wordLimit ≤ next then { s with full := true }
  else { s with digits := next, exponent := s.exponent - 1 }

end Significand

/-- The product or quotient of two positive finite numbers, rounded. -/
def scale (x y : Binary64) (divide : Bool) : Binary64 :=
  match x.value, y.value with
  | .finite _ m q, .finite _ n r =>
    let (a, b) := ShortDecimal.twoTo (if divide then q - r else q + r)
    if divide then Binary64.ofFraction false (m * a) (n * b)
    else Binary64.ofFraction false (m * n * a) b
  | _, _ => x

/-- The largest power of ten that is a finite number. -/
def largestPower : Nat := 308

/-- The number of a significand and a power of ten, or `none` if it is too large. A power below the
least is divided by in two steps. -/
def assemble? (significand : Nat) (exponent : Int) : Option Binary64 :=
  let x := Binary64.ofFraction false significand 1
  let power (n : Nat) := Binary64.ofDecimal false 1 n
  if significand = 0 then some x
  else if 0 ≤ exponent then
    if exponent.toNat ≤ largestPower then
      let y := scale x (power exponent.toNat) false
      if y.isFinite then some y else none
    else none
  else
    let n := (-exponent).toNat
    if n ≤ largestPower then some (scale x (power n) true)
    else if n ≤ 2 * largestPower then
      some (scale (scale x (power largestPower) true) (power (n - largestPower)) true)
    else some (Binary64.ofFraction false 0 1)

/-- The value of digits. -/
def digitsValue (cs : List Char) : Nat :=
  cs.foldl (fun n c => n * 10 + (c.toNat - '0'.toNat)) 0

namespace Numeral

/-- The number is written as an integer. -/
def isInteger (n : Numeral) : Bool :=
  n.fraction.isEmpty && n.exponent.isNone

/-- The binary64 number, or `none` if it is too large. -/
def float? (n : Numeral) : Option Binary64 :=
  let s := n.fraction.foldl Significand.pushFraction
    { n.whole.foldl Significand.pushWhole {} with full := false }
  let shift : Int := match n.exponent with
    | none => 0
    | some (minus, cs) => if minus then -(digitsValue cs : Int) else digitsValue cs
  (assemble? s.digits (s.exponent + shift)).map fun x =>
    if n.negative then ⟨x.bits + 0x8000000000000000⟩ else x

/-- What the written number stands for, or `none` if it is too large. A negative zero is no
integer. -/
def number? (n : Numeral) : Option Number :=
  let m := digitsValue n.whole
  if n.isInteger && !n.negative && m < wordLimit then some (.natural m)
  else if n.isInteger && n.negative && 0 < m && m ≤ wordLimit / 2 then some (.negative m)
  else n.float?.map .float

end Numeral

end KnowledgeImport.Json
