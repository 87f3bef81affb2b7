import KnowledgeImport.Text.Ascii

/-!
# Punycode

How a label with characters outside of ASCII is spelled in ASCII. The characters are put in one by
one in increasing order; each is given as the number of steps from the one before, in digits of base
36 whose weights adapt to the numbers seen.
-/

namespace KnowledgeImport.Url.Punycode

/-- A digit of base 36. -/
def digitChar (d : Nat) : Char :=
  if d < 26 then Char.ofNat ('a'.toNat + d) else Char.ofNat ('0'.toNat + (d - 26))

/-- The value of a digit, letters in either case. -/
def digitValue? (c : Char) : Option Nat :=
  if 'a' ≤ c ∧ c ≤ 'z' then some (c.toNat - 'a'.toNat)
  else if 'A' ≤ c ∧ c ≤ 'Z' then some (c.toNat - 'A'.toNat)
  else if '0' ≤ c ∧ c ≤ '9' then some (c.toNat - '0'.toNat + 26)
  else none

/-- The number of values of a digit at a place that end a number; between 1 and 26. -/
def threshold (place bias : Nat) : Nat :=
  if place ≤ bias then 1 else if place ≥ bias + 26 then 26 else place - bias

theorem threshold_pos (place bias : Nat) : 1 ≤ threshold place bias := by
  unfold threshold
  split
  · omega
  · split <;> omega

/-- Divides until the number is small, counting places. -/
def settle (delta places : Nat) : Nat × Nat :=
  if 455 < delta then settle (delta / 35) (places + 36) else (delta, places)
termination_by delta
decreasing_by exact Nat.div_lt_self (by omega) (by omega)

/-- The bias after a number of steps. -/
def adapt (delta count : Nat) (first : Bool) : Nat :=
  let delta := if first then delta / 700 else delta / 2
  let (delta, places) := settle (delta + delta / count) 0
  places + 36 * delta / (delta + 38)

/-! ### Encoding -/

/-- The digits of a number, from a place on. -/
def numberDigits (bias place n : Nat) : List Char :=
  let t := threshold place bias
  if n < t then [digitChar n]
  else digitChar (t + (n - t) % (36 - t)) :: numberDigits bias (place + 36) ((n - t) / (36 - t))
termination_by n
decreasing_by
  have hpos := threshold_pos place bias
  have hle : (n - threshold place bias) / (36 - threshold place bias)
      ≤ n - threshold place bias := Nat.div_le_self _ _
  omega

/-- Where encoding stands: the next code point to be put in, the steps since the last one, the bias,
and how many characters have been put in. -/
structure Encoder where
  next : Nat := 128
  delta : Nat := 0
  bias : Nat := 72
  done : Nat

/-- Goes over the label once and writes every occurrence of one code point. -/
def encodePoint (n basic : Nat) : List Nat → Encoder → List Char × Encoder
  | [], e => ([], e)
  | c :: cs, e =>
    if c < n then encodePoint n basic cs { e with delta := e.delta + 1 }
    else if c = n then
      let digits := numberDigits e.bias 36 e.delta
      let bias := adapt e.delta (e.done + 1) (e.done = basic)
      let (rest, e) := encodePoint n basic cs { e with bias, delta := 0, done := e.done + 1 }
      (digits ++ rest, e)
    else encodePoint n basic cs e

/-- Writes the code points in increasing order; `points` are those that the label has. -/
def encodePoints (label : List Nat) (basic : Nat) : List Nat → Encoder → List Char
  | [], _ => []
  | n :: points, e =>
    let e := { e with delta := e.delta + (n - e.next) * (e.done + 1), next := n }
    let (digits, e) := encodePoint n basic label e
    digits ++ encodePoints label basic points { e with delta := e.delta + 1, next := n + 1 }

/-- The spelling of a label. -/
def encode (label : List Char) : List Char :=
  let basic := label.filter (·.toNat < 128)
  let codes := label.map Char.toNat
  let points := ((codes.filter (128 ≤ ·)).mergeSort (· ≤ ·)).eraseDups
  basic ++ (if basic.isEmpty then [] else ['-'])
    ++ encodePoints codes basic.length points { done := basic.length }

/-! ### Decoding -/

/-- Where decoding stands: the code point last put in, its position, the bias, and the label. -/
structure Decoder where
  next : Nat := 128
  position : Nat := 0
  bias : Nat := 72
  label : List Char

/-- Reads digits and puts a character in at the end of each number. `start` is the position at the
start of the number, `weight` and `place` are those of the next digit, and `inNumber` says that a
number has begun. -/
def decodeDigits (d : Decoder) (start weight place : Nat) (inNumber : Bool) :
    List Char → Option (List Char)
  | [] => if inNumber then none else some d.label
  | c :: cs =>
    match digitValue? c with
    | none => none
    | some digit =>
      let position := d.position + digit * weight
      let t := threshold place d.bias
      if digit < t then
        let count := d.label.length + 1
        let next := d.next + position / count
        let at_ := position % count
        if h : next.isValidChar then
          let label := d.label.take at_ ++ Char.ofNatAux next h :: d.label.drop at_
          let bias := adapt (position - start) count (start = 0)
          decodeDigits { next, position := at_ + 1, bias, label } (at_ + 1) 1 36 false cs
        else none
      else decodeDigits { d with position } start (weight * (36 - t)) (place + 36) true cs

/-- The label that is spelled so. The characters before the last hyphen stand for themselves. -/
def decode? (cs : List Char) : Option (List Char) :=
  let after := (cs.reverse.takeWhile (· ≠ '-')).reverse
  let basic := (cs.take (cs.length - after.length)).dropLast
  decodeDigits { label := basic } 0 1 36 false after

end KnowledgeImport.Url.Punycode
