import KnowledgeImport.Text.Ascii

/-!
# Internet addresses

The numeric addresses that stand in place of a host name: four octets, or eight groups of sixteen
bits.
-/

namespace KnowledgeImport.Url

open Text

/-! ### Four octets -/

/-- A number in an address of four octets: hexadecimal after `0x`, octal after `0`, else decimal. -/
def ipv4Number? (cs : List Char) : Option Nat :=
  let read (base : Nat) (digits : List Char) : Option Nat :=
    if digits.isEmpty then some 0 else numeral? base digits
  match cs with
  | [] => none
  | '0' :: 'x' :: r | '0' :: 'X' :: r => read 16 r
  | '0' :: c :: r => read 8 (c :: r)
  | _ => numeral? 10 cs

/-- The last part of a name, or the one before if that is empty, is a number: the name can only be
an address. -/
def endsInNumber (cs : List Char) : Bool :=
  let parts := (cs.splitOn '.').reverse
  let last? := match parts with
    | [] :: rest => rest.head?
    | last :: _ => some last
    | [] => none
  match last? with
  | none => false
  | some last => (!last.isEmpty && last.all Char.isDigit) || (ipv4Number? last).isSome

/-- The address that up to four numbers spell. The last one fills all octets that are left. -/
def ipv4? (cs : List Char) : Option Nat := do
  let parts := cs.splitOn '.'
  let parts := if parts.getLast? = some [] then parts.dropLast else parts
  if parts.length > 4 then none
  let numbers ← parts.mapM ipv4Number?
  let last ← numbers.getLast?
  let front := numbers.dropLast
  if last ≥ Nat.pow 256 (4 - front.length) || front.any (· > 255) then none
  return front.zipIdx.foldl (fun n (x, i) => n + x * Nat.pow 256 (3 - i)) last

/-- The four octets with points between them. -/
def ipv4Text (n : Nat) : List Char :=
  ['.'].intercalate ([3, 2, 1, 0].map fun i => (toString (n / Nat.pow 256 i % 256)).toList)

/-! ### Eight groups -/

/-- Four decimal numbers below 256, without leading zeros, as two groups. -/
def dottedGroups? (cs : List Char) : Option (List Nat) := do
  let numbers ← (cs.splitOn '.').mapM fun part =>
    if part.length > 1 && part.head? = some '0' then none
    else match numeral? 10 part with
      | some n => if n < 256 then some n else none
      | none => none
  match numbers with
  | [a, b, c, d] => some [a * 256 + b, c * 256 + d]
  | _ => none

/-- One to four hexadecimal digits. -/
def group? (cs : List Char) : Option Nat :=
  if cs.length ≤ 4 then numeral? 16 cs else none

/-- The groups of parts between colons; the last part of an address may be dotted. -/
def groups? (mayBeDotted : Bool) : List (List Char) → Option (List Nat)
  | [] => some []
  | [part] =>
    if mayBeDotted && part.contains '.' then dottedGroups? part
    else (group? part).map ([·])
  | part :: parts => do return (← group? part) :: (← groups? mayBeDotted parts)

/-- What stands before and after the first pair of colons. -/
def splitAtGap : List Char → Option (List Char × List Char)
  | ':' :: ':' :: cs => some ([], cs)
  | c :: cs => (splitAtGap cs).map fun (a, b) => (c :: a, b)
  | [] => none

/-- The groups of a text between colons; an empty text has none. -/
def groupsOf? (mayBeDotted : Bool) (cs : List Char) : Option (List Nat) :=
  if cs.isEmpty then some [] else groups? mayBeDotted (cs.splitOn ':')

/-- The eight groups of an address. A pair of colons stands for one group of zeros or more. -/
def ipv6? (cs : List Char) : Option (List Nat) := do
  match splitAtGap cs with
  | some (front, back) =>
    let front ← groupsOf? false front
    let back ← groupsOf? true back
    let missing := 8 - (front.length + back.length)
    if missing = 0 then none else some (front ++ List.replicate missing 0 ++ back)
  | none =>
    let groups ← groups? true (cs.splitOn ':')
    if groups.length = 8 then some groups else none

/-- The length of the run of zeros at the start. -/
def zeroRun (groups : List Nat) : Nat :=
  (groups.takeWhile (· = 0)).length

/-- The start and length of the first longest run of zeros. -/
def longestZeros (groups : List Nat) : Nat × Nat :=
  (List.range groups.length).foldl
    (fun best i =>
      let n := zeroRun (groups.drop i)
      if n > best.2 then (i, n) else best) (0, 0)

/-- The groups with colons between them, and a pair of colons for the longest run of at least two
zeros. -/
def ipv6Text (groups : List Nat) : List Char :=
  let colons (gs : List Nat) : List Char := [':'].intercalate (gs.map hexDigits)
  let (start, length) := longestZeros groups
  if length < 2 then colons groups
  else colons (groups.take start) ++ [':', ':'] ++ colons (groups.drop (start + length))

end KnowledgeImport.Url
