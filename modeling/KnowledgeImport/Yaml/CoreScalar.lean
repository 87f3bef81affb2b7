import KnowledgeImport.Yaml.Document
import KnowledgeImport.Decimal.Shortest
import KnowledgeImport.Text.Quoted

/-!
# Values of scalars

What a scalar stands for by the core rules: nothing, a truth value, an integer, a number or a text,
decided by its spelling if it is plain, or by its tag. Integers are read in steps, from words of
sixty-four bits to words of a hundred and twenty-eight.
-/

namespace KnowledgeImport.Yaml

open Text

/-- The value of a scalar. -/
inductive CoreValue where
  | null
  | bool (b : Bool)
  /-- An integer of sixty-four bits. -/
  | int (n : Int)
  /-- An integer that needs more bits. -/
  | wideInt (n : Int)
  | float (x : Binary64)
  | text (s : String)
  deriving DecidableEq, Repr

/-! ### Integers -/

/-- The characters after `start`, if the text starts with it. -/
def stripStart? (start : List Char) (cs : List Char) : Option (List Char) :=
  if start.isPrefixOf cs then some (cs.drop start.length) else none

/-- The bases that an integer may be marked with. -/
def markedBases : List (List Char × Nat) :=
  [(['0', 'x'], 16), (['0', 'o'], 8), (['0', 'b'], 2)]

/-- The number that the digits spell, if it is below the limit. -/
def digitsBelow? (limit base : Nat) (cs : List Char) : Option Nat :=
  match numeral? base cs with
  | some n => if n < limit then some n else none
  | none => none

/-- A zero followed by further digits: these spell no decimal integer, whatever their sign. -/
def hasLeadingZero (cs : List Char) : Bool :=
  let cs := match cs with
    | '-' :: r | '+' :: r => r
    | _ => cs
  cs.length > 1 && cs.head? == some '0' && cs.all Char.isDigit

/-- An integer without a minus: after at most one plus, digits with a mark for their base, or
decimal digits. -/
def unsignedBelow? (limit : Nat) (s : String) : Option Nat :=
  let cs := s.toList
  let body := (stripStart? ['+'] cs).getD cs
  let marked := markedBases.findSome? fun (mark, base) =>
    (stripStart? mark body).bind (digitsBelow? limit base)
  if marked.isSome then marked
  else if hasLeadingZero cs then none
  else digitsBelow? limit 10 body

/-- An integer with a minus, whose magnitude is at most `limit`. -/
def negativeAtLeast? (limit : Nat) (s : String) : Option Int :=
  let cs := s.toList
  let read (base : Nat) (digits : List Char) : Option Int :=
    (digitsBelow? (limit + 1) base digits).map fun n => -(n : Int)
  match stripStart? ['-'] cs with
  | none => none
  | some body =>
    let marked := markedBases.findSome? fun (mark, base) => (stripStart? mark body).bind (read base)
    if marked.isSome then marked else if hasLeadingZero cs then none else read 10 body

/-- An integer. -/
def readInt? (s : String) : Option CoreValue :=
  ((unsignedBelow? (Nat.pow 2 64) s).map fun n => CoreValue.int n)
    <|> ((negativeAtLeast? (Nat.pow 2 63) s).map .int)
    <|> ((unsignedBelow? (Nat.pow 2 128) s).map fun n => CoreValue.wideInt n)
    <|> ((negativeAtLeast? (Nat.pow 2 127) s).map .wideInt)

/-! ### Numbers -/

/-- The value of an exponent: digits after at most one sign. -/
def readExponent? (cs : List Char) : Option Int :=
  match cs with
  | '-' :: r => (numeral? 10 r).map fun n => -(n : Int)
  | '+' :: r => (numeral? 10 r).map fun n => (n : Int)
  | _ => (numeral? 10 cs).map fun n => (n : Int)

/-- A decimal without a sign: digits, of which some may stand behind a point, and an exponent. -/
def readDecimal? (cs : List Char) : Option (Nat × Int) := do
  let whole := cs.takeWhile Char.isDigit
  let rest := cs.dropWhile Char.isDigit
  let (fraction, rest) := match rest with
    | '.' :: r => (r.takeWhile Char.isDigit, r.dropWhile Char.isDigit)
    | _ => ([], rest)
  let digits ← numeral? 10 (whole ++ fraction)
  let exponent ← match rest with
    | [] => some 0
    | c :: r => if c = 'e' ∨ c = 'E' then readExponent? r else none
  return (digits, exponent - fraction.length)

/-- A finite number after at most one sign. -/
def readFinite? (cs : List Char) : Option Binary64 := do
  let (negative, body) := match cs with
    | '-' :: r => (true, r)
    | '+' :: r => (false, r)
    | _ => (false, cs)
  let (digits, exponent) ← readDecimal? body
  let x := Binary64.ofDecimal negative digits exponent
  if x.isFinite then some x else none

/-- A number: a finite one, infinity with or without a sign, or no number. -/
def readFloat? (s : String) : Option Binary64 :=
  let infinite := [".inf", ".Inf", ".INF"]
  let cs := s.toList
  let unsigned := (stripStart? ['+'] cs).getD cs
  let twice := unsigned.length < cs.length
    && (unsigned.head? == some '+' || unsigned.head? == some '-')
  if twice then none
  else if infinite.contains (String.ofList unsigned) then
    some (Binary64.ofMagnitude false Binary64.infinity)
  else if (infinite.map ("-" ++ ·)).contains s then
    some (Binary64.ofMagnitude true Binary64.infinity)
  else if [".nan", ".NaN", ".NAN"].contains s then
    some (Binary64.ofMagnitude false (Binary64.infinity + Nat.pow 2 51))
  else readFinite? unsigned

/-! ### Values -/

/-- The spelling of nothing. -/
def isNull (s : String) : Bool :=
  ["null", "Null", "NULL", "~"].contains s

/-- A truth value. -/
def readBool? (s : String) : Option Bool :=
  if ["true", "True", "TRUE"].contains s then some true
  else if ["false", "False", "FALSE"].contains s then some false
  else none

/-- The value that a plain scalar has by its spelling. -/
def plainValue (s : String) : CoreValue :=
  if s.isEmpty || isNull s then .null
  else match readBool? s with
    | some b => .bool b
    | none =>
      match readInt? s with
      | some v => v
      | none =>
        if hasLeadingZero s.toList then .text s
        else match readFloat? s with
          | some x => .float x
          | none => .text s

/-- A tag of the core schema. -/
def coreTag (name : String) : String :=
  "tag:yaml.org,2002:" ++ name

/-- What a tag of the core schema asks of a scalar: its value, or what was asked for in vain. -/
def taggedValue? (tag : String) (s : String) : Option (Except String CoreValue) :=
  if tag = coreTag "bool" then
    some (((readBool? s).map fun b => .ok (.bool b)).getD (.error "a boolean"))
  else if tag = coreTag "int" then some (((readInt? s).map .ok).getD (.error "an integer"))
  else if tag = coreTag "float" then
    some (((readFloat? s).map fun x => .ok (.float x)).getD (.error "a float"))
  else if tag = coreTag "null" then some (if isNull s then .ok .null else .error "null")
  else none

/-- The value of a scalar. A tag of its own, not of the core schema, leaves a plain scalar as it
is spelled; scalars that are not plain are texts otherwise. -/
def scalarValue (tag : Option String) (style : ScalarStyle) (s : String) :
    Except String CoreValue :=
  match tag with
  | none => .ok (if style = .plain then plainValue s else .text s)
  | some tag =>
    match taggedValue? tag s with
    | some v => v
    | none =>
      if tag.toList.head? = some '!' && style = .plain then .ok (plainValue s) else .ok (.text s)

namespace CoreValue

/-- A value as what it is, for messages. -/
def shown : CoreValue → String
  | .null => "unit value"
  | .bool b => "boolean `" ++ toString b ++ "`"
  | .int n => "integer `" ++ toString n ++ "`"
  | .wideInt n =>
    "integer `" ++ toString n ++ "` as " ++ (if n < 0 then "i128" else "u128")
  | .float x => "floating point `" ++ x.positional ++ "`"
  | .text s => "string " ++ quoted s

end CoreValue

end KnowledgeImport.Yaml
