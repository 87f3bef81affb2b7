import KnowledgeImport.Glob.Token

/-!
# A pattern written as an expression

The expression over octets that a pattern is short for, in the usual notation: `.` for any octet,
`*` for repetition, `(?:..|..)` for a choice. It is shown where a pattern is refused for nesting
too deeply.
-/

namespace KnowledgeImport.Glob

open Text

/-- The characters that an expression escapes when they stand for themselves. -/
def expressionMarks : List Char :=
  "\\.+*?()|[]\x7b\x7d^$#&-~".toList

/-- An octet standing for itself. -/
def writeOctet (b : Octet) : String :=
  let n := b.toNat
  if n < 0x80 then
    let c := Char.ofNat n
    if c ∈ expressionMarks then String.ofList ['\\', c] else String.ofList [c]
  else "\\x" ++ String.ofList (hexDigits n)

/-- A character standing for itself. -/
def writeLiteral (c : Char) : String :=
  String.join ((String.utf8EncodeChar c).map writeOctet)

/-- A range of a class. -/
def writeRange (low high : Char) : String :=
  if low = high then writeLiteral low else writeLiteral low ++ "-" ++ writeLiteral high

mutual

/-- The expression of one token. -/
def Token.write : Token → String
  | .literal c => writeLiteral c
  | .anyOctet => "."
  | .anyRun => ".*"
  | .anyAncestors => "(?:/?|.*/)"
  | .anyDescendants => "/.*"
  | .anyBetween => "(?:/|/.*/)"
  | .oneOf negated ranges =>
    (if negated then "[^" else "[") ++ String.join (ranges.map fun r => writeRange r.1 r.2) ++ "]"
  | .alternatives branches =>
    match writeBranches branches with
    | [] => ""
    | parts => "(?:" ++ "|".intercalate parts ++ ")"

/-- The expression of a sequence of tokens. -/
def writeAll : List Token → String
  | [] => ""
  | t :: ts => t.write ++ writeAll ts

/-- The expressions of the branches that are not void. -/
def writeBranches : List (List Token) → List String
  | [] => []
  | ts :: rest => if isVoid ts then writeBranches rest else writeAll ts :: writeBranches rest

end

/-- The expression of a whole pattern, anchored at both ends. -/
def Pattern.expression (p : Pattern) : String :=
  "(?-u)^" ++ writeAll p ++ "$"

end KnowledgeImport.Glob
