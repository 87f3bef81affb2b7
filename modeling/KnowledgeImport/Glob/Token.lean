import KnowledgeImport.Text.Quoted
import KnowledgeImport.Text.Utf8

/-!
# Parts of a glob pattern

A pattern is a list of tokens. Besides literal characters, single octets and runs there are three
forms of `**`, which differ in where it stands: before a path (`anyAncestors`), after one
(`anyDescendants`) and between two (`anyBetween`).
-/

namespace KnowledgeImport.Glob

open Text

/-- One part of a pattern. -/
inductive Token where
  /-- The character itself, all its octets. -/
  | literal (c : Char)
  /-- `?`: one octet, whichever. -/
  | anyOctet
  /-- `*`: any octets, the slash included. -/
  | anyRun
  /-- `**/` at the start: nothing, one slash, or anything up to a slash. -/
  | anyAncestors
  /-- `/**` at the end: a slash and anything after it. -/
  | anyDescendants
  /-- `/**/` inside: a slash, or anything between two slashes. -/
  | anyBetween
  /-- `[...]`: one octet in (or, negated, outside) the ranges. -/
  | oneOf (negated : Bool) (ranges : List (Char × Char))
  /-- `{...}`: one of the branches. -/
  | alternatives (branches : List (List Token))
  deriving Repr

/-- A pattern that was read. -/
abbrev Pattern := List Token

/-- Why a text is no pattern. -/
inductive SyntaxError where
  | unclosedClass
  | invalidRange (low high : Char)
  | danglingEscape
  | unopenedGroup
  | unclosedGroup
  deriving DecidableEq, Repr

/-- The words for a syntax error. -/
def SyntaxError.message : SyntaxError → String
  | .unclosedClass => "unclosed character class; missing ']'"
  | .invalidRange low high =>
    "invalid range; " ++ quotedChar low ++ " > " ++ quotedChar high
  | .danglingEscape => "dangling '\\'"
  | .unopenedGroup =>
    "unopened alternate group; missing '\x7b' (maybe escape '\x7d' with '[\x7d]'?)"
  | .unclosedGroup =>
    "unclosed alternate group; missing '\x7d' (maybe escape '\x7b' with '[\x7b]'?)"

/-! ### Octets of a class -/

/-- A range of octets, both ends included. -/
abbrev OctetRange := Octet × Octet

/-- The octet ranges that a range of characters stands for. Every character stands for its octets
one by one, so a range reaches from the last octet of its first character to the first octet of its
last one, and the remaining octets stand for themselves. -/
def octetRanges (low high : Char) : List OctetRange :=
  let single (b : Octet) : OctetRange := (b, b)
  let lows := String.utf8EncodeChar low
  if low = high then lows.map single
  else
    let highs := String.utf8EncodeChar high
    (lows.dropLast.map single)
      ++ (match lows.getLast?, highs.head? with
          | some a, some b => [(a, b)]
          | _, _ => [])
      ++ (highs.drop 1).map single

/-- The octet ranges of a class. -/
def classRanges (ranges : List (Char × Char)) : List OctetRange :=
  ranges.flatMap fun r => octetRanges r.1 r.2

/-- The octet lies in one of the ranges. -/
def inClass (ranges : List (Char × Char)) (b : Octet) : Bool :=
  (classRanges ranges).any fun r => r.1 ≤ b && b ≤ r.2

/-! ### Branches that are dropped -/

mutual

/-- A part that takes no text whatever stands there: a group with void branches only. -/
def Token.isVoid : Token → Bool
  | .alternatives branches => allVoid branches
  | _ => false

/-- All parts are void. -/
def isVoid : List Token → Bool
  | [] => true
  | t :: ts => t.isVoid && isVoid ts

/-- All branches are void. -/
def allVoid : List (List Token) → Bool
  | [] => true
  | ts :: rest => isVoid ts && allVoid rest

end

end KnowledgeImport.Glob
