import KnowledgeImport.Glob.Token

/-!
# Matching a glob pattern

A pattern is matched against octets, anchored at both ends. Matching keeps a marking of the
candidate: one flag for each place between its octets (the ends included), set where some way of
matching the tokens so far can stand. A token turns the marking before it into the marking after
it, so the work is at most the length of the candidate for each token.
-/

namespace KnowledgeImport.Glob

open Text

/-- Flags for the places of a candidate, one more than it has octets. -/
abbrev Marks := List Bool

namespace Marks

/-- Only the place before the first octet. -/
def initial (s : List Octet) : Marks :=
  true :: s.map fun _ => false

/-- The places one octet further on, where that octet satisfies `p`. -/
def advance (p : Octet → Bool) (s : List Octet) (m : Marks) : Marks :=
  false :: List.zipWith (fun marked b => marked && p b) m s

/-- The places at or after a marked place. -/
def spreadFrom (seen : Bool) : Marks → Marks
  | [] => []
  | b :: m => (seen || b) :: spreadFrom (seen || b) m

/-- The places at or after a marked place. -/
def spread (m : Marks) : Marks :=
  spreadFrom false m

/-- The places marked in either. -/
def union (m₁ m₂ : Marks) : Marks :=
  List.zipWith (· || ·) m₁ m₂

/-- No place. -/
def none (s : List Octet) : Marks :=
  false :: s.map fun _ => false

/-- The place after the last octet is marked. -/
def final (m : Marks) : Bool :=
  m.getLast?.getD false

end Marks

/-- The octet is a slash. -/
def isSlash (b : Octet) : Bool :=
  b == 0x2F

mutual

/-- The places where a match of the token can end that began at a marked place. -/
def Token.after (s : List Octet) : Token → Marks → Marks
  | .literal c, m => (String.utf8EncodeChar c).foldl (fun m b => Marks.advance (· == b) s m) m
  | .anyOctet, m => Marks.advance (fun _ => true) s m
  | .anyRun, m => m.spread
  | .anyAncestors, m => Marks.union m (Marks.advance isSlash s m.spread)
  | .anyDescendants, m => (Marks.advance isSlash s m).spread
  | .anyBetween, m =>
    let slash := Marks.advance isSlash s m
    Marks.union slash (Marks.advance isSlash s slash.spread)
  | .oneOf negated ranges, m => Marks.advance (fun b => inClass ranges b != negated) s m
  | .alternatives branches, m => if allVoid branches then m else afterAny s branches m

/-- The places where a match of the tokens, one after the other, can end. -/
def afterAll (s : List Octet) : List Token → Marks → Marks
  | [], m => m
  | t :: ts, m => afterAll s ts (t.after s m)

/-- The places where a match of one of the branches can end; void branches are left out. -/
def afterAny (s : List Octet) : List (List Token) → Marks → Marks
  | [], _ => Marks.none s
  | ts :: rest, m =>
    if isVoid ts then afterAny s rest m
    else Marks.union (afterAll s ts m) (afterAny s rest m)

end

/-- The pattern is `**` and nothing else. -/
def Pattern.isEverything : Pattern → Bool
  | [.anyAncestors] => true
  | _ => false

/-- The pattern matches the octets from the first to the last. The pattern `**` matches
everything. -/
def Pattern.isMatch (p : Pattern) (s : List Octet) : Bool :=
  p.isEverything || (afterAll s p (Marks.initial s)).final

end KnowledgeImport.Glob
