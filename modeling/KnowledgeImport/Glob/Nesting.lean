import KnowledgeImport.Glob.Token

/-!
# How deep a pattern nests

A set of patterns takes only patterns whose expression, written with groups, alternatives,
sequences and repetitions, nests at most `nestingLimit` deep. A group counts one level, a choice
between two branches or more one, a sequence of two items or more one, and a repetition or a class
one at its place.
-/

namespace KnowledgeImport.Glob

/-- The deepest nesting that a set accepts. -/
def nestingLimit : Nat := 250

/-- How many items a token adds to the sequence that it stands in, and how deep they nest. -/
structure Extent where
  items : Nat
  depth : Nat
  deriving DecidableEq, Repr

/-- Two stretches of a sequence, one after the other. -/
def Extent.append (a b : Extent) : Extent :=
  ⟨a.items + b.items, max a.depth b.depth⟩

/-- The depth of a stretch taken as one item: a sequence of several is a level of its own. -/
def Extent.level (e : Extent) : Nat :=
  if e.items ≤ 1 then e.depth else e.depth + 1

mutual

/-- The extent of one token. -/
def Token.extent : Token → Extent
  | .literal c => ⟨(String.utf8EncodeChar c).length, 0⟩
  | .anyOctet => ⟨1, 0⟩
  | .anyRun => ⟨1, 1⟩
  | .anyAncestors => ⟨1, 4⟩
  | .anyDescendants => ⟨2, 1⟩
  | .anyBetween => ⟨1, 4⟩
  | .oneOf _ ranges => ⟨1, if (classRanges ranges).length = 1 then 1 else 2⟩
  | .alternatives branches =>
    let (count, depth) := widest branches
    if count = 0 then ⟨0, 0⟩
    else ⟨1, if count = 1 then depth + 1 else depth + 2⟩

/-- The extent of a sequence of tokens. -/
def extent : List Token → Extent
  | [] => ⟨0, 0⟩
  | t :: ts => t.extent.append (extent ts)

/-- How many branches are not void, and how deep the deepest of them nests. -/
def widest : List (List Token) → Nat × Nat
  | [] => (0, 0)
  | ts :: rest =>
    let (count, depth) := widest rest
    if isVoid ts then (count, depth) else (count + 1, max (extent ts).level depth)

end

/-- How deep the pattern nests as a whole; its anchors make it a sequence. -/
def Pattern.nesting (p : Pattern) : Nat :=
  (extent p).depth + 1

/-- The pattern nests no deeper than a set accepts. -/
def Pattern.isShallow (p : Pattern) : Bool :=
  p.nesting ≤ nestingLimit

end KnowledgeImport.Glob
