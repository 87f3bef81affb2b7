import KnowledgeImport.Glob.Token

/-!
# Reading a glob pattern

One pass over the characters. What is open is kept in frames: the branches finished so far of each
open group and the tokens of the branch being read, newest first. Inside brackets the pass is in a
mode of its own.
-/

namespace KnowledgeImport.Glob

/-- A group that is being read; the frame at the bottom is the pattern itself. -/
structure Frame where
  finished : List (List Token) := []
  current : List Token := []
  deriving Repr

/-- The branches of a frame in the order in which they were written. -/
def Frame.branches (f : Frame) : List (List Token) :=
  (f.current.reverse :: f.finished).reverse

/-- The frame being read and those around it, innermost first. -/
structure Frames where
  inner : Frame := {}
  outer : List Frame := []
  deriving Repr

namespace Frames

/-- The reader is inside a group. -/
def nested (f : Frames) : Bool :=
  !f.outer.isEmpty

def push (f : Frames) (t : Token) : Frames :=
  { f with inner := { f.inner with current := t :: f.inner.current } }

/-- Starts the next branch. -/
def nextBranch (f : Frames) : Frames :=
  { f with inner := { finished := f.inner.current.reverse :: f.inner.finished } }

/-- Opens a group. -/
def openGroup (f : Frames) : Frames :=
  { inner := {}, outer := f.inner :: f.outer }

/-- Closes the innermost group, which becomes one token of the frame around it. -/
def closeGroup (f : Frames) : Except SyntaxError Frames :=
  match f.outer with
  | [] => .error .unopenedGroup
  | around :: outer => .ok (push ⟨around, outer⟩ (.alternatives f.inner.branches))

/-- The pattern read, once every group is closed. -/
def finish (f : Frames) : Except SyntaxError Pattern :=
  if f.nested then .error .unclosedGroup else .ok f.inner.current.reverse

end Frames

/-! ### Two stars -/

/-- What two stars are read as, given the tokens before them in the branch (newest first), the
character before and the character after them: the tokens then, and whether a slash after the stars
belongs to them. Two stars reach across directories only between slashes, the ends of the pattern
and the ends of a branch; elsewhere they are two runs. -/
def doubleStar (before : List Token) (nested : Bool) (prev next : Option Char) :
    List Token × Bool :=
  let twoRuns := (.anyRun :: .anyRun :: before, false)
  match before with
  | [] =>
    if next = none ∨ next = some '/' then ([.anyAncestors], next = some '/') else twoRuns
  | last :: rest =>
    let afterSlash := prev = some '/' ∨ (nested ∧ (prev = some ',' ∨ prev = some '\x7b'))
    let atEnd := next = none ∨ (nested ∧ (next = some ',' ∨ next = some '\x7d'))
    let slash := next = some '/'
    if afterSlash ∧ (atEnd ∨ slash) then
      match last with
      | .anyAncestors => (.anyAncestors :: rest, slash)
      | .anyDescendants => (.anyDescendants :: rest, slash)
      | _ => ((if atEnd then .anyDescendants else .anyBetween) :: rest, slash)
    else twoRuns

/-! ### Classes -/

/-- A class that is being read; its ranges newest first. -/
structure OpenClass where
  negated : Bool
  ranges : List (Char × Char) := []
  /-- A `-` was read that may still turn out to be a literal. -/
  dash : Bool := false
  deriving Repr

namespace OpenClass

/-- Adds a character as a range of its own. -/
def add (c : Char) (k : OpenClass) : OpenClass :=
  { k with ranges := (c, c) :: k.ranges }

/-- Makes the character the upper end of the last range. -/
def extend (c : Char) (k : OpenClass) : Except SyntaxError OpenClass :=
  match k.ranges with
  | [] => .ok k
  | (low, _) :: rest =>
    if c < low then .error (.invalidRange low c)
    else .ok { k with ranges := (low, c) :: rest, dash := false }

/-- The token once the closing bracket was read; a `-` before the bracket is a literal. -/
def close (k : OpenClass) : Token :=
  .oneOf k.negated (if k.dash then add '-' k else k).ranges.reverse

/-- Takes in one character other than the closing bracket. -/
def take (c : Char) (k : OpenClass) : Except SyntaxError OpenClass :=
  if k.dash then k.extend c
  else if c = '-' ∧ k.ranges ≠ [] then .ok { k with dash := true }
  else .ok (k.add c)

end OpenClass

/-! ### The pass -/

/-- Where the pass is. -/
inductive Mode where
  /-- Outside brackets. -/
  | text
  /-- At a slash that belongs to the two stars before it. -/
  | slashTaken
  /-- Inside brackets. -/
  | inside (k : OpenClass)
  deriving Repr

/-- Reads on from a mode, the frames and the character before. -/
def readFrom : Mode → Frames → Option Char → List Char → Except SyntaxError Pattern
  | .inside _, _, _, [] => .error .unclosedClass
  | .inside k, f, _, c :: rest =>
    if c = ']' ∧ k.ranges ≠ [] then readFrom .text (f.push k.close) (some c) rest
    else do readFrom (.inside (← k.take c)) f (some c) rest
  | .slashTaken, f, _, c :: rest => readFrom .text f (some c) rest
  | _, f, _, [] => f.finish
  | .text, f, _, '?' :: rest => readFrom .text (f.push .anyOctet) (some '?') rest
  | .text, f, prev, '*' :: '*' :: rest =>
    let (tokens, taken) := doubleStar f.inner.current f.nested prev rest.head?
    let f := { f with inner := { f.inner with current := tokens } }
    readFrom (if taken then .slashTaken else .text) f (some '*') rest
  | .text, f, _, '*' :: rest => readFrom .text (f.push .anyRun) (some '*') rest
  | .text, f, _, '[' :: '!' :: rest => readFrom (.inside { negated := true }) f (some '!') rest
  | .text, f, _, '[' :: '^' :: rest => readFrom (.inside { negated := true }) f (some '^') rest
  | .text, f, _, '[' :: rest => readFrom (.inside { negated := false }) f (some '[') rest
  | .text, f, _, '\x7b' :: rest => readFrom .text f.openGroup (some '\x7b') rest
  | .text, f, _, '\x7d' :: rest => do readFrom .text (← f.closeGroup) (some '\x7d') rest
  | .text, f, _, ',' :: rest =>
    readFrom .text (if f.nested then f.nextBranch else f.push (.literal ',')) (some ',') rest
  | .text, _, _, ['\\'] => .error .danglingEscape
  | .text, f, _, '\\' :: c :: rest => readFrom .text (f.push (.literal c)) (some c) rest
  | .text, f, _, c :: rest => readFrom .text (f.push (.literal c)) (some c) rest

/-- The pattern that a text spells. -/
def Pattern.ofString? (s : String) : Except SyntaxError Pattern :=
  readFrom .text {} none s.toList

end KnowledgeImport.Glob
