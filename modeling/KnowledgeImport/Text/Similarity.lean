import KnowledgeImport.Text.Ascii

/-!
# Similar words

The Jaro similarity of two words, a number from 0 to 1. Two places agree if they hold the same
character and lie close together, where close means less than half the length of the longer word
apart; every place agrees with one other at most. The similarity is the mean of three shares: of
the first word's places that agree, of the second word's, and of the agreeing places that are in
the same order in both words.
-/

namespace KnowledgeImport.Text

/-- The places of a word, with a mark on those that agree with one of the other word. -/
abbrev Marking := List (Char × Bool)

namespace Marking

/-- No mark yet. -/
def ofWord (w : List Char) : Marking :=
  w.map (·, false)

/-- Marks the first place that is free and holds `c`, among the places from `first` to before
`last`. -/
def mark? (c : Char) : (first last : Nat) → Marking → Option Marking
  | _, _, [] => none
  | _, 0, _ => none
  | 0, last + 1, (d, taken) :: rest =>
    if c = d ∧ taken = false then some ((d, true) :: rest)
    else (mark? c 0 last rest).map ((d, taken) :: ·)
  | first + 1, last + 1, place :: rest => (mark? c first last rest).map (place :: ·)

/-- The characters at the marked places. -/
def marked (m : Marking) : List Char :=
  (m.filter (·.2)).map (·.1)

end Marking

/-- How far apart places may be to agree. -/
def reach (a b : List Char) : Nat :=
  max a.length b.length / 2 - 1

/-- Looks for a partner of each place of a word from place `i` on: the characters that found one,
and the other word with its partners marked. -/
def pairUp (reach : Nat) : (i : Nat) → List Char → Marking → List Char × Marking
  | _, [], m => ([], m)
  | i, c :: cs, m =>
    match m.mark? c (i - reach) (i + reach + 1) with
    | some m =>
      let (agreeing, m) := pairUp reach (i + 1) cs m
      (c :: agreeing, m)
    | none => pairUp reach (i + 1) cs m

/-- The Jaro similarity of two words. -/
def similarity (a b : List Char) : Rat :=
  let (agreeing, m) := pairUp (reach a b) 0 a (Marking.ofWord b)
  if agreeing.isEmpty then if a.isEmpty && b.isEmpty then 1 else 0
  else
    let n := agreeing.length
    let swapped := ((agreeing.zip m.marked).filter fun p => p.1 ≠ p.2).length / 2
    ((n : Rat) / a.length + (n : Rat) / b.length + ((n - swapped : Nat) : Rat) / n) / 3

end KnowledgeImport.Text
