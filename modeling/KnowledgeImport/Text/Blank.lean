/-!
# Blank characters

The characters with the property White_Space, and what is left of a text without them at its ends.
-/

namespace KnowledgeImport.Text

/-- The character has the property White_Space. -/
def isBlank (c : Char) : Bool :=
  let n := c.toNat
  (9 ≤ n && n ≤ 13) || n == 0x20 || n == 0x85 || n == 0xA0 || n == 0x1680
    || (0x2000 ≤ n && n ≤ 0x200A) || n == 0x2028 || n == 0x2029 || n == 0x202F || n == 0x205F
    || n == 0x3000

/-- The list without the elements at its end that satisfy `p`. -/
def dropTrailing {α : Type} (p : α → Bool) (xs : List α) : List α :=
  (xs.reverse.dropWhile p).reverse

/-- The list without the elements at either end that satisfy `p`. -/
def trimEnds {α : Type} (p : α → Bool) (xs : List α) : List α :=
  dropTrailing p (xs.dropWhile p)

/-- The text without the blank characters at either end. -/
def trim (s : String) : String :=
  String.ofList (trimEnds isBlank s.toList)

/-- The text consists of blank characters only. -/
def isAllBlank (s : String) : Bool :=
  s.toList.all isBlank

end KnowledgeImport.Text
