/-!
# Characters of a YAML text

The characters of a text with the place of each: how many characters come before it, and its line
and column. Of the line breaks CR, LF, CR LF and NEL are all written as LF; the end of the text is a
spot of its own, which holds NUL, a character that no text has.
-/

namespace KnowledgeImport.Yaml

/-- A character and its place. -/
structure Spot where
  char : Char
  index : Nat
  line : Nat
  column : Nat
  deriving DecidableEq, Repr

/-- The character that stands for the end of the text. -/
def endChar : Char := '\x00'

/-- A text may have the character at all. -/
def isAllowed (c : Char) : Bool :=
  let n := c.toNat
  n == 0x09 || n == 0x0A || n == 0x0D || (0x20 ≤ n && n ≤ 0x7E) || n == 0x85
    || (0xA0 ≤ n && n ≤ 0xD7FF) || (0xE000 ≤ n && n ≤ 0xFFFD) || 0x10000 ≤ n

/-- The character ends a line. -/
def isBreak (c : Char) : Bool :=
  c == '\n' || c == '\r' || c == '\x85' || c == '\u2028' || c == '\u2029'

/-- A space or a tab. -/
def isBlank (c : Char) : Bool :=
  c == ' ' || c == '\t'

/-- The end of a line or of the text. -/
def isLineEnd (c : Char) : Bool :=
  isBreak c || c == endChar

/-- A blank, or the end of a line or of the text. -/
def isGap (c : Char) : Bool :=
  isBlank c || isLineEnd c

/-- A character of names: an ASCII letter or digit, `_` or `-`. -/
def isNameChar (c : Char) : Bool :=
  c.isAlphanum || c == '_' || c == '-'

/-- The byte order mark. -/
def byteOrderMark : Char := '\uFEFF'

namespace Spot

/-- The spots of the characters from a place on. -/
def spotsFrom (index line column : Nat) : List Char → List Spot
  | [] => [⟨endChar, index, line, column⟩]
  | '\r' :: '\n' :: cs => ⟨'\n', index, line, column⟩ :: spotsFrom (index + 2) (line + 1) 0 cs
  | c :: cs =>
    if isBreak c then
      let shown := if c = '\u2028' ∨ c = '\u2029' then c else '\n'
      ⟨shown, index, line, column⟩ :: spotsFrom (index + 1) (line + 1) 0 cs
    else ⟨c, index, line, column⟩ :: spotsFrom (index + 1) line (column + 1) cs

/-- The spots of a text; a byte order mark at its start is not part of it. -/
def spots (s : String) : List Spot :=
  match s.toList with
  | c :: cs => spotsFrom 0 0 0 (if c = byteOrderMark then cs else c :: cs)
  | [] => spotsFrom 0 0 0 []

end Spot

/-- The first character, or the end. -/
def peek (spots : List Spot) : Char :=
  match spots with
  | s :: _ => s.char
  | [] => endChar

/-- The character after the first `n`, or the end. -/
def peekAt (n : Nat) (spots : List Spot) : Char :=
  peek (spots.drop n)

/-- The place of the first spot. -/
def place (spots : List Spot) : Spot :=
  spots.headD ⟨endChar, 0, 0, 0⟩

/-- The spots start with three times the character and a gap, at the start of a line. -/
def isRule (c : Char) (spots : List Spot) : Bool :=
  (place spots).column == 0 && peek spots == c && peekAt 1 spots == c && peekAt 2 spots == c
    && isGap (peekAt 3 spots)

/-- The spots start with a line that separates documents. -/
def isDocumentLine (spots : List Spot) : Bool :=
  isRule '-' spots || isRule '.' spots

end KnowledgeImport.Yaml
