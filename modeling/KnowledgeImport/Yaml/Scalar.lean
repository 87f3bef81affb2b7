import KnowledgeImport.Yaml.Spot
import KnowledgeImport.Text.Ascii

/-!
# Scalars of YAML

How the three ways to write a scalar are read: plain, in quotes, and as an indented block. Lines are
folded: a single line break between words is a space, and of several the first is left out.
-/

namespace KnowledgeImport.Yaml

open Text

/-- A scalar that was read, and what follows it. -/
structure ScalarText where
  text : List Char
  rest : List Spot
  /-- Line breaks follow the scalar; after those a key may stand. -/
  endsLine : Bool := false

/-! ### Folding -/

/-- The blanks and line breaks since the last character of a scalar. -/
structure Fold where
  /-- The blanks before the first line break, the last one first. -/
  blanks : List Char := []
  /-- A line has ended. -/
  broken : Bool := false
  /-- The first line break. -/
  first : Option Char := none
  /-- The line breaks after it, the last one first. -/
  more : List Char := []

namespace Fold

/-- One more blank; after a line break it is indentation. -/
def blank (f : Fold) (c : Char) : Fold :=
  if f.broken then f else { f with blanks := c :: f.blanks }

/-- One more line break. -/
def lineBreak (f : Fold) (c : Char) : Fold :=
  if f.broken then { f with more := c :: f.more }
  else { f with blanks := [], broken := true, first := some c }

/-- What stands for the blanks and breaks, the last character first. -/
def joined (f : Fold) : List Char :=
  if !f.broken then f.blanks
  else if f.first = some '\n' then if f.more.isEmpty then [' '] else f.more
  else f.more ++ f.first.toList

end Fold

/-! ### Plain scalars -/

/-- The character ends a plain scalar in a flow collection. -/
def isFlowIndicator (c : Char) : Bool :=
  c == ',' || c == '[' || c == ']' || c == '\x7b' || c == '\x7d'

/-- Where a plain scalar has come to. -/
inductive PlainSpot where
  /-- At its start, or after blanks or breaks. -/
  | afterGap
  | inWord

/-- Reads a plain scalar. `indent` is the least column of its further lines outside of flow
collections; `read` is what was read so far, the last character first. -/
def readPlain (inFlow : Bool) (indent : Nat) (read : List Char) (fold : Fold) (spot : PlainSpot) :
    List Spot → Option ScalarText
  | [] => some ⟨read.reverse, [], fold.broken⟩
  | s :: rest =>
    let stop : Option ScalarText := some ⟨read.reverse, s :: rest, fold.broken⟩
    let c := s.char
    if isBlank c then
      if fold.broken && s.column < indent && c = '\t' then none
      else readPlain inFlow indent read (fold.blank c) .afterGap rest
    else if isBreak c then readPlain inFlow indent read (fold.lineBreak c) .afterGap rest
    else if c = endChar then stop
    else
      let outdented := fold.broken && !inFlow && s.column < indent
      let marks := match spot with
        | .afterGap => outdented || isDocumentLine (s :: rest) || c = '#'
        | .inWord => false
      if marks then stop
      else if inFlow && c = ':' && (isFlowIndicator (peek rest) || peek rest = '?') then none
      else if (c = ':' && isGap (peek rest)) || (inFlow && isFlowIndicator c) then stop
      else readPlain inFlow indent (c :: (fold.joined ++ read)) {} .inWord rest

/-! ### Quoted scalars -/

/-- What an escape of one letter stands for. -/
def escaped? (c : Char) : Option Char :=
  match c with
  | '0' => some '\x00'
  | 'a' => some '\x07'
  | 'b' => some '\x08'
  | 't' | '\t' => some '\t'
  | 'n' => some '\n'
  | 'v' => some '\x0b'
  | 'f' => some '\x0c'
  | 'r' => some '\r'
  | 'e' => some '\x1b'
  | ' ' => some ' '
  | '"' => some '"'
  | '/' => some '/'
  | '\\' => some '\\'
  | 'N' => some '\x85'
  | '_' => some '\xa0'
  | 'L' => some '\u2028'
  | 'P' => some '\u2029'
  | _ => none

/-- How many digits follow an escape for a code point. -/
def escapeDigits? (c : Char) : Option Nat :=
  match c with
  | 'x' => some 2
  | 'u' => some 4
  | 'U' => some 8
  | _ => none

/-- The character of a code point. -/
def codePoint? (n : Nat) : Option Char :=
  if h : n.isValidChar then some (Char.ofNatAux n h) else none

/-- Where a quoted scalar has come to. -/
inductive QuotedSpot where
  /-- At its start, or after blanks or breaks. -/
  | afterGap
  | inWord
  /-- After a quote in single quotes, which is doubled unless it ends the scalar. -/
  | quote
  /-- After a backslash. -/
  | escape
  /-- In an escape for a code point, with so many digits to come. -/
  | digits (missing value : Nat)

/-- Reads a quoted scalar, from behind its opening quote. -/
def readQuoted (single : Bool) (read : List Char) (fold : Fold) (spot : QuotedSpot) :
    List Spot → Option ScalarText
  | [] => none
  | s :: rest =>
    let c := s.char
    let quote := if single then '\'' else '"'
    match spot with
    | .quote =>
      if c = quote then readQuoted single (quote :: read) {} .inWord rest
      else some ⟨read.reverse, s :: rest, false⟩
    | .escape =>
      if isBreak c then readQuoted single read { broken := true } .afterGap rest
      else match escapeDigits? c, escaped? c with
        | some n, _ => readQuoted single read {} (.digits n 0) rest
        | none, some d => readQuoted single (d :: read) {} .inWord rest
        | none, none => none
    | .digits missing value =>
      match hexValue? c with
      | none => none
      | some d =>
        let value := value * 16 + d
        if missing ≤ 1 then
          match codePoint? value with
          | some d => readQuoted single (d :: read) {} .inWord rest
          | none => none
        else readQuoted single read {} (.digits (missing - 1) value) rest
    | .afterGap | .inWord =>
      let marks := match spot with
        | .afterGap => !isGap c && isDocumentLine (s :: rest)
        | _ => false
      if marks || c = endChar then none
      else if isBlank c then readQuoted single read (fold.blank c) .afterGap rest
      else if isBreak c then readQuoted single read (fold.lineBreak c) .afterGap rest
      else
        let read := fold.joined ++ read
        if c = quote then
          if single then readQuoted single read {} .quote rest
          else some ⟨read.reverse, rest, false⟩
        else if !single && c = '\\' then readQuoted single read {} .escape rest
        else readQuoted single (c :: read) {} .inWord rest

/-! ### Block scalars -/

/-- What becomes of the line breaks at the end of a block scalar. -/
inductive Chomping where
  | strip
  | clip
  | keep
  deriving DecidableEq, Repr

/-- The chomping of an indicator. -/
def chomping? (c : Char) : Option Chomping :=
  if c = '+' then some .keep else if c = '-' then some .strip else none

/-- The indicators after the one that opens a block scalar, in either order: how line breaks at the
end are treated, and how deep the text is indented (0 if that is not said). -/
def readIndicators (spots : List Spot) : Option (Chomping × Nat × List Spot) :=
  let increment? (c : Char) : Option Nat := digitValue? c
  match chomping? (peek spots) with
  | some chomping =>
    let spots := spots.drop 1
    match increment? (peek spots) with
    | some 0 => none
    | some n => some (chomping, n, spots.drop 1)
    | none => some (chomping, 0, spots)
  | none =>
    match increment? (peek spots) with
    | some 0 => none
    | some n =>
      let spots := spots.drop 1
      match chomping? (peek spots) with
      | some chomping => some (chomping, n, spots.drop 1)
      | none => some (.clip, n, spots)
    | none => some (.clip, 0, spots)

/-- A block scalar on its way. -/
structure Block where
  literal : Bool
  /-- The column of its text; 0 as long as it is not known. -/
  indent : Nat
  /-- The column that its text has at least. -/
  least : Nat
  /-- The largest column that a line before the text has reached. -/
  widest : Nat := 0
  /-- What was read, the last character first. -/
  read : List Char := []
  /-- The line break after the last line of text. -/
  lineBreak : List Char := []
  /-- The line breaks after it, the last one first. -/
  more : List Char := []
  /-- The last line of text started with a blank. -/
  blankLine : Bool := false

namespace Block

/-- The block with its column known: where nothing said otherwise, that of its widest line. -/
def settled (b : Block) : Block :=
  if b.indent = 0 then { b with indent := max (max b.widest b.least) 1 } else b

/-- The block at the start of a line whose first character is `c`. Line breaks before it are folded
unless it or the line before starts with a blank. -/
def startLine (b : Block) (c : Char) : Block :=
  let fold := !b.literal && b.lineBreak = ['\n'] && !b.blankLine && !isBlank c
  let gap :=
    if fold then if b.more.isEmpty then [' '] else b.more
    else b.more ++ b.lineBreak
  { b with read := gap ++ b.read, lineBreak := [], more := [], blankLine := isBlank c }

/-- The text of the block. -/
def chomped (b : Block) (chomping : Chomping) : List Char :=
  let text := match chomping with
    | .strip => b.read
    | .clip => b.lineBreak ++ b.read
    | .keep => b.more ++ b.lineBreak ++ b.read
  text.reverse

end Block

/-- Reads the lines of a block scalar. `inLine` says that a line of text has begun. -/
def readBlockLines (chomping : Chomping) (inLine : Bool) (b : Block) :
    List Spot → Option ScalarText
  | [] => some ⟨b.chomped chomping, [], true⟩
  | s :: rest =>
    let c := s.char
    let stop (b : Block) : Option ScalarText := some ⟨b.chomped chomping, s :: rest, true⟩
    if inLine then
      if c = endChar then stop { b with lineBreak := [] }
      else if isBreak c then readBlockLines chomping false { b with lineBreak := [c] } rest
      else readBlockLines chomping true { b with read := c :: b.read } rest
    else
      let outside := b.indent = 0 || s.column < b.indent
      if outside && c = ' ' then readBlockLines chomping false b rest
      else
        let b := { b with widest := max b.widest s.column }
        if outside && c = '\t' then none
        else if isBreak c then readBlockLines chomping false { b with more := c :: b.more } rest
        else
          let b := b.settled
          if s.column = b.indent && c ≠ endChar then
            let b := b.startLine c
            readBlockLines chomping true { b with read := c :: b.read } rest
          else stop b

/-- Reads a block scalar from behind the indicator that opens it. `parent` is the column of the
collection around it, if there is one. -/
def readBlock (literal : Bool) (parent : Option Nat) (spots : List Spot) : Option ScalarText := do
  let (chomping, increment, spots) ← readIndicators spots
  let spots := spots.dropWhile (isBlank ·.char)
  let spots := if peek spots = '#' then spots.dropWhile (!isLineEnd ·.char) else spots
  if !isLineEnd (peek spots) then none
  let spots := if isBreak (peek spots) then spots.drop 1 else spots
  let indent := if increment = 0 then 0 else parent.getD 0 + increment
  let least := match parent with
    | some n => n + 1
    | none => 0
  readBlockLines chomping false { literal, indent, least } spots

end KnowledgeImport.Yaml
