import KnowledgeImport.Yaml.Scalar
import KnowledgeImport.Text.Utf8

/-!
# Tokens of YAML

The tokens of a text, and how each of those is read that is more than an indicator: directives,
anchors and aliases, tags. Each reading gives what was read and what follows it, or `none` where the
text is not well formed.
-/

namespace KnowledgeImport.Yaml

open Text

/-- How a scalar is written, as far as it matters for its value. -/
inductive ScalarStyle where
  | plain
  | literal
  | other
  deriving DecidableEq, Repr

/-- A token. -/
inductive Token where
  | streamEnd
  | version (major minor : Nat)
  | tagHandle (handle expansion : List Char)
  | documentStart
  | documentEnd
  | blockSequence
  | blockMapping
  | blockEnd
  | openSequence
  | closeSequence
  | openMapping
  | closeMapping
  | blockEntry
  | flowEntry
  | key
  | value
  | alias (name : List Char)
  | anchor (name : List Char)
  | tag (handle suffix : List Char)
  | scalar (style : ScalarStyle) (text : List Char)
  deriving DecidableEq, Repr

/-- The characters that satisfy `p`, from the first on. -/
def takeChars (p : Char → Bool) (spots : List Spot) : List Char × List Spot :=
  ((spots.takeWhile (p ·.char)).map (·.char), spots.dropWhile (p ·.char))

/-- Skips blanks. -/
def skipBlanks (spots : List Spot) : List Spot :=
  spots.dropWhile (isBlank ·.char)

/-- Skips a comment up to the end of its line. -/
def skipComment (spots : List Spot) : List Spot :=
  if peek spots = '#' then spots.dropWhile (!isLineEnd ·.char) else spots

/-! ### Anchors -/

/-- Reads the name of an anchor or alias, from behind its indicator. -/
def readAnchor (spots : List Spot) : Option (List Char × List Spot) :=
  let (name, rest) := takeChars isNameChar spots
  let c := peek rest
  let ends := isGap c || c == '?' || c == ':' || c == ',' || c == ']' || c == '\x7d' || c == '%'
    || c == '@' || c == (Char.ofNat 0x60)
  if name.isEmpty || !ends then none else some (name, rest)

/-! ### Tags -/

/-- A character of the address that a tag is; brackets and commas only where they are `wide`. -/
def isAddressChar (wide : Bool) (c : Char) : Bool :=
  isNameChar c || ";/?:@&=+$.%!~*'()".toList.contains c || (wide && ",[]".toList.contains c)

/-- How many octets the character has that starts with this one. -/
def octetsOf? (lead : Nat) : Option Nat :=
  if lead < 0x80 then some 1
  else if lead / 32 = 6 then some 2
  else if lead / 16 = 14 then some 3
  else if lead / 8 = 30 then some 4
  else none

/-- Reads the octets of an address, with `%` and two digits for one. `due` is how many octets of a
character that was begun in that way are still to come. -/
def readAddress (wide : Bool) (read : List Octet) (due : Nat) :
    List Spot → Option (List Octet × List Spot)
  | s :: t :: u :: rest =>
    if s.char = '%' then
      match hexValue? t.char, hexValue? u.char with
      | some a, some b =>
        let n := a * 16 + b
        let octet := UInt8.ofNat n
        if due = 0 then
          match octetsOf? n with
          | some k => readAddress wide (octet :: read) (k - 1) rest
          | none => none
        else if n / 64 = 2 then readAddress wide (octet :: read) (due - 1) rest
        else none
      | _, _ => none
    else if due > 0 then none
    else if isAddressChar wide s.char then
      readAddress wide (String.utf8EncodeChar s.char ++ read) 0 (t :: u :: rest)
    else some (read.reverse, s :: t :: u :: rest)
  | s :: rest =>
    if s.char = '%' || due > 0 then none
    else if isAddressChar wide s.char then
      readAddress wide (String.utf8EncodeChar s.char ++ read) 0 rest
    else some (read.reverse, s :: rest)
  | [] => if due > 0 then none else some (read.reverse, [])

/-- Reads an address as characters. -/
def readAddressText (wide : Bool) (spots : List Spot) : Option (List Char × List Spot) := do
  let (octets, rest) ← readAddress wide [] 0 spots
  return ((decodeLossy octets).toList, rest)

/-- Reads `!`, `!!` or `!name!`. A name without the second mark is returned as far as it goes. -/
def readHandle (spots : List Spot) : Option (List Char × List Spot) :=
  if peek spots ≠ '!' then none
  else
    let (name, rest) := takeChars isNameChar (spots.drop 1)
    if peek rest = '!' then some ('!' :: name ++ ['!'], rest.drop 1) else some ('!' :: name, rest)

/-- The handle is complete: `!!` or `!name!`. -/
def isFullHandle (handle : List Char) : Bool :=
  handle.length > 1 && handle.getLast? == some '!'

/-- Reads a tag from its mark on: an address in angle brackets, a handle with a suffix, or a suffix
behind a single mark. The tag `!` alone is the suffix of no handle. -/
def readTag (inFlow : Bool) (spots : List Spot) : Option (Token × List Spot) := do
  let (token, rest) ←
    if peekAt 1 spots = '<' then do
      let (suffix, rest) ← readAddressText true (spots.drop 2)
      if suffix.isEmpty || peek rest ≠ '>' then none
      else pure (Token.tag [] suffix, rest.drop 1)
    else do
      let (handle, rest) ← readHandle spots
      let (suffix, rest) ← readAddressText false rest
      if isFullHandle handle then
        if suffix.isEmpty then none else pure (Token.tag handle suffix, rest)
      else
        let suffix := handle.drop 1 ++ suffix
        if suffix.isEmpty then pure (Token.tag [] ['!'], rest)
        else pure (Token.tag ['!'] suffix, rest)
  if isGap (peek rest) || (inFlow && peek rest = ',') then some (token, rest) else none

/-! ### Directives -/

/-- The longest number of a version. -/
def versionDigits : Nat := 9

/-- Reads a number of a version. -/
def readVersionNumber (spots : List Spot) : Option (Nat × List Spot) := do
  let (digits, rest) := takeChars Char.isDigit spots
  if digits.length > versionDigits then none
  return (← numeral? 10 digits, rest)

/-- Reads the value of a directive for the version. -/
def readVersion (spots : List Spot) : Option (Token × List Spot) := do
  let (major, spots) ← readVersionNumber (skipBlanks spots)
  if peek spots ≠ '.' then none
  let (minor, spots) ← readVersionNumber (spots.drop 1)
  return (.version major minor, spots)

/-- Reads the value of a directive for a tag handle. -/
def readTagHandle (spots : List Spot) : Option (Token × List Spot) := do
  let (handle, spots) ← readHandle (skipBlanks spots)
  if handle ≠ ['!'] ∧ !isFullHandle handle then none
  if !isBlank (peek spots) then none
  let (expansion, spots) ← readAddressText true (skipBlanks spots)
  if expansion.isEmpty || !isGap (peek spots) then none
  return (.tagHandle handle expansion, spots)

/-- Reads a directive from behind its mark, with its line. -/
def readDirective (spots : List Spot) : Option (Token × List Spot) := do
  let (name, spots) := takeChars isNameChar spots
  if !isGap (peek spots) then none
  let (token, spots) ←
    if name = "YAML".toList then readVersion spots
    else if name = "TAG".toList then readTagHandle spots
    else none
  let spots := skipComment (skipBlanks spots)
  if !isLineEnd (peek spots) then none
  return (token, if isBreak (peek spots) then spots.drop 1 else spots)

end KnowledgeImport.Yaml
