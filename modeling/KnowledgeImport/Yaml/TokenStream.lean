import KnowledgeImport.Yaml.Token

/-!
# The tokens of a YAML text

Indentation opens and closes block collections, and a node turns out to be a key only when the colon
behind it is found; its key token then goes in front of tokens that were read before. A token is
handed on once no key can be put in front of it any more, so where a text is not well formed the
tokens handed on so far are those before the first possible key.
-/

namespace KnowledgeImport.Yaml

/-- A node that will be a key if a colon follows it. -/
structure PossibleKey where
  /-- It stands where block mappings have their keys, so it has to be one. -/
  required : Bool
  /-- The number of its first token. -/
  number : Nat
  index : Nat
  line : Nat
  column : Nat
  deriving Repr

/-- A text of which some tokens have been read. -/
structure TokenReader where
  rest : List Spot
  tokens : Array Token := #[]
  /-- The columns of the open block collections, the innermost first. -/
  columns : List Nat := []
  /-- The possible key outside of flow collections. -/
  blockKey : Option PossibleKey := none
  /-- The possible keys in the open flow collections, the innermost first. -/
  flowKeys : List (Option PossibleKey) := []
  /-- A key may stand here. -/
  keyAllowed : Bool := true
  /-- How many tokens have been handed on. -/
  handedOn : Nat := 0

namespace TokenReader

/-- How far a key may be from its colon. -/
def keyReach : Nat := 1024

/-- The reader is in a flow collection. -/
def inFlow (r : TokenReader) : Bool :=
  !r.flowKeys.isEmpty

/-- The place of the next character. -/
def here (r : TokenReader) : Spot :=
  place r.rest

/-- The possible key of the innermost flow collection, or of the block. -/
def currentKey (r : TokenReader) : Option PossibleKey :=
  match r.flowKeys with
  | k :: _ => k
  | [] => r.blockKey

def setCurrentKey (r : TokenReader) (k : Option PossibleKey) : TokenReader :=
  match r.flowKeys with
  | _ :: ks => { r with flowKeys := k :: ks }
  | [] => { r with blockKey := k }

/-- One more token. -/
def push (r : TokenReader) (t : Token) : TokenReader :=
  { r with tokens := r.tokens.push t }

/-- A token in front of the one with the given number. -/
def insert (r : TokenReader) (number : Nat) (t : Token) : TokenReader :=
  { r with tokens := r.tokens.insertIdxIfInBounds number t }

/-- Leaves out the next `n` characters. -/
def skip (r : TokenReader) (n : Nat) : TokenReader :=
  { r with rest := r.rest.drop n }

/-! ### Possible keys -/

/-- The key can no longer be followed by its colon: that has to stand on the same line. -/
def PossibleKey.isStale (k : PossibleKey) (here : Spot) : Bool :=
  k.line < here.line || k.index + keyReach < here.index

/-- The key, unless it has become stale; a required one may not. -/
def refreshKey (here : Spot) : Option PossibleKey → Option (Option PossibleKey)
  | none => some none
  | some k =>
    if PossibleKey.isStale k here then if k.required then none else some none else some (some k)

/-- Drops the keys that have become stale. -/
def dropStale (r : TokenReader) : Option TokenReader := do
  let blockKey ← refreshKey r.here r.blockKey
  let flowKeys ← r.flowKeys.mapM (refreshKey r.here)
  return { r with blockKey, flowKeys }

/-- Drops the current key, because its colon does not follow. -/
def dropKey (r : TokenReader) : Option TokenReader :=
  match r.currentKey with
  | some k => if k.required then none else some (r.setCurrentKey none)
  | none => some r

/-- Notes that the next token may begin a key. -/
def noteKey (r : TokenReader) : Option TokenReader :=
  if r.keyAllowed then do
    let s := r.here
    let required := !r.inFlow && r.columns.head? == some s.column
    let r ← r.dropKey
    return r.setCurrentKey (some ⟨required, r.tokens.size, s.index, s.line, s.column⟩)
  else some r

/-- Hands on the tokens that no key can be put in front of. -/
def handOn (r : TokenReader) : TokenReader :=
  let numbers := (r.blockKey :: r.flowKeys).filterMap fun k => k.map (·.number)
  { r with handedOn := numbers.foldl min r.tokens.size }

/-! ### Block collections -/

/-- The column lies right of the innermost block collection. -/
def isDeeper (r : TokenReader) (column : Nat) : Bool :=
  match r.columns with
  | c :: _ => c < column
  | [] => true

/-- Opens a block collection at a column, unless one is open there. -/
def openBlock (r : TokenReader) (column number : Nat) (t : Token) : TokenReader :=
  if !r.inFlow && r.isDeeper column then
    { r with columns := column :: r.columns }.insert number t
  else r

/-- Closes the block collections right of a column. -/
def closeBlocks (r : TokenReader) (column : Nat) : TokenReader :=
  if r.inFlow then r
  else
    let closed := r.columns.takeWhile (column < ·)
    { r with
      columns := r.columns.dropWhile (column < ·)
      tokens := closed.foldl (fun ts _ => ts.push .blockEnd) r.tokens }

/-- Closes all block collections. -/
def closeAllBlocks (r : TokenReader) : TokenReader :=
  if r.inFlow then r
  else { r with
    columns := []
    tokens := r.columns.foldl (fun ts _ => ts.push .blockEnd) r.tokens }

/-! ### Kinds of tokens -/

/-- An indicator of one character. -/
def indicator (r : TokenReader) (t : Token) : TokenReader :=
  (r.skip 1).push t

/-- The end of the text. Behind it no key finds its colon any more. -/
def finish (r : TokenReader) : Option TokenReader :=
  if r.blockKey.any (·.required) then none else some (r.closeAllBlocks.push .streamEnd)

/-- A directive. -/
def directive (r : TokenReader) : Option TokenReader := do
  let r ← r.closeAllBlocks.dropKey
  let (t, rest) ← readDirective (r.rest.drop 1)
  return { r with rest, keyAllowed := false }.push t

/-- A line that separates documents. -/
def documentLine (r : TokenReader) (t : Token) : Option TokenReader := do
  let r ← r.closeAllBlocks.dropKey
  return ({ r with keyAllowed := false }.skip 3).push t

/-- The start of a flow collection. -/
def openFlow (r : TokenReader) (t : Token) : Option TokenReader := do
  let r ← r.noteKey
  return { r with flowKeys := none :: r.flowKeys, keyAllowed := true }.indicator t

/-- The end of a flow collection. -/
def closeFlow (r : TokenReader) (t : Token) : Option TokenReader := do
  let r ← r.dropKey
  return { r with flowKeys := r.flowKeys.drop 1, keyAllowed := false }.indicator t

/-- A comma between entries. -/
def flowEntry (r : TokenReader) : Option TokenReader := do
  let r ← r.dropKey
  return { r with keyAllowed := true }.indicator .flowEntry

/-- A dash in front of an entry. -/
def blockEntry (r : TokenReader) : Option TokenReader := do
  if !r.inFlow && !r.keyAllowed then none
  let r := r.openBlock r.here.column r.tokens.size .blockSequence
  let r ← r.dropKey
  return { r with keyAllowed := true }.indicator .blockEntry

/-- A question mark in front of a key. -/
def key (r : TokenReader) : Option TokenReader := do
  if !r.inFlow && !r.keyAllowed then none
  let r := r.openBlock r.here.column r.tokens.size .blockMapping
  let r ← r.dropKey
  return { r with keyAllowed := !r.inFlow }.indicator .key

/-- A colon behind a key. -/
def value (r : TokenReader) : Option TokenReader :=
  match r.currentKey with
  | some k =>
    let r := (r.insert k.number .key).openBlock k.column k.number .blockMapping
    some ({ r.setCurrentKey none with keyAllowed := false }.indicator .value)
  | none =>
    if !r.inFlow && !r.keyAllowed then none
    else
      let r := r.openBlock r.here.column r.tokens.size .blockMapping
      some ({ r with keyAllowed := !r.inFlow }.indicator .value)

/-- A node that may be a key, from the reading of its token. -/
def node (r : TokenReader) (read : Option (Token × List Spot)) : Option TokenReader := do
  let r ← r.noteKey
  let (t, rest) ← read
  return { r with rest, keyAllowed := false }.push t

/-- An anchor or an alias. -/
def anchor (r : TokenReader) (make : List Char → Token) : Option TokenReader :=
  r.node ((readAnchor (r.rest.drop 1)).map fun (name, rest) => (make name, rest))

/-- A block scalar. -/
def blockScalar (r : TokenReader) (literal : Bool) : Option TokenReader := do
  let r ← r.dropKey
  let s ← readBlock literal r.columns.head? (r.rest.drop 1)
  let style := if literal then .literal else .other
  return { r with rest := s.rest, keyAllowed := true }.push (.scalar style s.text)

/-- A scalar in quotes. -/
def quotedScalar (r : TokenReader) (single : Bool) : Option TokenReader :=
  r.node ((readQuoted single [] {} .afterGap (r.rest.drop 1)).map fun s =>
    (.scalar .other s.text, s.rest))

/-- A plain scalar. After one that ends with its line a key may stand. -/
def plainScalar (r : TokenReader) : Option TokenReader := do
  let r ← r.noteKey
  let indent := match r.columns with
    | c :: _ => c + 1
    | [] => 0
  let s ← readPlain r.inFlow indent [] {} .afterGap r.rest
  return { r with rest := s.rest, keyAllowed := s.endsLine }.push (.scalar .plain s.text)

/-- A plain scalar may start with the character before `next`. -/
def startsPlain (inFlow : Bool) (c next : Char) : Bool :=
  let indicators := "-?:,[]#&*!|>'\"%@".toList
  let special := isGap c || c == '\x7b' || c == '\x7d' || c == Char.ofNat 0x60
    || indicators.contains c
  !special || (c == '-' && !isBlank next) || (!inFlow && (c == '?' || c == ':') && !isGap next)

/-! ### The next token -/

/-- Skips blanks, line breaks and comments. Tabs are skipped where they are no indentation, and
outside of flow collections a key may stand after a line break. -/
def skipGap (inFlow : Bool) (allowed inComment : Bool) : List Spot → List Spot × Bool
  | [] => ([], allowed)
  | s :: rest =>
    let c := s.char
    if c = endChar then (s :: rest, allowed)
    else if isBreak c then skipGap inFlow (allowed || !inFlow) false rest
    else if inComment then skipGap inFlow allowed true rest
    else if c = byteOrderMark && s.column = 0 then skipGap inFlow allowed false rest
    else if c = ' ' || (c = '\t' && (inFlow || !allowed)) then skipGap inFlow allowed false rest
    else if c = '#' then skipGap inFlow allowed true rest
    else (s :: rest, allowed)

/-- Reads the token that starts with the next character. -/
def dispatch (r : TokenReader) : Option TokenReader :=
  let c := peek r.rest
  let next := peekAt 1 r.rest
  let flow := r.inFlow
  if c = endChar then r.finish
  else if c = '%' && r.here.column = 0 then r.directive
  else if isRule '-' r.rest then r.documentLine .documentStart
  else if isRule '.' r.rest then r.documentLine .documentEnd
  else if c = '[' then r.openFlow .openSequence
  else if c = '\x7b' then r.openFlow .openMapping
  else if c = ']' then r.closeFlow .closeSequence
  else if c = '\x7d' then r.closeFlow .closeMapping
  else if c = ',' then r.flowEntry
  else if c = '-' && isGap next then r.blockEntry
  else if c = '?' && (flow || isGap next) then r.key
  else if c = ':' && (flow || isGap next) then r.value
  else if c = '*' then r.anchor .alias
  else if c = '&' then r.anchor .anchor
  else if c = '!' then r.node (readTag flow r.rest)
  else if c = '|' && !flow then r.blockScalar true
  else if c = '>' && !flow then r.blockScalar false
  else if c = '\'' then r.quotedScalar true
  else if c = '"' then r.quotedScalar false
  else if startsPlain flow c next then r.plainScalar
  else none

/-- Reads the next token, with what it opens and closes. -/
def readNext (r : TokenReader) : Option TokenReader := do
  let (rest, keyAllowed) := skipGap r.inFlow r.keyAllowed false r.rest
  let r ← { r with rest, keyAllowed }.dropStale
  (r.closeBlocks r.here.column).dispatch

/-- The last token has been read. -/
def isDone (r : TokenReader) : Bool :=
  r.tokens.back? == some .streamEnd

/-- Reads tokens to the end of the text, or as far as it is well formed. Every token takes at least
one character, so there are no more steps than characters. -/
def readAll : Nat → TokenReader → TokenReader
  | 0, r => r
  | steps + 1, r =>
    if r.isDone then r
    else match r.dropStale with
      | none => r
      | some r =>
        let r := r.handOn
        match r.readNext with
        | none => r
        | some r => readAll steps r

end TokenReader

/-- The tokens of a text as far as it is well formed. The last one of a text that is so as a whole
is the end of the stream. -/
def tokens (s : String) : List Token :=
  if s.toList.all isAllowed then
    let spots := Spot.spots s
    let r := TokenReader.readAll (spots.length + 1) { rest := spots }
    if r.isDone then r.tokens.toList else (r.tokens.toList.take r.handedOn)
  else []

end KnowledgeImport.Yaml
