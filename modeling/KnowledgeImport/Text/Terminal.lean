/-!
# Text without terminal controls

What is left of a text when it is not shown on a terminal: escape sequences go, and so do control
characters other than the tabulator and those that end a line or a page.
-/

namespace KnowledgeImport.Text

/-- Where in an escape sequence a character stands. -/
inductive EscapeState where
  /-- Outside of any sequence. -/
  | ground
  /-- After the escape character. -/
  | escape
  /-- After the escape character and intermediate characters. -/
  | intermediate
  /-- In a control sequence, which a character from `@` to `~` ends. -/
  | control
  /-- In an operating system command, which a bell ends. -/
  | command
  /-- In a device control or privacy string, which only a new escape sequence ends. -/
  | message
  deriving DecidableEq, Repr

namespace EscapeState

/-- The character is a control character that is shown. -/
def isShownControl (c : Char) : Bool :=
  c = '\t' || c = '\n' || c = '\x0c' || c = '\r'

/-- The state after a character and whether the character is shown. A shown character ends any
sequence. -/
def step (s : EscapeState) (c : Char) : EscapeState × Bool :=
  let n := c.toNat
  if n = 0x18 ∨ n = 0x1A then (.ground, false)
  else if n = 0x1B then (.escape, false)
  else if n ≥ 0x80 then (.ground, true)
  else match s with
    | .command => (if n = 0x07 then .ground else .command, false)
    | .message => (.message, false)
    | .ground => (.ground, n ≠ 0x7F && (n ≥ 0x20 || isShownControl c))
    | s =>
      if n < 0x20 then if isShownControl c then (.ground, true) else (s, false)
      else if n = 0x7F then (s, false)
      else match s with
        | .escape =>
          if n < 0x30 then (.intermediate, false)
          else if c = '[' then (.control, false)
          else if c = ']' then (.command, false)
          else if c = 'P' ∨ c = 'X' ∨ c = '^' ∨ c = '_' then (.message, false)
          else (.ground, false)
        | .intermediate => (if n < 0x30 then .intermediate else .ground, false)
        | _ => (if n < 0x40 then .control else .ground, false)

end EscapeState

/-- The characters that are shown, from a state on. -/
def shownCharacters : EscapeState → List Char → List Char
  | _, [] => []
  | s, c :: cs =>
    let (s, shown) := s.step c
    if shown then c :: shownCharacters s cs else shownCharacters s cs

/-- The text without escape sequences and control characters. -/
def withoutControls (s : String) : String :=
  String.ofList (shownCharacters .ground s.toList)

end KnowledgeImport.Text
