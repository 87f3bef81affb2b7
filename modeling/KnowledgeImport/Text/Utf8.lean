/-!
# UTF-8

Reading octets as text. A decoder walks the octets one at a time with at most one unfinished
character in hand; every maximal run that can begin no character is reported once. The strict
reading (`decode?`) refuses such a run, the lossy one (`decodeLossy`) writes U+FFFD for it.
-/

namespace KnowledgeImport.Text

/-- An octet of a text or of a file. -/
abbrev Octet := UInt8

namespace Utf8

/-- A character begun but not finished: the bits read so far, how many octets are still to come,
and the range that the next of them must lie in. -/
structure Pending where
  bits : Nat
  missing : Nat
  low : Octet
  high : Octet
  deriving DecidableEq, Repr

/-- What an octet means where a character may begin. -/
inductive Lead where
  | ascii (c : Char)
  | begins (p : Pending)
  | stray
  deriving DecidableEq, Repr

/-- The first octet of a character fixes its length; for four of them it also narrows the second
octet, which keeps out overlong forms, surrogates and numbers above U+10FFFF. -/
def lead (b : Octet) : Lead :=
  let n := b.toNat
  if n < 0x80 then .ascii (Char.ofNat n)
  else if n < 0xC2 then .stray
  else if n < 0xE0 then .begins ⟨n - 0xC0, 1, 0x80, 0xBF⟩
  else if n = 0xE0 then .begins ⟨0, 2, 0xA0, 0xBF⟩
  else if n = 0xED then .begins ⟨0xD, 2, 0x80, 0x9F⟩
  else if n < 0xF0 then .begins ⟨n - 0xE0, 2, 0x80, 0xBF⟩
  else if n = 0xF0 then .begins ⟨0, 3, 0x90, 0xBF⟩
  else if n < 0xF4 then .begins ⟨n - 0xF0, 3, 0x80, 0xBF⟩
  else if n = 0xF4 then .begins ⟨4, 3, 0x80, 0x8F⟩
  else .stray

/-- One decoded piece: a character, or `none` for a maximal ill-formed run. -/
abbrev Piece := Option Char

/-- The pieces that an octet completes where a character may begin, and what stays in hand. -/
def start (b : Octet) : List Piece × Option Pending :=
  match lead b with
  | .ascii c => ([some c], none)
  | .begins p => ([], some p)
  | .stray => ([none], none)

/-- One octet. An octet that cannot continue the character in hand ends an ill-formed run and is
looked at again as the beginning of the next character. -/
def step (held : Option Pending) (b : Octet) : List Piece × Option Pending :=
  match held with
  | none => start b
  | some p =>
    if p.low ≤ b ∧ b ≤ p.high then
      let bits := p.bits * 64 + (b.toNat - 0x80)
      if p.missing ≤ 1 then ([some (Char.ofNat bits)], none)
      else ([], some ⟨bits, p.missing - 1, 0x80, 0xBF⟩)
    else
      let (pieces, next) := start b
      (none :: pieces, next)

/-- The pieces of a text, from a given state on. An unfinished character at the end is an
ill-formed run. -/
def piecesFrom : Option Pending → List Octet → List Piece
  | none, [] => []
  | some _, [] => [none]
  | held, b :: bs =>
    let (pieces, next) := step held b
    pieces ++ piecesFrom next bs

/-- The pieces of a text. -/
def pieces (bs : List Octet) : List Piece :=
  piecesFrom none bs

end Utf8

/-- The text that the octets spell, if they are well-formed UTF-8. -/
def decode? (bs : List Octet) : Option String :=
  ((Utf8.pieces bs).mapM id).map String.ofList

/-- The text that the octets spell, with U+FFFD for each maximal ill-formed run. -/
def decodeLossy (bs : List Octet) : String :=
  String.ofList ((Utf8.pieces bs).map (·.getD '\uFFFD'))

/-- The UTF-8 octets of a text. -/
def encode (s : String) : List Octet :=
  s.toList.flatMap String.utf8EncodeChar

end KnowledgeImport.Text
