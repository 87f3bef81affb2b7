import KnowledgeImport.Text.Ascii

/-!
# Tokens of JSON

A text is cut into tokens one character at a time. Texts in quotes are read in two ways at once:
strictly, where every escape has to stand for a character, and loosely, where half of a surrogate
pair may stand alone; a member that nobody asks for is read loosely.
-/

namespace KnowledgeImport.Json

open Text

/-- Why a text is not JSON. -/
inductive Fault where
  /-- Something stands where it may not. -/
  | malformed
  /-- The text ends early. -/
  | endsEarly
  deriving DecidableEq, Repr

/-- A number as it is written. -/
structure Numeral where
  negative : Bool := false
  whole : List Char := []
  fraction : List Char := []
  /-- The sign (`true` for minus) and the digits of the exponent. -/
  exponent : Option (Bool × List Char) := none
  deriving DecidableEq, Repr

/-- A text between quotes, as the strict reading has it. -/
inductive Spelling where
  | text (s : String)
  | faulty (f : Fault)
  deriving DecidableEq, Repr

/-- A token. -/
inductive Token where
  | openArray
  | closeArray
  | openObject
  | closeObject
  | comma
  | colon
  | null
  | bool (b : Bool)
  | numeral (n : Numeral)
  | text (s : Spelling)
  /-- A text whose end is not found, by the strict and by the loose reading. -/
  | openText (strict loose : Fault)
  /-- Nothing that could be read; it is the last token. -/
  | broken (f : Fault)
  deriving DecidableEq, Repr

namespace Lexer

/-- How far a number has come. -/
inductive Part where
  | sign
  | zero
  | whole
  | point
  | fraction
  | exponentMark
  | exponentSign
  | exponent
  deriving DecidableEq, Repr

/-- A text on its way. -/
structure Partial where
  /-- The characters so far, the last one first. -/
  read : List Char := []
  /-- The first fault of the strict reading. -/
  fault : Option Fault := none
  /-- The first half of a surrogate pair whose second half must follow. -/
  half : Option Nat := none
  deriving DecidableEq, Repr

/-- What has been read of the present token. -/
inductive State where
  | between
  | word (rest : List Char) (token : Token)
  | number (part : Part) (n : Numeral)
  | text (p : Partial)
  | escape (p : Partial)
  /-- After `\u`: the octets since then, and their value as long as all are digits. -/
  | unit (p : Partial) (octets : Nat) (value : Option Nat)
  | stopped
  deriving DecidableEq, Repr

/-! ### Texts -/

namespace Partial

/-- Notes a fault of the strict reading; the first one counts. -/
def blame (p : Partial) (f : Fault) : Partial :=
  { p with fault := some (p.fault.getD f) }

/-- A missing second half is a fault. -/
def settle (p : Partial) : Partial :=
  if p.half.isSome then { p.blame .malformed with half := none } else p

/-- One more character. -/
def push (p : Partial) (c : Char) : Partial :=
  { p with read := c :: p.read }

/-- One more unit of an escape: a character, or half of a pair. -/
def pushUnit (p : Partial) (n : Nat) : Partial :=
  match p.half with
  | some first =>
    if 0xDC00 ≤ n ∧ n < 0xE000 then
      { p with half := none }.push (Char.ofNat (0x10000 + (first - 0xD800) * 1024 + (n - 0xDC00)))
    else { p.blame .malformed with half := none }
  | none =>
    if 0xD800 ≤ n ∧ n < 0xDC00 then { p with half := some n }
    else if 0xDC00 ≤ n ∧ n < 0xE000 then p.blame .malformed
    else p.push (Char.ofNat n)

/-- The token at the closing quote. -/
def close (p : Partial) : Token :=
  match p.settle.fault with
  | some f => .text (.faulty f)
  | none => .text (.text (String.ofList p.read.reverse))

/-- The token where a text breaks off. -/
def breakOff (p : Partial) (f : Fault) : Token :=
  .openText (p.fault.getD f) f

end Partial

/-- The character of an escape of one letter. -/
def escaped? (c : Char) : Option Char :=
  match c with
  | '"' => some '"'
  | '\\' => some '\\'
  | '/' => some '/'
  | 'b' => some '\x08'
  | 'f' => some '\x0c'
  | 'n' => some '\n'
  | 'r' => some '\r'
  | 't' => some '\t'
  | _ => none

/-- One character of a text. -/
def textStep (p : Partial) (c : Char) : List Token × State :=
  if c = '"' then ([p.close], .between)
  else if c = '\\' then ([], .escape p)
  else if c.toNat < 0x20 then ([p.settle.breakOff .malformed], .stopped)
  else ([], .text (p.settle.push c))

/-- The character after a backslash. -/
def escapeStep (p : Partial) (c : Char) : List Token × State :=
  if c = 'u' then ([], .unit p 0 (some 0))
  else match escaped? c with
    | some d => ([], .text (p.settle.push d))
    | none => ([p.settle.breakOff .malformed], .stopped)

/-- A character after `\u`. Four octets are taken before they are judged. -/
def unitStep (p : Partial) (octets : Nat) (value : Option Nat) (c : Char) : List Token × State :=
  let octets := octets + c.utf8Size
  let value := do return (← value) * 16 + (← hexValue? c)
  if octets < 4 then ([], .unit p octets value)
  else match value with
    | some n => ([], .text (p.pushUnit n))
    | none => ([p.breakOff .malformed], .stopped)

/-! ### Numbers -/

/-- The part of a number after one more character, and the number with it; `none` if the number
does not go on. -/
def Part.step? (part : Part) (n : Numeral) (c : Char) : Option (Part × Numeral) :=
  let digit := c.isDigit
  let mark := c = 'e' ∨ c = 'E'
  match part with
  | .sign =>
    if c = '0' then some (.zero, { n with whole := ['0'] })
    else if digit then some (.whole, { n with whole := [c] }) else none
  | .zero =>
    if c = '.' then some (.point, n)
    else if mark then some (.exponentMark, { n with exponent := some (false, []) }) else none
  | .whole =>
    if digit then some (.whole, { n with whole := n.whole ++ [c] })
    else if c = '.' then some (.point, n)
    else if mark then some (.exponentMark, { n with exponent := some (false, []) }) else none
  | .point | .fraction =>
    if digit then some (.fraction, { n with fraction := n.fraction ++ [c] })
    else if part = .fraction ∧ mark then
      some (.exponentMark, { n with exponent := some (false, []) }) else none
  | .exponentMark =>
    if c = '-' then some (.exponentSign, { n with exponent := some (true, []) })
    else if c = '+' then some (.exponentSign, n)
    else if digit then some (.exponent, { n with exponent := some (false, [c]) }) else none
  | .exponentSign | .exponent =>
    if digit then
      some (.exponent, { n with exponent := n.exponent.map fun e => (e.1, e.2 ++ [c]) })
    else none

/-- A number may end here. -/
def Part.isComplete : Part → Bool
  | .zero | .whole | .fraction | .exponent => true
  | .sign | .point | .exponentMark | .exponentSign => false

/-! ### All tokens -/

/-- A character where a token may begin. -/
def start (c : Char) : List Token × State :=
  match c with
  | ' ' | '\n' | '\t' | '\r' => ([], .between)
  | '[' => ([.openArray], .between)
  | ']' => ([.closeArray], .between)
  | '\x7b' => ([.openObject], .between)
  | '\x7d' => ([.closeObject], .between)
  | ',' => ([.comma], .between)
  | ':' => ([.colon], .between)
  | '"' => ([], .text {})
  | 'n' => ([], .word ['u', 'l', 'l'] .null)
  | 't' => ([], .word ['r', 'u', 'e'] (.bool true))
  | 'f' => ([], .word ['a', 'l', 's', 'e'] (.bool false))
  | '-' => ([], .number .sign { negative := true })
  | _ =>
    match Part.sign.step? {} c with
    | some (part, n) => ([], .number part n)
    | none => ([.broken .malformed], .stopped)

/-- One character: the tokens that it completes, and the state after it. -/
def State.step (state : State) (c : Char) : List Token × State :=
  match state with
  | .between => start c
  | .word (d :: rest) token =>
    if c ≠ d then ([.broken .malformed], .stopped)
    else if rest.isEmpty then ([token], .between)
    else ([], .word rest token)
  | .word [] _ => ([.broken .malformed], .stopped)
  | .number part n =>
    match part.step? n c with
    | some (part, n) => ([], .number part n)
    | none =>
      if part = .zero ∧ c.isDigit then ([.broken .malformed], .stopped)
      else if part.isComplete then
        let (tokens, next) := start c
        (.numeral n :: tokens, next)
      else ([.broken .malformed], .stopped)
  | .text p => textStep p c
  | .escape p => escapeStep p c
  | .unit p octets value => unitStep p octets value c
  | .stopped => ([], .stopped)

/-- The tokens that the end of the text completes. -/
def State.finish : State → List Token
  | .between | .stopped => []
  | .word _ _ => [.broken .endsEarly]
  | .number part n => if part.isComplete then [.numeral n] else [.broken .endsEarly]
  | .text p | .escape p | .unit p _ _ => [p.breakOff .endsEarly]

/-- The tokens of a text, from a state on. -/
def tokensFrom : State → List Char → List Token
  | state, [] => state.finish
  | state, c :: cs =>
    let (tokens, next) := state.step c
    tokens ++ tokensFrom next cs

end Lexer

/-- The tokens of a text. -/
def tokens (s : String) : List Token :=
  Lexer.tokensFrom .between s.toList

end KnowledgeImport.Json
