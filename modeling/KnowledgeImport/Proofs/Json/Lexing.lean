import KnowledgeImport.Proofs.Json.Grammar
import Mathlib.Tactic.SplitIfs

/-!
# Tokens of what is spelled

The characters of a text in quotes or of a number are read as one token, whichever of its spellings
they are.  A text is read one character at a time: each escape gives back its character, and then
comes the closing quote (`tokensFrom_quoted`, `tokensFrom_textSpelled`).  A number is read up to the
first character that cannot go on with it (`EndsNumber`, `tokensFrom_numeral`).
-/

namespace KnowledgeImport.Json

open Text Value

theorem ShortEscape.ne_u {letter c : Char} (h : ShortEscape letter c) : letter ≠ 'u' := by
  cases h <;> decide

namespace Lexer

theorem tokensFrom_cons (state : State) (c : Char) (cs : List Char) :
    tokensFrom state (c :: cs) = (state.step c).1 ++ tokensFrom (state.step c).2 cs := by
  rw [tokensFrom]

/-! ### Texts -/

theorem escaped?_eq_some_iff {letter c : Char} : escaped? letter = some c ↔ ShortEscape letter c := by
  constructor
  · intro h
    unfold escaped? at h
    split at h
    all_goals
      cases h
    exacts [.quote, .backslash, .slash, .backspace, .formFeed, .lineFeed, .carriageReturn, .tab]
  · intro h
    cases h <;> rfl

/-- Hexadecimal digits are ASCII characters. -/
theorem utf8Size_of_hexValue? {c : Char} {n : Nat} (h : hexValue? c = some n) : c.utf8Size = 1 := by
  have hle : c ≤ 'f' := by
    unfold hexValue? at h
    split_ifs at h with hdigit hlower hupper
    · exact Char.le_trans hdigit.2 (by decide)
    · exact hlower.2
    · exact Char.le_trans hupper.2 (by decide)
  have hval : c.val ≤ 0x7F := UInt32.le_trans hle (by decide)
  exact if_pos hval

/-- Nothing was wrong so far, and no half of a pair waits for the other. -/
structure Partial.Sound (p : Partial) : Prop where
  fault : p.fault = none
  half : p.half = none

theorem Partial.Sound.push {p : Partial} (h : p.Sound) (c : Char) : (p.push c).Sound :=
  ⟨h.fault, h.half⟩

theorem Partial.Sound.settle {p : Partial} (h : p.Sound) : p.settle = p := by
  rw [Partial.settle, h.half]
  rfl

/-- A unit that is no half of a pair is a character. -/
theorem Partial.Sound.pushUnit {p : Partial} (h : p.Sound) {n : Nat}
    (hn : n < 0xD800 ∨ 0xE000 ≤ n) : p.pushUnit n = p.push (Char.ofNat n) := by
  rw [Partial.pushUnit, h.half]
  dsimp only
  rw [if_neg (by omega), if_neg (by omega)]

/-- The two halves of a pair are a character. -/
theorem Partial.Sound.pushUnit_pushUnit {p : Partial} (h : p.Sound) {i k : Nat}
    (hi : 0xD800 ≤ i ∧ i < 0xDC00) (hk : 0xDC00 ≤ k ∧ k < 0xE000) :
    (p.pushUnit i).pushUnit k
      = p.push (Char.ofNat (0x10000 + (i - 0xD800) * 1024 + (k - 0xDC00))) := by
  obtain ⟨read, fault, half⟩ := p
  obtain ⟨rfl, rfl⟩ : fault = none ∧ half = none := ⟨h.fault, h.half⟩
  have hfirst : Partial.pushUnit { read } i = { read, half := some i } := by
    rw [Partial.pushUnit]
    dsimp only
    rw [if_pos hi]
  rw [hfirst, Partial.pushUnit]
  dsimp only
  rw [if_pos hk]

/-- A digit of an escape before the fourth. -/
theorem tokensFrom_unit (p : Partial) {octets : Nat} (hoctets : octets < 3) (v : Nat) {c : Char}
    {d : Nat} (hd : hexValue? c = some d) (rest : List Char) :
    tokensFrom (.unit p octets (some v)) (c :: rest)
      = tokensFrom (.unit p (octets + 1) (some (v * 16 + d))) rest := by
  have hlt : octets + 1 < 4 := by omega
  rw [tokensFrom_cons]
  simp [State.step, unitStep, utf8Size_of_hexValue? hd, hd, hlt]

theorem tokensFrom_lastUnit (p : Partial) (v : Nat) {c : Char} {d : Nat}
    (hd : hexValue? c = some d) (rest : List Char) :
    tokensFrom (.unit p 3 (some v)) (c :: rest)
      = tokensFrom (.text (p.pushUnit (v * 16 + d))) rest := by
  rw [tokensFrom_cons]
  simp [State.step, unitStep, utf8Size_of_hexValue? hd, hd]

/-- An escape of four digits gives its unit. -/
theorem tokensFrom_unitSpelled (p : Partial) {n : Nat} {ds : List Char} (h : UnitSpelled n ds)
    (rest : List Char) :
    tokensFrom (.text p) ('\\' :: 'u' :: (ds ++ rest)) = tokensFrom (.text (p.pushUnit n)) rest := by
  obtain ⟨ha, hb, hc, hd⟩ := h
  rename_i a b c d _ _ _ _
  have hopen : tokensFrom (.text p) ('\\' :: 'u' :: ([a, b, c, d] ++ rest))
      = tokensFrom (.unit p 0 (some 0)) (a :: b :: c :: d :: rest) := rfl
  rw [hopen, tokensFrom_unit p (by decide) 0 ha, tokensFrom_unit p (by decide) _ hb,
    tokensFrom_unit p (by decide) _ hc, tokensFrom_lastUnit p _ hd, Nat.zero_mul, Nat.zero_add]

/-- A backslash and a letter give the character that they stand for. -/
theorem tokensFrom_shortEscape (p : Partial) {letter c : Char} (h : ShortEscape letter c)
    (rest : List Char) :
    tokensFrom (.text p) ('\\' :: letter :: rest) = tokensFrom (.text (p.settle.push c)) rest := by
  rw [tokensFrom_cons, tokensFrom_cons]
  simp [State.step, textStep, escapeStep, h.ne_u, escaped?_eq_some_iff.mpr h]

/-- What stands between quotes is read as its characters. -/
theorem tokensFrom_quoted {m w : List Char} (h : Quoted m w) {p : Partial} (hp : p.Sound)
    (rest : List Char) :
    tokensFrom (.text p) (w ++ '"' :: rest)
      = .text (.text (String.ofList (p.read.reverse ++ m))) :: tokensFrom .between rest := by
  induction h generalizing p with
  | nil =>
    rw [List.nil_append, List.append_nil, tokensFrom_cons]
    simp [State.step, textStep, Partial.close, hp.settle, hp.fault]
  | plain hcontrol hquote hbackslash _ ih =>
    have hnot := Nat.not_lt.mpr hcontrol
    rw [List.cons_append, tokensFrom_cons]
    simp only [State.step, textStep, if_neg hquote, if_neg hbackslash, if_neg hnot, hp.settle]
    rw [List.nil_append, ih (hp.push _)]
    simp [Partial.push]
  | short hc _ ih =>
    rw [List.cons_append, List.cons_append, tokensFrom_shortEscape p hc, hp.settle,
      ih (hp.push _)]
    simp [Partial.push]
  | unit hds hn _ ih =>
    rw [List.cons_append, List.cons_append, List.append_assoc, tokensFrom_unitSpelled p hds,
      hp.pushUnit hn, ih (hp.push _)]
    simp [Partial.push]
  | pair hds hes hi hk _ ih =>
    rw [List.cons_append, List.cons_append, List.append_assoc, tokensFrom_unitSpelled p hds,
      List.cons_append, List.cons_append, List.append_assoc, tokensFrom_unitSpelled _ hes,
      hp.pushUnit_pushUnit hi hk, ih (hp.push _)]
    simp [Partial.push]

/-- A text in quotes is read as one token. -/
theorem tokensFrom_textSpelled {s : String} {cs : List Char} (h : TextSpelled s cs)
    (rest : List Char) :
    tokensFrom .between (cs ++ rest) = .text (.text s) :: tokensFrom .between rest := by
  obtain ⟨w, hw, rfl⟩ := h
  have hopen : tokensFrom .between ('"' :: (w ++ ['"']) ++ rest)
      = tokensFrom (.text {}) (w ++ '"' :: rest) := by
    simp [tokensFrom_cons, State.step, start]
  rw [hopen, tokensFrom_quoted hw ⟨rfl, rfl⟩, List.reverse_nil, List.nil_append,
    String.ofList_toList]

theorem hexValue?_digitChar : ∀ d < 16, hexValue? (Nat.digitChar d) = some d := by decide

/-- Whatever is written for a character is a spelling of it. -/
theorem quoted_escapeChar (c : Char) {m w : List Char} (h : Quoted m w) :
    Quoted (c :: m) (escapeChar c ++ w) := by
  rw [escapeChar]
  split_ifs with hquote hbackslash hb hf hn hr ht hcontrol
  · subst hquote
    exact .short .quote h
  · subst hbackslash
    exact .short .backslash h
  · subst hb
    exact .short .backspace h
  · subst hf
    exact .short .formFeed h
  · subst hn
    exact .short .lineFeed h
  · subst hr
    exact .short .carriageReturn h
  · subst ht
    exact .short .tab h
  · have hunit : UnitSpelled c.toNat
        ['0', '0', Nat.digitChar (c.toNat / 16), Nat.digitChar (c.toNat % 16)] := by
      have hmk := UnitSpelled.mk (by decide : hexValue? '0' = some 0)
        (by decide : hexValue? '0' = some 0) (hexValue?_digitChar (c.toNat / 16) (by omega))
        (hexValue?_digitChar (c.toNat % 16) (by omega))
      rwa [Nat.zero_mul, Nat.zero_add, Nat.div_add_mod'] at hmk
    -- no control character is a half of a pair
    have hchar := Quoted.unit hunit (Or.inl (by omega)) h
    rwa [Char.ofNat_toNat] at hchar
  · exact .plain (Nat.not_lt.mp hcontrol) hquote hbackslash h

/-- What is written for a text is a spelling of it. -/
theorem textSpelled_textChars (s : String) : TextSpelled s (textChars s) := by
  have hquoted (cs : List Char) : Quoted cs (cs.flatMap escapeChar) := by
    induction cs with
    | nil => exact .nil
    | cons c cs ih => exact quoted_escapeChar c ih
  exact ⟨_, hquoted s.toList, rfl⟩

/-! ### Numbers -/

/-- What follows does not go on with a number. -/
def EndsNumber (rest : List Char) : Prop :=
  ∀ c ∈ rest.head?, c.isDigit = false ∧ c ≠ '.' ∧ c ≠ 'e' ∧ c ≠ 'E'

/-- A number that may end here does so where nothing goes on with it. -/
theorem tokensFrom_number {part : Part} (hpart : part.isComplete = true) (n : Numeral)
    {rest : List Char} (hrest : EndsNumber rest) :
    tokensFrom (.number part n) rest = .numeral n :: tokensFrom .between rest := by
  cases rest with
  | nil => rw [tokensFrom, State.finish, if_pos hpart]; rfl
  | cons c rest =>
    obtain ⟨hdigit, hpoint, he, hE⟩ := hrest c rfl
    have hnone : part.step? n c = none := by
      cases part <;> simp_all [Part.step?, Part.isComplete]
    rw [tokensFrom_cons, tokensFrom_cons]
    simp [State.step, hnone, hdigit, hpart]

theorem tokensFrom_step {part part' : Part} {n n' : Numeral} {c : Char}
    (h : part.step? n c = some (part', n')) (cs : List Char) :
    tokensFrom (.number part n) (c :: cs) = tokensFrom (.number part' n') cs := by
  rw [tokensFrom_cons]
  simp only [State.step, h, List.nil_append]

/-- Digits are read as long as each of them is stored behind the others. -/
theorem tokensFrom_digits {part : Part} {store : List Char → Numeral}
    (hstore : ∀ front c, c.isDigit = true →
      part.step? (store front) c = some (part, store (front ++ [c])))
    {ds : List Char} (hds : ∀ c ∈ ds, c.isDigit = true) (front cs : List Char) :
    tokensFrom (.number part (store front)) (ds ++ cs)
      = tokensFrom (.number part (store (front ++ ds))) cs := by
  induction ds generalizing front with
  | nil => rw [List.nil_append, List.append_nil]
  | cons c ds ih =>
    rw [List.forall_mem_cons] at hds
    rw [List.cons_append, tokensFrom_step (hstore front c hds.1), ih hds.2, List.append_assoc]
    rfl

/-- The digits of a number before its point. -/
theorem tokensFrom_whole {whole : List Char} (h : IsWhole whole) (negative : Bool) :
    ∃ part, (part = .zero ∨ part = .whole) ∧ ∀ cs,
      tokensFrom (.number .sign { negative }) (whole ++ cs)
        = tokensFrom (.number part { negative, whole }) cs := by
  obtain ⟨⟨hne, hdigits⟩, hzero⟩ := h
  obtain ⟨c, ds, rfl⟩ := List.exists_cons_of_ne_nil hne
  rw [List.forall_mem_cons] at hdigits
  by_cases hc : c = '0'
  · subst hc
    obtain rfl : ds = [] := List.tail_eq_of_cons_eq (hzero rfl)
    have hstep : Part.sign.step? { negative } '0' = some (.zero, { negative, whole := ['0'] }) := rfl
    exact ⟨.zero, Or.inl rfl, tokensFrom_step hstep⟩
  · have hstep : Part.sign.step? { negative } c = some (.whole, { negative, whole := [c] }) := by
      simp only [Part.step?, if_neg hc, if_pos hdigits.1]
    have hstore (front : List Char) (d : Char) (hd : d.isDigit = true) :
        Part.whole.step? { negative, whole := front } d
          = some (.whole, { negative, whole := front ++ [d] }) := if_pos hd
    refine ⟨.whole, Or.inr rfl, fun cs => ?_⟩
    rw [List.cons_append, tokensFrom_step hstep]
    exact tokensFrom_digits hstore hdigits.2 [c] cs

/-- The point of a number and the digits after it, if there are any. -/
theorem tokensFrom_fraction {part : Part} (hpart : part = .zero ∨ part = .whole) (negative : Bool)
    (whole : List Char) {ds fraction : List Char} (h : FractionSpelled ds fraction) :
    ∃ part', (part' = .zero ∨ part' = .whole ∨ part' = .fraction) ∧ ∀ cs,
      tokensFrom (.number part { negative, whole }) (fraction ++ cs)
        = tokensFrom (.number part' { negative, whole, fraction := ds }) cs := by
  cases h with
  | absent => exact ⟨part, hpart.imp_right Or.inl, fun cs => rfl⟩
  | present h =>
    obtain ⟨c, ds, rfl⟩ := List.exists_cons_of_ne_nil h.1
    have hdigits := List.forall_mem_cons.mp h.2
    have hpoint : part.step? { negative, whole } '.' = some (.point, { negative, whole }) := by
      rcases hpart with rfl | rfl <;> rfl
    have hstep : Part.point.step? { negative, whole } c
        = some (.fraction, { negative, whole, fraction := [c] }) := if_pos hdigits.1
    have hstore (front : List Char) (d : Char) (hd : d.isDigit = true) :
        Part.fraction.step? { negative, whole, fraction := front } d
          = some (.fraction, { negative, whole, fraction := front ++ [d] }) := if_pos hd
    refine ⟨.fraction, Or.inr (Or.inr rfl), fun cs => ?_⟩
    rw [List.cons_append, tokensFrom_step hpoint, List.cons_append, tokensFrom_step hstep]
    exact tokensFrom_digits hstore hdigits.2 [c] cs

/-- The exponent of a number, if it has one. -/
theorem tokensFrom_exponent {part : Part}
    (hpart : part = .zero ∨ part = .whole ∨ part = .fraction) (negative : Bool)
    (whole fraction : List Char) {e : Option (Bool × List Char)} {exponent : List Char}
    (h : ExponentSpelled e exponent) :
    ∃ part', part'.isComplete = true ∧ ∀ cs,
      tokensFrom (.number part { negative, whole, fraction }) (exponent ++ cs)
        = tokensFrom (.number part' { negative, whole, fraction, exponent := e }) cs := by
  cases h with
  | absent => exact ⟨part, by rcases hpart with rfl | rfl | rfl <;> rfl, fun cs => rfl⟩
  | @present mark minus sign ds hmark hsign h =>
    obtain ⟨c, ds, rfl⟩ := List.exists_cons_of_ne_nil h.1
    have hdigits := List.forall_mem_cons.mp h.2
    let marked (minus : Bool) (front : List Char) : Numeral :=
      { negative, whole, fraction, exponent := some (minus, front) }
    have hmarked : part.step? { negative, whole, fraction } mark
        = some (.exponentMark, marked false []) := by
      rcases hpart with rfl | rfl | rfl <;> rcases hmark with rfl | rfl <;> rfl
    have hstore (front : List Char) (d : Char) (hd : d.isDigit = true) :
        Part.exponent.step? (marked minus front) d
          = some (.exponent, marked minus (front ++ [d])) := if_pos hd
    have hsigned (minus : Bool) : Part.exponentSign.step? (marked minus []) c
        = some (.exponent, marked minus [c]) := if_pos hdigits.1
    refine ⟨.exponent, rfl, fun cs => ?_⟩
    rw [List.cons_append, tokensFrom_step hmarked, List.append_assoc]
    cases hsign with
    | none =>
      have hstep : Part.exponentMark.step? (marked false []) c
          = some (.exponent, marked false [c]) := by
        -- a sign is no digit
        have hminus : c ≠ '-' := by
          rintro rfl
          exact absurd hdigits.1 (by decide)
        have hplus : c ≠ '+' := by
          rintro rfl
          exact absurd hdigits.1 (by decide)
        simp only [Part.step?, if_neg hminus, if_neg hplus, if_pos hdigits.1, marked]
      rw [List.nil_append, List.cons_append, tokensFrom_step hstep]
      exact tokensFrom_digits hstore hdigits.2 [c] cs
    | plus =>
      have hstep : Part.exponentMark.step? (marked false []) '+'
          = some (.exponentSign, marked false []) := rfl
      rw [List.singleton_append, tokensFrom_step hstep, List.cons_append,
        tokensFrom_step (hsigned false)]
      exact tokensFrom_digits hstore hdigits.2 [c] cs
    | minus =>
      have hstep : Part.exponentMark.step? (marked false []) '-'
          = some (.exponentSign, marked true []) := rfl
      rw [List.singleton_append, tokensFrom_step hstep, List.cons_append,
        tokensFrom_step (hsigned true)]
      exact tokensFrom_digits hstore hdigits.2 [c] cs

/-- A digit begins a number. -/
theorem start_of_isDigit {c : Char} (h : c.isDigit = true) :
    start c = (State.number .sign {}).step c := by
  unfold start
  split
  case h_16 =>
    simp only [State.step, Part.step?, if_pos h]
    split_ifs <;> rfl
  all_goals
    exfalso
    revert h
    decide

/-- A number is read as one token. -/
theorem tokensFrom_numeral {n : Numeral} {w : List Char} (h : n.Spelled w) {rest : List Char}
    (hrest : EndsNumber rest) :
    tokensFrom .between (w ++ rest) = .numeral n :: tokensFrom .between rest := by
  obtain ⟨hwhole, fraction, exponent, hfraction, hexponent, rfl⟩ := h
  obtain ⟨negative, whole, ds, e⟩ := n
  -- the sign, or the first digit, begins the number
  have hstart : tokensFrom .between (Numeral.signChars ⟨negative, whole, ds, e⟩ ++ whole ++ fraction
      ++ exponent ++ rest) = tokensFrom (.number .sign { negative }) (whole ++ (fraction
        ++ (exponent ++ rest))) := by
    cases negative with
    | true => simp [Numeral.signChars, tokensFrom_cons, State.step, start]
    | false =>
      obtain ⟨c, whole, rfl⟩ := List.exists_cons_of_ne_nil hwhole.1.1
      have hstep : State.between.step c = (State.number .sign {}).step c :=
        start_of_isDigit (hwhole.1.2 c (List.mem_cons_self ..))
      simp [Numeral.signChars, tokensFrom_cons, hstep]
  obtain ⟨part, hpart, hwhole⟩ := tokensFrom_whole hwhole negative
  obtain ⟨part', hpart', hfraction⟩ := tokensFrom_fraction hpart negative whole hfraction
  obtain ⟨last, hlast, hexponent⟩ := tokensFrom_exponent hpart' negative whole ds hexponent
  rw [hstart, hwhole, hfraction, hexponent, tokensFrom_number hlast _ hrest]

/-! ### Integers -/

/-- The numeral of an integer. -/
def integer (negative : Bool) (n : Nat) : Numeral where
  negative := negative
  whole := Nat.toDigits 10 n

theorem head_toDigits_ne_zero {n : Nat} (hn : 0 < n) : (Nat.toDigits 10 n).head? ≠ some '0' := by
  induction n using Nat.strongRecOn with
  | ind n ih =>
    rw [Nat.toDigits_eq_if (by decide)]
    split_ifs with hlt
    · intro h
      rw [List.head?_cons, Option.some.injEq, Nat.digitChar_eq_zero] at h
      omega
    · have hhead := ih (n / 10) (by omega) (by omega)
      obtain ⟨c, cs, hc⟩ := List.exists_cons_of_ne_nil (Nat.toDigits_ne_nil (n := n / 10) (b := 10))
      rw [hc] at hhead ⊢
      exact hhead

/-- The digits of an integer, behind its sign if it has one, spell it. -/
theorem spelled_integer (negative : Bool) (n : Nat) :
    (integer negative n).Spelled ((integer negative n).signChars ++ Nat.toDigits 10 n) := by
  have hdigits : IsDigits (Nat.toDigits 10 n) :=
    ⟨Nat.toDigits_ne_nil, fun c hc => Nat.isDigit_of_mem_toDigits (by decide) (by decide) hc⟩
  refine ⟨⟨hdigits, fun hhead => ?_⟩, [], [], .absent, .absent, by simp [integer]⟩
  cases Nat.eq_zero_or_pos n with
  | inl hzero =>
    subst hzero
    rfl
  | inr hpos => exact absurd hhead (head_toDigits_ne_zero hpos)

theorem tokensFrom_natural (n : Nat) {rest : List Char} (hrest : EndsNumber rest) :
    tokensFrom .between (Nat.toDigits 10 n ++ rest)
      = .numeral (integer false n) :: tokensFrom .between rest :=
  tokensFrom_numeral (spelled_integer false n) hrest

theorem tokensFrom_negative (n : Nat) {rest : List Char} (hrest : EndsNumber rest) :
    tokensFrom .between ('-' :: Nat.toDigits 10 n ++ rest)
      = .numeral (integer true n) :: tokensFrom .between rest :=
  tokensFrom_numeral (spelled_integer true n) hrest

/-- Digits of a natural number have it as their value. -/
theorem digitsValue_toDigits (n : Nat) : digitsValue (Nat.toDigits 10 n) = n := by
  have h := Nat.ofDigitChars_ten_toDigits (n := n)
  rw [Nat.ofDigitChars_eq_foldl] at h
  simpa only [digitsValue, Nat.mul_comm] using h

/-! ### Blanks -/

theorem tokensFrom_blanks {bs : List Char} (h : AllBlank bs) (rest : List Char) :
    tokensFrom .between (bs ++ rest) = tokensFrom .between rest := by
  induction bs with
  | nil => rfl
  | cons c bs ih =>
    have hbs := List.forall_mem_cons.mp h
    rw [List.cons_append, tokensFrom_cons, ← ih hbs.2]
    rcases hbs.1 with rfl | rfl | rfl | rfl <;> rfl

end Lexer

end KnowledgeImport.Json
