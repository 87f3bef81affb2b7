import KnowledgeImport.Proofs.Json.Lexing

/-!
# Every token comes from characters that spell it

The way back from tokens to characters.  As long as reading is inside a token, what was read of it
is the beginning of a spelling (`State.Inside`); one more character goes on with it, completes it or
breaks it (`State.Inside.step`).  So the tokens of a text, up to one that is broken, are spelled by
its characters with blanks between them (`lexed_tokensFrom`).  A text in quotes with a fault is a
token as well; nothing is said of how it is spelled.
-/

namespace KnowledgeImport.Json

open Text

/-- The characters spell the token. -/
inductive Lexeme : Token → List Char → Prop
  | openArray : Lexeme .openArray ['[']
  | closeArray : Lexeme .closeArray [']']
  | openObject : Lexeme .openObject ['\x7b']
  | closeObject : Lexeme .closeObject ['\x7d']
  | comma : Lexeme .comma [',']
  | colon : Lexeme .colon [':']
  | null : Lexeme .null ['n', 'u', 'l', 'l']
  | true : Lexeme (.bool true) ['t', 'r', 'u', 'e']
  | false : Lexeme (.bool false) ['f', 'a', 'l', 's', 'e']
  | numeral {n : Numeral} {w : List Char} (h : n.Spelled w) : Lexeme (.numeral n) w
  | text {s : Spelling} {w : List Char} (h : ∀ t, s = .text t → TextSpelled t w) :
      Lexeme (.text s) w

/-- A token behind which nothing is read. -/
inductive Token.Breaks : Token → Prop
  | openText (strict loose : Fault) : Breaks (.openText strict loose)
  | broken (f : Fault) : Breaks (.broken f)

theorem Quoted.append {m m' w w' : List Char} (h : Quoted m w) (h' : Quoted m' w') :
    Quoted (m ++ m') (w ++ w') := by
  induction h with
  | nil => exact h'
  | plain hcontrol hquote hbackslash _ ih => exact .plain hcontrol hquote hbackslash ih
  | short hc _ ih => exact .short hc ih
  | unit hds hn _ ih =>
    rw [List.cons_append, List.cons_append, List.cons_append, List.append_assoc]
    exact .unit hds hn ih
  | pair hds hes hi hk _ ih =>
    simp only [List.cons_append, List.append_assoc]
    exact .pair hds hes hi hk ih

theorem isDigits_singleton {c : Char} (h : c.isDigit = true) : IsDigits [c] :=
  ⟨List.cons_ne_nil _ _, List.forall_mem_singleton.mpr h⟩

theorem isDigits_concat {ds : List Char} (h : ∀ c ∈ ds, c.isDigit = true) {c : Char}
    (hc : c.isDigit = true) : IsDigits (ds ++ [c]) :=
  ⟨by simp, List.forall_mem_append.mpr ⟨h, List.forall_mem_singleton.mpr hc⟩⟩

theorem isWhole_zero : IsWhole ['0'] :=
  ⟨isDigits_singleton (by decide), fun _ => rfl⟩

theorem IsDigits.isWhole {ds : List Char} (h : IsDigits ds) (hhead : ds.head? ≠ some '0') :
    IsWhole ds :=
  ⟨h, fun hzero => absurd hzero hhead⟩

namespace Lexer

/-! ### Texts -/

/-- The characters since the quote were read without a fault so far. The last of them may be half
of a pair. -/
def Partial.Reads (p : Partial) (w : List Char) : Prop :=
  p.fault = none → match p.half with
    | none => Quoted p.read.reverse w
    | some i => ∃ front ds, Quoted p.read.reverse front ∧ UnitSpelled i ds ∧
        (0xD800 ≤ i ∧ i < 0xDC00) ∧ w = front ++ '\\' :: 'u' :: ds

namespace Partial

theorem reads_blame (p : Partial) (f : Fault) (half : Option Nat) (w : List Char) :
    Reads { p.blame f with half := half } w := by
  rintro ⟨⟩

variable {p : Partial} {w : List Char}

theorem half_settle : p.settle.half = none := by
  rw [settle]
  split_ifs with h
  · rfl
  · rwa [Option.not_isSome_iff_eq_none] at h

theorem Reads.settle (h : p.Reads w) : p.settle.Reads w := by
  rw [Partial.settle]
  split_ifs
  · exact reads_blame p _ _ w
  · exact h

/-- What spells one character is read as it, if no half of a pair waits. -/
theorem Reads.push (h : p.Reads w) (hhalf : p.half = none) {c : Char} {u : List Char}
    (hu : Quoted [c] u) : (p.push c).Reads (w ++ u) := by
  intro hfault
  have hquoted := h hfault
  rw [hhalf] at hquoted
  have happend : Quoted (p.push c).read.reverse (w ++ u) := by
    rw [Partial.push, List.reverse_cons]
    exact hquoted.append hu
  show match p.half with | none => _ | some _ => _
  rwa [hhalf]

/-- Four digits are read as their unit. -/
theorem Reads.pushUnit (h : p.Reads w) {n : Nat} {ds : List Char} (hds : UnitSpelled n ds) :
    (p.pushUnit n).Reads (w ++ '\\' :: 'u' :: ds) := by
  rw [Partial.pushUnit]
  split
  case h_1 i hhalf =>
    split_ifs with hlow
    · intro hfault
      have hpair := h hfault
      rw [hhalf] at hpair
      obtain ⟨front, es, hfront, hes, hi, rfl⟩ := hpair
      have happend := hfront.append (Quoted.pair hes hds hi hlow .nil)
      simpa [Partial.push, Reads] using happend
    · exact reads_blame p _ _ _
  case h_2 hhalf =>
    split_ifs with hhigh hlow
    · intro hfault
      have hquoted := h hfault
      rw [hhalf] at hquoted
      exact ⟨w, ds, hquoted, hds, hhigh, rfl⟩
    · exact reads_blame p _ _ _
    · have hunit := Quoted.unit hds (by omega) .nil
      rw [List.append_nil] at hunit
      exact h.push hhalf hunit

/-- At the closing quote the text is spelled. -/
theorem Reads.close (h : p.Reads w) : Lexeme p.close ('"' :: (w ++ ['"'])) := by
  rw [Partial.close]
  split
  case h_1 =>
    refine .text fun t ht => ?_
    cases ht
  case h_2 hfault =>
    refine .text fun t ht => ⟨w, ?_, rfl⟩
    have hquoted := h.settle hfault
    rw [half_settle] at hquoted
    cases ht
    rw [String.toList_ofList]
    have hread : p.settle.read = p.read := by
      rw [Partial.settle]
      split_ifs <;> rfl
    rwa [← hread]

end Partial

/-- Hexadecimal digits and their number. -/
inductive HexRead : Nat → List Char → Prop
  | nil : HexRead 0 []
  | snoc {v d : Nat} {ds : List Char} {c : Char} (h : HexRead v ds) (hd : hexValue? c = some d) :
      HexRead (v * 16 + d) (ds ++ [c])

/-- Four of them are a unit. -/
theorem HexRead.unitSpelled {n : Nat} {ds : List Char} (h : HexRead n ds) (hlen : ds.length = 4) :
    UnitSpelled n ds := by
  obtain _ | ⟨_ | ⟨_ | ⟨_ | ⟨_ | ⟨_, _⟩, ha⟩, hb⟩, hc⟩, hd⟩ := h
  case snoc.snoc.snoc.snoc.nil =>
    have hunit := UnitSpelled.mk ha hb hc hd
    simpa using hunit
  all_goals simp at hlen

/-! ### Numbers -/

/-- The characters are what was read of a number. -/
inductive NumberRead (negative : Bool) : Part → Numeral → List Char → Prop
  | sign : NumberRead negative .sign { negative } []
  | zero : NumberRead negative .zero { negative, whole := ['0'] } ['0']
  | whole {whole : List Char} (h : IsDigits whole) (hhead : whole.head? ≠ some '0') :
      NumberRead negative .whole { negative, whole } whole
  | point {whole : List Char} (h : IsWhole whole) :
      NumberRead negative .point { negative, whole } (whole ++ ['.'])
  | fraction {whole fraction : List Char} (h : IsWhole whole) (hfraction : IsDigits fraction) :
      NumberRead negative .fraction { negative, whole, fraction } (whole ++ '.' :: fraction)
  | exponentMark {whole fraction w : List Char} {mark : Char} (h : IsWhole whole)
      (hfraction : FractionSpelled fraction w) (hmark : mark = 'e' ∨ mark = 'E') :
      NumberRead negative .exponentMark { negative, whole, fraction, exponent := some (false, []) }
        (whole ++ w ++ [mark])
  | exponentSign {whole fraction w sign : List Char} {mark : Char} {minus : Bool}
      (h : IsWhole whole) (hfraction : FractionSpelled fraction w) (hmark : mark = 'e' ∨ mark = 'E')
      (hsign : SignSpelled minus sign) :
      NumberRead negative .exponentSign { negative, whole, fraction, exponent := some (minus, []) }
        (whole ++ w ++ mark :: sign)
  | exponent {whole fraction w sign ds : List Char} {mark : Char} {minus : Bool} (h : IsWhole whole)
      (hfraction : FractionSpelled fraction w) (hmark : mark = 'e' ∨ mark = 'E')
      (hsign : SignSpelled minus sign) (hds : IsDigits ds) :
      NumberRead negative .exponent { negative, whole, fraction, exponent := some (minus, ds) }
        (whole ++ w ++ mark :: (sign ++ ds))

section

variable {negative : Bool} {part part' : Part} {n n' : Numeral} {w : List Char}

/-- A number goes on. -/
theorem NumberRead.step (h : NumberRead negative part n w) {c : Char}
    (hstep : part.step? n c = some (part', n')) : NumberRead negative part' n' (w ++ [c]) := by
  cases h with
  | sign =>
    simp only [Part.step?] at hstep
    split_ifs at hstep with hzero hdigit
    · cases hstep
      subst hzero
      exact .zero
    · cases hstep
      exact .whole (isDigits_singleton hdigit) (fun hhead => hzero (Option.some.inj hhead))
  | zero =>
    -- no digit goes on with a zero
    simp only [Part.step?] at hstep
    split_ifs at hstep with hpoint hmark
    · cases hstep
      subst hpoint
      exact .point isWhole_zero
    · cases hstep
      exact .exponentMark isWhole_zero .absent hmark
  | whole h hhead =>
    simp only [Part.step?] at hstep
    split_ifs at hstep with hdigit hpoint hmark
    · cases hstep
      refine .whole (isDigits_concat h.2 hdigit) ?_
      rwa [List.head?_append_of_ne_nil _ h.1]
    · cases hstep
      subst hpoint
      exact .point (h.isWhole hhead)
    · cases hstep
      simpa using NumberRead.exponentMark (h.isWhole hhead) .absent hmark
  | point h =>
    simp only [Part.step?] at hstep
    split_ifs at hstep with hdigit
    · cases hstep
      simpa using NumberRead.fraction h (isDigits_singleton hdigit)
    · rename_i hmark
      cases hmark.1
  | fraction h hfraction =>
    simp only [Part.step?] at hstep
    split_ifs at hstep with hdigit hmark
    · cases hstep
      simpa using NumberRead.fraction h (isDigits_concat hfraction.2 hdigit)
    · cases hstep
      exact .exponentMark h (.present hfraction) hmark.2
  | exponentMark h hfraction hmark =>
    simp only [Part.step?] at hstep
    split_ifs at hstep with hminus hplus hdigit
    · cases hstep
      subst hminus
      simpa using NumberRead.exponentSign h hfraction hmark .minus
    · cases hstep
      subst hplus
      simpa using NumberRead.exponentSign h hfraction hmark .plus
    · cases hstep
      simpa using NumberRead.exponent h hfraction hmark .none (isDigits_singleton hdigit)
  | exponentSign h hfraction hmark hsign =>
    simp only [Part.step?] at hstep
    split_ifs at hstep with hdigit
    cases hstep
    simpa using NumberRead.exponent h hfraction hmark hsign (isDigits_singleton hdigit)
  | exponent h hfraction hmark hsign hds =>
    simp only [Part.step?] at hstep
    split_ifs at hstep with hdigit
    cases hstep
    simpa using NumberRead.exponent h hfraction hmark hsign (isDigits_concat hds.2 hdigit)

/-- A number that may end is spelled. -/
theorem NumberRead.spelled (h : NumberRead negative part n w) (hpart : part.isComplete = true) :
    n.Spelled (Numeral.signChars { negative } ++ w) := by
  cases h with
  | zero => exact ⟨isWhole_zero, [], [], .absent, .absent, by simp [Numeral.signChars]⟩
  | whole h hhead =>
    exact ⟨h.isWhole hhead, [], [], .absent, .absent, by simp [Numeral.signChars]⟩
  | fraction h hfraction =>
    exact ⟨h, _, [], .present hfraction, .absent, by simp [Numeral.signChars]⟩
  | exponent h hfraction hmark hsign hds =>
    exact ⟨h, _, _, hfraction, .present hmark hsign hds, by simp [Numeral.signChars]⟩
  | sign | point | exponentMark | exponentSign => cases hpart

end

/-! ### Inside a token -/

/-- The characters are what was read of a token. -/
inductive State.Inside : State → List Char → Prop
  | word {rest w : List Char} {t : Token} (hne : rest ≠ []) (h : Lexeme t (w ++ rest)) :
      Inside (.word rest t) w
  | number {negative : Bool} {part : Part} {n : Numeral} {w : List Char}
      (h : NumberRead negative part n w) :
      Inside (.number part n) (Numeral.signChars { negative } ++ w)
  | text {p : Partial} {w : List Char} (h : p.Reads w) : Inside (.text p) ('"' :: w)
  | escape {p : Partial} {w : List Char} (h : p.Reads w) :
      Inside (.escape p) ('"' :: (w ++ ['\\']))
  | unit {p : Partial} {w ds : List Char} {octets : Nat} {value : Option Nat} (h : p.Reads w)
      (hoctets : octets < 4) (hvalue : ∀ v, value = some v → HexRead v ds ∧ ds.length = octets) :
      Inside (.unit p octets value) ('"' :: (w ++ '\\' :: 'u' :: ds))

/-- What one character does to a token of which the characters `w` were read. -/
inductive Stepped (w : List Char) (c : Char) : List Token × State → Prop
  | goesOn {next : State} (h : next.Inside (w ++ [c])) : Stepped w c ([], next)
  | completes {t : Token} (h : Lexeme t (w ++ [c])) : Stepped w c ([t], .between)
  | breaks {t : Token} (h : t.Breaks) : Stepped w c ([t], .stopped)

theorem Partial.Reads.stepped {p : Partial} {w : List Char} (h : p.Reads w) (c : Char) :
    Stepped ('"' :: w) c (textStep p c) := by
  rw [textStep]
  split_ifs with hquote hbackslash hcontrol
  · subst hquote
    exact .completes h.close
  · subst hbackslash
    exact .goesOn (.escape h)
  · exact .breaks (.openText ..)
  · exact .goesOn (.text (h.settle.push p.half_settle
      (.plain (Nat.not_lt.mp hcontrol) hquote hbackslash .nil)))

theorem Partial.Reads.stepped_escape {p : Partial} {w : List Char} (h : p.Reads w) (c : Char) :
    Stepped ('"' :: (w ++ ['\\'])) c (escapeStep p c) := by
  rw [escapeStep]
  split_ifs with hu
  · subst hu
    refine .goesOn ?_
    have hunit := @State.Inside.unit p w [] 0 (some 0) h (by decide)
      (fun v hv => ⟨by cases hv; exact .nil, rfl⟩)
    simpa using hunit
  · split
    case h_1 d hd =>
      refine .goesOn ?_
      have hshort := h.settle.push p.half_settle (.short (escaped?_eq_some_iff.mp hd) .nil)
      simpa using State.Inside.text hshort
    case h_2 => exact .breaks (.openText ..)

theorem Partial.Reads.stepped_unit {p : Partial} {w ds : List Char} {octets : Nat}
    {value : Option Nat} (h : p.Reads w) (hoctets : octets < 4)
    (hvalue : ∀ v, value = some v → HexRead v ds ∧ ds.length = octets) (c : Char) :
    Stepped ('"' :: (w ++ '\\' :: 'u' :: ds)) c (unitStep p octets value c) := by
  have hnext : ∀ v, (do return (← value) * 16 + (← hexValue? c)) = some v →
      HexRead v (ds ++ [c]) ∧ (ds ++ [c]).length = octets + c.utf8Size ∧ c.utf8Size = 1 := by
    intro v hv
    simp only [Option.bind_eq_bind, Option.bind_eq_some_iff, Option.pure_def] at hv
    obtain ⟨u, hu, d, hd, hv⟩ := hv
    obtain ⟨hread, hlen⟩ := hvalue u hu
    obtain rfl := Option.some.inj hv
    have hsize := utf8Size_of_hexValue? hd
    exact ⟨.snoc hread hd, by rw [List.length_append, hlen, hsize, List.length_singleton], hsize⟩
  rw [unitStep]
  split_ifs with hfour
  · refine .goesOn ?_
    have hunit := State.Inside.unit h hfour fun v hv => ⟨(hnext v hv).1, (hnext v hv).2.1⟩
    simpa using hunit
  · split
    case h_1 n hn =>
      obtain ⟨hread, hlen, hsize⟩ := hnext n hn
      have hunit := h.pushUnit (hread.unitSpelled (by omega))
      refine .goesOn ?_
      simpa using State.Inside.text hunit
    case h_2 => exact .breaks (.openText ..)

theorem inside_of_sign {negative : Bool} {c : Char} {part : Part} {n : Numeral}
    (h : Part.sign.step? { negative } c = some (part, n)) :
    State.Inside (.number part n) (Numeral.signChars { negative } ++ [c]) :=
  .number (NumberRead.sign.step h)

/-- A character where a token may begin is a blank, or the first of a token. -/
theorem stepped_start (c : Char) :
    IsBlank c ∧ start c = ([], .between) ∨ Stepped [] c (start c) := by
  unfold start
  split
  case h_1 | h_2 | h_3 | h_4 => exact Or.inl ⟨by simp [IsBlank], rfl⟩
  case h_5 => exact Or.inr (.completes .openArray)
  case h_6 => exact Or.inr (.completes .closeArray)
  case h_7 => exact Or.inr (.completes .openObject)
  case h_8 => exact Or.inr (.completes .closeObject)
  case h_9 => exact Or.inr (.completes .comma)
  case h_10 => exact Or.inr (.completes .colon)
  case h_11 => exact Or.inr (.goesOn (.text fun _ => .nil))
  case h_12 => exact Or.inr (.goesOn (.word (by decide) .null))
  case h_13 => exact Or.inr (.goesOn (.word (by decide) .true))
  case h_14 => exact Or.inr (.goesOn (.word (by decide) .false))
  case h_15 => exact Or.inr (.goesOn (.number (@NumberRead.sign true)))
  case h_16 =>
    right
    split
    case h_1 part n h => exact .goesOn (inside_of_sign h)
    case h_2 => exact .breaks (.broken _)

/-- One character goes on with a token, completes it or breaks it; or the token is a number that
ends before it. -/
theorem State.Inside.step {state : State} {w : List Char} (h : state.Inside w) (c : Char) :
    Stepped w c (state.step c) ∨
      ∃ t, Lexeme t w ∧ state.step c = (t :: (start c).1, (start c).2) := by
  cases h with
  | @word rest _ t hne h =>
    left
    obtain ⟨d, rest, rfl⟩ := List.exists_cons_of_ne_nil hne
    rw [State.step]
    split_ifs with hc hrest
    · exact .breaks (.broken _)
    · obtain rfl := not_not.mp hc
      obtain rfl := List.isEmpty_iff.mp hrest
      exact .completes h
    · obtain rfl := not_not.mp hc
      refine .goesOn (.word (fun hnil => hrest (List.isEmpty_iff.mpr hnil)) ?_)
      simpa using h
  | @number negative part n w h =>
    rw [State.step]
    split
    case h_1 part' n' hstep =>
      left
      refine .goesOn ?_
      rw [List.append_assoc]
      exact .number (h.step hstep)
    case h_2 =>
      split_ifs with hzero hcomplete
      · exact Or.inl (.breaks (.broken _))
      · exact Or.inr ⟨.numeral n, .numeral (h.spelled hcomplete), rfl⟩
      · exact Or.inl (.breaks (.broken _))
  | text h => exact Or.inl (h.stepped c)
  | escape h => exact Or.inl (h.stepped_escape c)
  | unit h hoctets hvalue => exact Or.inl (h.stepped_unit hoctets hvalue c)

/-- At the end of the text a token is complete or broken. -/
theorem State.Inside.finish {state : State} {w : List Char} (h : state.Inside w) :
    ∃ t, state.finish = [t] ∧ (Lexeme t w ∨ t.Breaks) := by
  cases h with
  | word => exact ⟨_, rfl, Or.inr (.broken _)⟩
  | @number negative part n w h =>
    rw [State.finish]
    split_ifs with hcomplete
    · exact ⟨_, rfl, Or.inl (.numeral (h.spelled hcomplete))⟩
    · exact ⟨_, rfl, Or.inr (.broken _)⟩
  | text | escape | unit => exact ⟨_, rfl, Or.inr (.openText ..)⟩

/-! ### All tokens -/

/-- The characters spell the tokens, with blanks behind each of them, up to one that is broken. -/
inductive Lexed : List Token → List Char → Prop
  | nil : Lexed [] []
  | token {t : Token} {ts : List Token} {w blanks cs : List Char} (h : Lexeme t w)
      (hblanks : AllBlank blanks) (hrest : Lexed ts cs) : Lexed (t :: ts) (w ++ (blanks ++ cs))
  | breaks {t : Token} {cs : List Char} (h : t.Breaks) : Lexed [t] cs

/-- The tokens are spelled after some blanks. -/
def LexedAfterBlanks (ts : List Token) (cs : List Char) : Prop :=
  ∃ blanks rest, AllBlank blanks ∧ Lexed ts rest ∧ cs = blanks ++ rest

theorem tokensFrom_stopped (cs : List Char) : tokensFrom .stopped cs = [] := by
  induction cs with
  | nil => rfl
  | cons c cs ih =>
    rw [tokensFrom_cons]
    exact ih

section

variable {w : List Char} {c : Char} {cs : List Char}

/-- A token that is completed is followed by the others. -/
theorem LexedAfterBlanks.token {t : Token} (h : Lexeme t w) {ts : List Token}
    (hrest : LexedAfterBlanks ts cs) : Lexed (t :: ts) (w ++ cs) := by
  obtain ⟨blanks, rest, hblanks, hlexed, rfl⟩ := hrest
  exact .token h hblanks hlexed

/-- After one character the tokens are spelled, if those after it are. -/
theorem Stepped.lexed {outcome : List Token × State} (h : Stepped w c outcome)
    (hbetween : LexedAfterBlanks (tokensFrom .between cs) cs)
    (hinside : ∀ {state : State} {w : List Char}, state.Inside w →
      Lexed (tokensFrom state cs) (w ++ cs)) :
    Lexed (outcome.1 ++ tokensFrom outcome.2 cs) (w ++ c :: cs) := by
  cases h with
  | goesOn h =>
    rw [List.append_cons]
    exact hinside h
  | completes h =>
    rw [List.append_cons]
    exact hbetween.token h
  | breaks h =>
    rw [tokensFrom_stopped]
    exact .breaks h

end

/-- The tokens of a text are spelled by it, from outside of all tokens and from inside of one. -/
theorem lexed_tokensFrom (cs : List Char) :
    LexedAfterBlanks (tokensFrom .between cs) cs ∧ ∀ {state : State} {w : List Char},
      state.Inside w → Lexed (tokensFrom state cs) (w ++ cs) := by
  induction cs with
  | nil =>
    refine ⟨⟨[], [], List.forall_mem_nil _, .nil, rfl⟩, fun {state w} h => ?_⟩
    obtain ⟨t, hfinish, ht⟩ := h.finish
    rw [tokensFrom, hfinish]
    rcases ht with ht | ht
    · exact .token ht (List.forall_mem_nil _) .nil
    · exact .breaks ht
  | cons c cs ih =>
    obtain ⟨hbetween, hinside⟩ := ih
    have hfirst : LexedAfterBlanks (tokensFrom .between (c :: cs)) (c :: cs) := by
      rw [tokensFrom_cons, State.step]
      rcases stepped_start c with ⟨hblank, hstart⟩ | hstepped
      · obtain ⟨blanks, rest, hblanks, hlexed, rfl⟩ := hbetween
        rw [hstart]
        exact ⟨c :: blanks, rest, List.forall_mem_cons.mpr ⟨hblank, hblanks⟩, hlexed, rfl⟩
      · exact ⟨[], _, List.forall_mem_nil _, hstepped.lexed hbetween hinside, rfl⟩
    refine ⟨hfirst, fun {state w} h => ?_⟩
    rcases h.step c with hstepped | ⟨t, ht, hstep⟩
    · rw [tokensFrom_cons]
      exact hstepped.lexed hbetween hinside
    · -- the number ends, and the character begins another token
      have hended : tokensFrom state (c :: cs) = t :: tokensFrom .between (c :: cs) := by
        rw [tokensFrom_cons, tokensFrom_cons, hstep]
        rfl
      rw [hended]
      exact hfirst.token ht

end Lexer

end KnowledgeImport.Json
