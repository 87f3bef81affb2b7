import KnowledgeImport.Proofs.Json.Lexing
import Mathlib.Data.List.Forall2

/-!
# What is spelled is read

Wherever a value may begin and whatever frames are open, the characters that spell it are read, and
then reading goes on with what follows (`Value.exists_readAs`).  Parts between brackets are read up
to the closing one, each being put into the innermost frame (`Brackets.readFrom_enclosed`).  So a
text that spells a value is read as that value, unless arrays and objects are nested too deep in it
(`Value.ofString?_of_spelledBy`).
-/

namespace KnowledgeImport.Json

open Lexer Draft

/-! ### Reading from a character on -/

/-- Reads characters as they come, with these frames open. -/
def readFrom (frames : List Frame) (due : Due) (cs : List Char) : Draft × List Token :=
  build frames due (tokensFrom .between cs)

/-- Goes on with the characters as far as there is need. -/
def resume (p : Progress) (cs : List Char) : Draft × List Token :=
  match p with
  | .goOn frames due => readFrom frames due cs
  | .finished d => (d, tokensFrom .between cs)

section

variable {frames : List Frame} {due : Due} {rest : List Char}

theorem readFrom_blanks {bs : List Char} (h : AllBlank bs) :
    readFrom frames due (bs ++ rest) = readFrom frames due rest := by
  rw [readFrom, tokensFrom_blanks h, readFrom]

/-- Reading goes on with one token. -/
theorem readFrom_eq {cs : List Char} {t : Token}
    (h : tokensFrom .between cs = t :: tokensFrom .between rest) :
    readFrom frames due cs = resume (step frames due t) rest := by
  rw [readFrom, h, build]
  cases step frames due t <;> rfl

theorem readFrom_punctuation {c : Char} {t : Token} (h : start c = ([t], .between)) :
    readFrom frames due (c :: rest) = resume (step frames due t) rest := by
  refine readFrom_eq ?_
  rw [tokensFrom_cons, State.step, h, List.singleton_append]

/-- A token that is a value by itself is put into the innermost frame. -/
theorem readFrom_leaf {cs : List Char} {t : Token} {d : Draft} {first : Bool}
    (h : tokensFrom .between cs = t :: tokensFrom .between rest) (hleaf : leaf? t = some d) :
    readFrom frames (.value first) cs = resume (filled frames d) rest := by
  rw [readFrom_eq h]
  cases t <;> cases hleaf <;> rfl

end

theorem endsNumber_nil : EndsNumber [] := by
  rintro c ⟨⟩

theorem endsNumber_cons {c : Char} (h : c.isDigit = false ∧ c ≠ '.' ∧ c ≠ 'e' ∧ c ≠ 'E')
    (rest : List Char) : EndsNumber (c :: rest) := by
  rintro d hd
  obtain rfl : c = d := Option.some.inj hd
  exact h

/-- No number goes on over blanks. -/
theorem endsNumber_blanks {bs rest : List Char} (h : AllBlank bs) (hrest : EndsNumber rest) :
    EndsNumber (bs ++ rest) := by
  cases bs with
  | nil => exact hrest
  | cons c bs =>
    refine endsNumber_cons ?_ _
    rcases h c (List.mem_cons_self ..) with rfl | rfl | rfl | rfl <;> decide

theorem intercalate_cons_of_ne_nil {α : Type} (sep x : List α) {xs : List (List α)} (h : xs ≠ []) :
    sep.intercalate (x :: xs) = x ++ sep ++ sep.intercalate xs := by
  obtain ⟨y, ys, rfl⟩ := List.exists_cons_of_ne_nil h
  exact List.intercalate_cons_cons

/-! ### Reading what stands between brackets -/

/-- How a pair of brackets is read: what stands between them is put into a frame that is opened by
the one and made a tree by the other. -/
structure Brackets {β : Type} (frame : List β → Frame) (due : Bool → Due) (tree : List β → Draft)
    (opening closing : Char) : Prop where
  opens : ∀ frames first rest, readFrom frames (.value first) (opening :: rest)
    = readFrom (frame [] :: frames) (due true) rest
  closesEmpty : ∀ frames rest, readFrom (frame [] :: frames) (due true) (closing :: rest)
    = resume (filled frames (tree [])) rest
  separates : ∀ frames read rest, readFrom (frame read :: frames) .separator (',' :: rest)
    = readFrom (frame read :: frames) (due false) rest
  closes : ∀ frames read rest, readFrom (frame read :: frames) .separator (closing :: rest)
    = resume (filled frames (tree read.reverse)) rest
  endsNumber : ∀ rest, EndsNumber (closing :: rest)

theorem brackets_array : Brackets Frame.array Due.value (Draft.array · none) '[' ']' where
  opens _ _ _ := readFrom_punctuation (t := .openArray) rfl
  closesEmpty _ _ := readFrom_punctuation (t := .closeArray) rfl
  separates _ _ _ := readFrom_punctuation (t := .comma) rfl
  closes _ _ _ := readFrom_punctuation (t := .closeArray) rfl
  endsNumber := endsNumber_cons (by decide)

theorem brackets_object :
    Brackets Frame.object Due.key (Draft.object · none) '\x7b' '\x7d' where
  opens _ _ _ := readFrom_punctuation (t := .openObject) rfl
  closesEmpty _ _ := readFrom_punctuation (t := .closeObject) rfl
  separates _ _ _ := readFrom_punctuation (t := .comma) rfl
  closes _ _ _ := readFrom_punctuation (t := .closeObject) rfl
  endsNumber := endsNumber_cons (by decide)

/-- The characters are read as one more part of the innermost frame. -/
def Puts {β : Type} (frame : List β → Frame) (due : Bool → Due) (frames : List Frame)
    (cs : List Char) (part : β) : Prop :=
  ∀ (read : List β) (first : Bool) {rest : List Char}, EndsNumber rest →
    readFrom (frame read :: frames) (due first) (cs ++ rest)
      = readFrom (frame (part :: read) :: frames) .separator rest

section

variable {β : Type} {frame : List β → Frame} {due : Bool → Due} {tree : List β → Draft}
  {opening closing : Char} {frames : List Frame} {parts : List β} {rest : List Char}

/-- Blanks around a part make no difference. -/
theorem Puts.of_padded {cs padded : List Char} {part : β} (h : Puts frame due frames cs part)
    (hpadded : Padded cs padded) : Puts frame due frames padded part := by
  obtain ⟨hbefore, hafter⟩ := hpadded
  intro read first rest hrest
  rw [List.append_assoc, List.append_assoc, readFrom_blanks hbefore,
    h read first (endsNumber_blanks hafter hrest), readFrom_blanks hafter]

/-- Parts with commas between them are read up to what follows the last of them. -/
theorem Brackets.readFrom_parts (hb : Brackets frame due tree opening closing)
    {texts : List (List Char)} (h : List.Forall₂ (Puts frame due frames) texts parts)
    (hne : texts ≠ []) (read : List β) (first : Bool) (hrest : EndsNumber rest) :
    readFrom (frame read :: frames) (due first) ([','].intercalate texts ++ rest)
      = readFrom (frame (parts.reverse ++ read) :: frames) .separator rest := by
  induction h generalizing read first with
  | nil => exact absurd rfl hne
  | @cons cs part texts parts hpart hparts ih =>
    by_cases htexts : texts = []
    · subst htexts
      cases hparts
      rw [List.intercalate_singleton, hpart read first hrest]
      rfl
    · rw [intercalate_cons_of_ne_nil _ _ htexts, List.append_assoc, List.append_assoc,
        List.singleton_append, hpart read first (endsNumber_cons (by decide) _), hb.separates,
        ih htexts (part :: read) false, List.reverse_cons, List.append_assoc]
      rfl

/-- Parts between brackets are read as the tree of the parts. -/
theorem Brackets.readFrom_enclosed (hb : Brackets frame due tree opening closing)
    {texts : List (List Char)} (h : List.Forall₂ (Puts frame due frames) texts parts)
    {cs : List Char} (hcs : Enclosed opening closing texts cs) (first : Bool) :
    readFrom frames (.value first) (cs ++ rest) = resume (filled frames (tree parts)) rest := by
  cases hcs with
  | empty hblanks =>
    cases h
    rw [List.cons_append, List.append_assoc, hb.opens, readFrom_blanks hblanks,
      List.singleton_append, hb.closesEmpty]
  | @parts _ padded hne hpadded =>
    have hputs : List.Forall₂ (Puts frame due frames) padded parts := by
      clear hne
      induction h generalizing padded with
      | nil => cases hpadded; exact .nil
      | cons hpart _ ih =>
        cases hpadded with
        | cons hfirst hrest => exact .cons (hpart.of_padded hfirst) (ih hrest)
    have hne' : padded ≠ [] := by
      rintro rfl
      cases hpadded
      exact hne rfl
    rw [List.cons_append, List.append_assoc, List.singleton_append, hb.opens,
      hb.readFrom_parts hputs hne' [] true (hb.endsNumber rest), hb.closes, List.append_nil,
      List.reverse_reverse]

end

/-! ### Reading a value -/

/-- Wherever a value may begin, the characters are read as this tree. -/
def ReadAs (cs : List Char) (d : Draft) : Prop :=
  ∀ (frames : List Frame) (first : Bool) {rest : List Char}, EndsNumber rest →
    readFrom frames (.value first) (cs ++ rest) = resume (filled frames d) rest

/-- Wherever a member may begin, the characters are read as these two trees. -/
def MemberReadAs (cs : List Char) (d : Draft × Draft) : Prop :=
  ∀ frames, Puts Frame.object Due.key frames cs d

theorem ReadAs.puts {cs : List Char} {d : Draft} (h : ReadAs cs d) (frames : List Frame) :
    Puts Frame.array Due.value frames cs d :=
  fun read first _ hrest => h (.array read :: frames) first hrest

/-- A key, a colon and a value are a member. -/
theorem ReadAs.member {key : Spelling} {k before after w : List Char} {d : Draft}
    (hkey : ∀ rest, tokensFrom .between (k ++ rest) = .text key :: tokensFrom .between rest)
    (hbefore : AllBlank before) (hafter : AllBlank after) (h : ReadAs w d) :
    MemberReadAs (k ++ before ++ ':' :: (after ++ w)) (.text key, d) := by
  intro frames read first rest hrest
  rw [List.append_assoc, List.append_assoc, List.cons_append, List.append_assoc,
    readFrom_eq (hkey _)]
  show readFrom (.member read (.text key) :: frames) .colon _ = _
  rw [readFrom_blanks hbefore, readFrom_punctuation rfl]
  show readFrom (.member read (.text key) :: frames) (.value false) _ = _
  rw [readFrom_blanks hafter, h _ false hrest]
  rfl

theorem ReadAs.of_enclosed_array {parts : List (List Char)} {ds : List Draft} {cs : List Char}
    (h : List.Forall₂ ReadAs parts ds) (hcs : Enclosed '[' ']' parts cs) :
    ReadAs cs (.array ds none) := by
  intro frames first rest _
  exact brackets_array.readFrom_enclosed (h.imp fun _ _ hread => hread.puts frames) hcs first

theorem ReadAs.of_enclosed_object {parts : List (List Char)} {ds : List (Draft × Draft)}
    {cs : List Char} (h : List.Forall₂ MemberReadAs parts ds)
    (hcs : Enclosed '\x7b' '\x7d' parts cs) : ReadAs cs (.object ds none) := by
  intro frames first rest _
  exact brackets_object.readFrom_enclosed (h.imp fun _ _ hread => hread frames) hcs first

namespace Value

mutual

/-- The characters that spell a value are read as a tree of which it is the value, if the tree is
not too deep. -/
theorem exists_readAs : ∀ (v : Value) {cs : List Char}, v.Spelled cs →
    ∃ d, ReadAs cs d ∧ ∀ depth, v.depth ≤ depth → ofDraft? depth d = some v
  | .null, cs, h => by
    obtain rfl : cs = _ := h
    exact ⟨.null, fun _ _ _ _ => readFrom_leaf rfl rfl, fun _ _ => rfl⟩
  | .bool b, cs, h => by
    obtain rfl : cs = _ := h
    refine ⟨.bool b, fun _ _ _ _ => ?_, fun _ _ => rfl⟩
    cases b
    · exact readFrom_leaf rfl rfl
    · exact readFrom_leaf rfl rfl
  | .number x, cs, h => by
    obtain ⟨n, hn, hx⟩ := h
    refine ⟨.numeral n, fun _ _ _ hrest => readFrom_leaf (tokensFrom_numeral hn hrest) rfl,
      fun _ _ => ?_⟩
    rw [ofDraft?, hx]
    rfl
  | .text s, cs, h =>
    ⟨.text (.text s), fun _ _ rest _ => readFrom_leaf (tokensFrom_textSpelled h rest) rfl,
      fun _ _ => rfl⟩
  | .array elements, cs, h => by
    obtain ⟨parts, hparts, hcs⟩ := h
    obtain ⟨ds, hds, hvalues⟩ := exists_readAs_elements elements hparts
    refine ⟨.array ds none, ReadAs.of_enclosed_array hds hcs, fun depth hdepth => ?_⟩
    rw [Value.depth] at hdepth
    rw [ofDraft?, if_neg (by omega), hvalues (depth - 1) (by omega)]
    rfl
  | .object members, cs, h => by
    obtain ⟨parts, hparts, hcs⟩ := h
    obtain ⟨ds, hds, hvalues⟩ := exists_readAs_members members hparts
    refine ⟨.object ds none, ReadAs.of_enclosed_object hds hcs, fun depth hdepth => ?_⟩
    rw [Value.depth] at hdepth
    rw [ofDraft?, if_neg (by omega), hvalues (depth - 1) (by omega)]
    rfl

theorem exists_readAs_elements : ∀ (vs : List Value) {parts : List (List Char)},
    ElementsSpelled vs parts → ∃ ds, List.Forall₂ ReadAs parts ds ∧
      ∀ depth, elementsDepth vs ≤ depth → ofDrafts? depth ds = some vs
  | [], parts, h => by
    obtain rfl : parts = [] := h
    exact ⟨[], .nil, fun _ _ => rfl⟩
  | v :: vs, parts, h => by
    obtain ⟨cs, rest, hv, hvs, rfl⟩ := h
    obtain ⟨d, hd, hvalue⟩ := exists_readAs v hv
    obtain ⟨ds, hds, hvalues⟩ := exists_readAs_elements vs hvs
    refine ⟨d :: ds, .cons hd hds, fun depth hdepth => ?_⟩
    rw [elementsDepth, Nat.max_le] at hdepth
    rw [ofDrafts?, hvalue depth hdepth.1, hvalues depth hdepth.2]
    rfl

theorem exists_readAs_members : ∀ (ms : List (String × Value)) {parts : List (List Char)},
    MembersSpelled ms parts → ∃ ds, List.Forall₂ MemberReadAs parts ds ∧
      ∀ depth, membersDepth ms ≤ depth → ofMembers? depth ds = some ms
  | [], parts, h => by
    obtain rfl : parts = [] := h
    exact ⟨[], .nil, fun _ _ => rfl⟩
  | m :: ms, parts, h => by
    obtain ⟨cs, rest, hm, hms, rfl⟩ := h
    obtain ⟨d, hd, hvalue⟩ := exists_readAs_member m hm
    obtain ⟨ds, hds, hvalues⟩ := exists_readAs_members ms hms
    refine ⟨d :: ds, .cons hd hds, fun depth hdepth => ?_⟩
    rw [membersDepth, Nat.max_le] at hdepth
    rw [ofMembers?, hvalue depth hdepth.1, hvalues depth hdepth.2]
    rfl

theorem exists_readAs_member : ∀ (m : String × Value) {cs : List Char}, MemberSpelled m cs →
    ∃ d, MemberReadAs cs d ∧ ∀ depth, memberDepth m ≤ depth → ofMember? depth d = some m
  | (key, v), cs, h => by
    obtain ⟨k, before, after, w, hkey, hbefore, hafter, hv, rfl⟩ := h
    obtain ⟨d, hd, hvalue⟩ := exists_readAs v hv
    refine ⟨_, hd.member (tokensFrom_textSpelled hkey) hbefore hafter, fun depth hdepth => ?_⟩
    rw [memberDepth] at hdepth
    rw [ofMember?, hvalue depth hdepth]
    rfl

end

end Value

/-! ### Reading a text -/

/-- Characters that are read as a tree, with blanks around them, are a text that has this tree. -/
theorem ReadAs.draft_eq {cs : List Char} {d : Draft} (h : ReadAs cs d) {s : String}
    (hs : Padded cs s.toList) : draft s = (d, []) := by
  rw [draft, tokens]
  generalize s.toList = text at hs
  obtain ⟨hbefore, hafter⟩ := hs
  rename_i before after
  have hends : EndsNumber after := by
    have hnil := endsNumber_blanks hafter endsNumber_nil
    rwa [List.append_nil] at hnil
  have hnone : tokensFrom .between after = [] := by
    have hnil := tokensFrom_blanks hafter []
    rwa [List.append_nil] at hnil
  have hread : readFrom [] (.value false) (before ++ cs ++ after) = (d, []) := by
    rw [List.append_assoc, readFrom_blanks hbefore, h [] false hends]
    show (d, tokensFrom .between after) = _
    rw [hnone]
  exact hread

/-- A text that spells a value is read as it, unless it is nested too deep. -/
theorem Value.ofString?_of_spelledBy {v : Value} {s : String} (h : v.SpelledBy s)
    (hdepth : v.depth ≤ nestingLimit) : ofString? s = some v := by
  obtain ⟨cs, hcs, hs⟩ := h
  obtain ⟨d, hd, hvalue⟩ := v.exists_readAs hcs
  rw [ofString?, hd.draft_eq hs]
  exact hvalue nestingLimit hdepth

end KnowledgeImport.Json
