import KnowledgeImport.Json.Record
import KnowledgeImport.Proofs.Json.Reading

/-!
# What is written is read back

A value without fractions, written on one line or on many, is read as the tree that it is
(`readAs_chars`, `readString_chars`).  The parts between brackets are set apart by blanks only, so
what is written is a spelling of them (`Value.enclosed_enclose`), and each part is put into the
innermost frame.
-/

namespace KnowledgeImport.Json

open Lexer Draft

/-! ### Trees of values -/

/-- The draft of an integer. Fractions are left out. -/
def Number.draft : Number → Draft
  | .natural n => .numeral (integer false n)
  | .negative n => .numeral (integer true n)
  | .float _ => .broken .malformed

namespace Value

mutual

/-- The tree of a value without fractions. -/
def draft : Value → Draft
  | .null => .null
  | .bool b => .bool b
  | .number n => n.draft
  | .text s => .text (.text s)
  | .array elements => .array (elementDrafts elements) none
  | .object members => .object (memberDrafts members) none

/-- The trees of elements. -/
def elementDrafts : List Value → List Draft
  | [] => []
  | v :: vs => v.draft :: elementDrafts vs

/-- The trees of members. -/
def memberDrafts : List (String × Value) → List (Draft × Draft)
  | [] => []
  | m :: ms => memberDraft m :: memberDrafts ms

/-- The trees of a key and its value. -/
def memberDraft : String × Value → Draft × Draft
  | (key, v) => (.text (.text key), v.draft)

end

mutual

/-- The value has no numbers but integers. -/
def Integral : Value → Prop
  | .number (.float _) => False
  | .array elements => ElementsIntegral elements
  | .object members => MembersIntegral members
  | _ => True

/-- The elements have no numbers but integers. -/
def ElementsIntegral : List Value → Prop
  | [] => True
  | v :: vs => v.Integral ∧ ElementsIntegral vs

/-- The members have no numbers but integers. -/
def MembersIntegral : List (String × Value) → Prop
  | [] => True
  | m :: ms => MemberIntegral m ∧ MembersIntegral ms

/-- The value of the member has no numbers but integers. -/
def MemberIntegral : String × Value → Prop
  | (_, v) => v.Integral

end

theorem elementDrafts_eq_map (vs : List Value) : elementDrafts vs = vs.map draft := by
  induction vs with
  | nil => rfl
  | cons v vs ih => rw [elementDrafts, ih, List.map_cons]

theorem elementsIntegral_iff {vs : List Value} : ElementsIntegral vs ↔ ∀ v ∈ vs, v.Integral := by
  induction vs with
  | nil => simp [ElementsIntegral]
  | cons v vs ih => rw [ElementsIntegral, ih, List.forall_mem_cons]

/-- A layout that puts nothing but blanks between the parts. -/
structure Layout.Blank (l : Layout) : Prop where
  before : ∀ depth, AllBlank (l.before depth)
  afterKey : ∃ blanks, l.afterKey = ':' :: blanks ∧ AllBlank blanks

theorem blank_compact : Layout.compact.Blank where
  before _ := List.forall_mem_nil _
  afterKey := ⟨[], rfl, List.forall_mem_nil _⟩

theorem blank_pretty : Layout.pretty.Blank where
  before depth := by
    rw [Layout.pretty, AllBlank, List.forall_mem_cons]
    exact ⟨Or.inr (Or.inl rfl), fun c hc => Or.inl (List.eq_of_mem_replicate hc)⟩
  afterKey := ⟨[' '], rfl, List.forall_mem_singleton.mpr (Or.inl rfl)⟩

/-- Blanks before each part, and behind the last one, are blanks around the parts. -/
theorem exists_padded {before after : List Char} (hbefore : AllBlank before)
    (hafter : AllBlank after) {texts : List (List Char)} (hne : texts ≠ []) :
    ∃ padded, List.Forall₂ Padded texts padded ∧
      [','].intercalate (texts.map (before ++ ·)) ++ after = [','].intercalate padded := by
  induction texts with
  | nil => exact absurd rfl hne
  | cons cs texts ih =>
    by_cases htexts : texts = []
    · subst htexts
      refine ⟨[before ++ cs ++ after], .cons ⟨hbefore, hafter⟩ .nil, ?_⟩
      rw [List.map_singleton, List.intercalate_singleton, List.intercalate_singleton]
    · obtain ⟨padded, hpadded, heq⟩ := ih htexts
      have hmap : texts.map (before ++ ·) ≠ [] := fun hnil => htexts (List.map_eq_nil_iff.mp hnil)
      have hpadded' : padded ≠ [] := by
        rintro rfl
        cases hpadded
        exact htexts rfl
      refine ⟨(before ++ cs ++ []) :: padded, .cons ⟨hbefore, List.forall_mem_nil _⟩ hpadded, ?_⟩
      rw [List.map_cons, intercalate_cons_of_ne_nil _ _ hmap,
        intercalate_cons_of_ne_nil _ _ hpadded', List.append_assoc _ _ after, heq, List.append_nil]

/-- Parts are written between brackets. -/
theorem enclosed_enclose {l : Layout} (hl : l.Blank) (depth : Nat) (opening closing : Char)
    (texts : List (List Char)) :
    Enclosed opening closing texts (l.enclose depth opening closing texts) := by
  rw [Layout.enclose]
  cases texts with
  | nil => exact .empty (List.forall_mem_nil _)
  | cons cs texts =>
    obtain ⟨padded, hpadded, heq⟩ := exists_padded (hl.before (depth + 1)) (hl.before depth)
      (List.cons_ne_nil cs texts)
    rw [if_neg (by simp), List.cons_append, List.cons_append, heq]
    exact .parts (List.cons_ne_nil _ _) hpadded

end Value

/-! ### Reading a value -/

theorem tokensFrom_number_text {n : Number} (h : (Value.number n).Integral) {rest : List Char}
    (hrest : EndsNumber rest) :
    ∃ numeral, n.draft = .numeral numeral ∧
      tokensFrom .between (n.text.toList ++ rest)
        = .numeral numeral :: tokensFrom .between rest := by
  cases n with
  | natural n =>
    refine ⟨_, rfl, ?_⟩
    rw [Number.text, Nat.toString_eq_ofList_toDigits, String.toList_ofList,
      tokensFrom_natural n hrest]
  | negative n =>
    refine ⟨_, rfl, ?_⟩
    have hdigits : (toString n).toList = Nat.toDigits 10 n := by
      rw [Nat.toString_eq_ofList_toDigits, String.toList_ofList]
    rw [Number.text, String.toList_append, hdigits]
    exact tokensFrom_negative n hrest
  | float x => exact absurd h id

mutual

/-- A value without fractions is read as its tree. -/
theorem readAs_chars {l : Value.Layout} (hl : l.Blank) :
    ∀ (v : Value), v.Integral → ∀ (depth : Nat), ReadAs (v.chars l depth) v.draft
  | .null, _, _ => fun _ _ _ _ => readFrom_leaf rfl rfl
  | .bool b, _, _ => by
    intro _ _ _ _
    cases b
    · exact readFrom_leaf rfl rfl
    · exact readFrom_leaf rfl rfl
  | .number n, h, _ => by
    intro _ _ _ hrest
    obtain ⟨numeral, hdraft, htokens⟩ := tokensFrom_number_text h hrest
    exact readFrom_leaf htokens (by rw [Value.draft, hdraft]; rfl)
  | .text s, _, _ => fun _ _ rest _ =>
    readFrom_leaf (tokensFrom_textSpelled (textSpelled_textChars s) rest) rfl
  | .array elements, h, depth =>
    .of_enclosed_array (readAs_elementChars hl elements h (depth + 1))
      (Value.enclosed_enclose hl depth '[' ']' _)
  | .object members, h, depth =>
    .of_enclosed_object (readAs_memberChars hl members h (depth + 1))
      (Value.enclosed_enclose hl depth '\x7b' '\x7d' _)

theorem readAs_elementChars {l : Value.Layout} (hl : l.Blank) :
    ∀ (vs : List Value), Value.ElementsIntegral vs → ∀ (depth : Nat),
      List.Forall₂ ReadAs (Value.elementChars l depth vs) (Value.elementDrafts vs)
  | [], _, _ => .nil
  | v :: vs, h, depth =>
    .cons (readAs_chars hl v h.1 depth) (readAs_elementChars hl vs h.2 depth)

theorem readAs_memberChars {l : Value.Layout} (hl : l.Blank) :
    ∀ (ms : List (String × Value)), Value.MembersIntegral ms → ∀ (depth : Nat),
      List.Forall₂ MemberReadAs (Value.memberChars l depth ms) (Value.memberDrafts ms)
  | [], _, _ => .nil
  | m :: ms, h, depth =>
    .cons (readAs_oneMemberChars hl m h.1 depth) (readAs_memberChars hl ms h.2 depth)

theorem readAs_oneMemberChars {l : Value.Layout} (hl : l.Blank) :
    ∀ (m : String × Value), Value.MemberIntegral m → ∀ (depth : Nat),
      MemberReadAs (Value.oneMemberChars l depth m) (Value.memberDraft m)
  | (key, v), h, depth => by
    obtain ⟨blanks, hafter, hblanks⟩ := hl.afterKey
    have hmember := (readAs_chars hl v h depth).member
      (tokensFrom_textSpelled (textSpelled_textChars key))
      (List.forall_mem_nil _) hblanks
    rwa [List.append_nil, ← List.cons_append, ← hafter, ← List.append_assoc] at hmember

end

/-! ### Reading a text -/

/-- A written value, and blanks behind it, is read as its tree. -/
theorem draft_chars {l : Value.Layout} (hl : l.Blank) {v : Value} (h : v.Integral)
    {blanks : List Char} (hblanks : AllBlank blanks) :
    draft (String.ofList (v.chars l 0 ++ blanks)) = (v.draft, []) := by
  refine (readAs_chars hl v h 0).draft_eq ?_
  rw [String.toList_ofList]
  exact Padded.mk (List.forall_mem_nil _) hblanks

/-- A written value is a JSON text of what its tree is. -/
theorem Value.ofString?_chars {l : Layout} (hl : l.Blank) {v : Value} (h : v.Integral) :
    ofString? (String.ofList (v.chars l 0)) = ofDraft? nestingLimit v.draft := by
  have hdraft := draft_chars hl h (List.forall_mem_nil _)
  rw [List.append_nil] at hdraft
  rw [ofString?, hdraft]

/-- The whole of a written value, and blanks behind it, is read. -/
theorem readString_chars {α : Type} (read : Reading α) {l : Value.Layout} (hl : l.Blank) {v : Value}
    (h : v.Integral) {blanks : List Char} (hblanks : AllBlank blanks) :
    readString read (String.ofList (v.chars l 0 ++ blanks)) = read v.draft := by
  rw [readString, draft_chars hl h hblanks]
  dsimp only
  cases read v.draft <;> rfl

theorem readString_pretty {α : Type} (read : Reading α) {v : Value} (h : v.Integral) :
    readString read (v.pretty ++ "\n") = read v.draft := by
  have hline : v.pretty ++ "\n" = String.ofList (v.chars .pretty 0 ++ ['\n']) := by
    rw [String.ofList_append]
    rfl
  rw [hline]
  exact readString_chars read Value.blank_pretty h
    (List.forall_mem_singleton.mpr (Or.inr (Or.inl rfl)))

namespace Value

variable {α : Type} {read : Reading α} {v w : Value} {a b : α}

/-- However the value is written, it is read as `a`: on one line, with its parts on lines of their
own, and with the last of these lines ended. -/
structure ReadsBack (read : Reading α) (v : Value) (a : α) : Prop where
  compact : readString read v.compact = .ok a
  pretty : readString read v.pretty = .ok a
  printed : readString read (v.pretty ++ "\n") = .ok a

theorem readsBack_of_draft (hv : v.Integral) (h : read v.draft = .ok a) : v.ReadsBack read a := by
  have hread {l : Layout} (hl : l.Blank) :
      readString read (String.ofList (v.chars l 0)) = .ok a := by
    have hnone : AllBlank [] := List.forall_mem_nil _
    have hchars := readString_chars read hl hv hnone
    rw [List.append_nil] at hchars
    rw [hchars, h]
  exact ⟨hread blank_compact, hread blank_pretty, (readString_pretty read hv).trans h⟩

/-- Two ways to write a value. -/
def writings : List (Value → String) := [compact, pretty]

/-- What is written alike is read as the same. -/
theorem ReadsBack.eq_of_written (hv : v.ReadsBack read a) (hw : w.ReadsBack read b)
    {write : Value → String} (hwrite : write ∈ writings) (h : write v = write w) : a = b := by
  have hread : readString read (write v) = .ok a ∧ readString read (write w) = .ok b := by
    rcases List.mem_pair.mp hwrite with rfl | rfl
    · exact ⟨hv.compact, hw.compact⟩
    · exact ⟨hv.pretty, hw.pretty⟩
  rw [h, hread.2] at hread
  exact (Except.ok.inj hread.1).symm

end Value

end KnowledgeImport.Json
