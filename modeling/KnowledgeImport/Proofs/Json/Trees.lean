import KnowledgeImport.Json.Record
import KnowledgeImport.Proofs.Json.Reading
import KnowledgeImport.Proofs.Json.Scanning
import KnowledgeImport.Proofs.Results

/-!
# Trees as they are written

Which characters a tree is written with (`Draft.Written`), and a whole text (`Draft.WrittenBy`).
Trees keep more of a text than values do: a number stands in them as it is written, and a text in
quotes may hold half of a surrogate pair, which is no fault as long as nobody asks for that text.  A
text with which a tree is written is read as this tree (`Draft.WrittenBy.draft_eq`), and a reader
who skips it finds no fault in it (`Draft.looseFault?_eq_none`).
-/

namespace KnowledgeImport.Json

open Lexer

/-! ### Texts with halves of surrogate pairs -/

/-- What may stand between quotes if halves of surrogate pairs may stand alone. -/
inductive LooselyQuoted : List Char → Prop
  | nil : LooselyQuoted []
  | plain {c : Char} {w : List Char} (hcontrol : 0x20 ≤ c.toNat) (hquote : c ≠ '"')
      (hbackslash : c ≠ '\\') (h : LooselyQuoted w) : LooselyQuoted (c :: w)
  | short {letter c : Char} {w : List Char} (hc : ShortEscape letter c) (h : LooselyQuoted w) :
      LooselyQuoted ('\\' :: letter :: w)
  | unit {n : Nat} {ds w : List Char} (hds : UnitSpelled n ds) (h : LooselyQuoted w) :
      LooselyQuoted ('\\' :: 'u' :: (ds ++ w))

/-- The characters, quotes included, spell the text, or they spell none because half of a pair
stands alone in them. -/
def Spelling.Written : Spelling → List Char → Prop
  | .text s, cs => TextSpelled s cs
  | .faulty f, cs => f = .malformed ∧
    ∃ w, LooselyQuoted w ∧ (∀ m, ¬ Quoted m w) ∧ cs = '"' :: (w ++ ['"'])

namespace Lexer

/-- The first fault, if there was one, is no early end. -/
def Partial.OnlyMalformed (p : Partial) : Prop := ∀ f ∈ p.fault, f = .malformed

theorem Partial.OnlyMalformed.blame {p : Partial} (h : p.OnlyMalformed) (half : Option Nat) :
    OnlyMalformed { p.blame .malformed with half := half } := by
  rintro f ⟨⟩
  cases hfault : p.fault with
  | none => rfl
  | some f => exact h f hfault

theorem Partial.OnlyMalformed.settle {p : Partial} (h : p.OnlyMalformed) : p.settle.OnlyMalformed := by
  rw [Partial.settle]
  split_ifs
  · exact h.blame _
  · exact h

theorem Partial.OnlyMalformed.pushUnit {p : Partial} (h : p.OnlyMalformed) (n : Nat) :
    (p.pushUnit n).OnlyMalformed := by
  rw [Partial.pushUnit]
  split
  case h_1 =>
    split_ifs
    · exact h
    · exact h.blame _
  case h_2 =>
    split_ifs
    · exact h
    · exact h.blame p.half
    · exact h

/-- What may stand between quotes is read up to the closing quote. -/
theorem tokensFrom_looselyQuoted {w : List Char} (h : LooselyQuoted w) {p : Partial}
    {front : List Char} (hreads : p.Reads front) (honly : p.OnlyMalformed) (rest : List Char) :
    ∃ p' : Partial, tokensFrom (.text p) (w ++ '"' :: rest) = p'.close :: tokensFrom .between rest ∧
      p'.Reads (front ++ w) ∧ p'.OnlyMalformed := by
  induction h generalizing p front with
  | nil =>
    refine ⟨p, ?_, by rwa [List.append_nil], honly⟩
    rw [List.nil_append, tokensFrom_cons]
    rfl
  | @plain c w hcontrol hquote hbackslash _ ih =>
    have hpush := hreads.settle.push p.half_settle (.plain hcontrol hquote hbackslash .nil)
    obtain ⟨p', htokens, hreads', honly'⟩ := ih hpush honly.settle
    refine ⟨p', ?_, by simpa using hreads', honly'⟩
    rw [List.cons_append, tokensFrom_cons]
    simp only [State.step, textStep, if_neg hquote, if_neg hbackslash, if_neg (Nat.not_lt.mpr hcontrol)]
    rw [List.nil_append, htokens]
  | @short letter c w hc _ ih =>
    have hpush := hreads.settle.push p.half_settle (.short hc .nil)
    obtain ⟨p', htokens, hreads', honly'⟩ := ih hpush honly.settle
    refine ⟨p', ?_, by simpa using hreads', honly'⟩
    rw [List.cons_append, List.cons_append, tokensFrom_shortEscape p hc, htokens]
  | @unit n ds w hds _ ih =>
    obtain ⟨p', htokens, hreads', honly'⟩ := ih (hreads.pushUnit hds) (honly.pushUnit n)
    refine ⟨p', ?_, by simpa using hreads', honly'⟩
    rw [List.cons_append, List.cons_append, List.append_assoc, tokensFrom_unitSpelled p hds, htokens]

theorem Partial.OnlyMalformed.exists_close {p : Partial} (h : p.OnlyMalformed) :
    ∃ s, p.close = .text s ∧ ∀ f, s = .faulty f → f = .malformed := by
  rw [Partial.close]
  split
  case h_1 f hfault =>
    refine ⟨_, rfl, ?_⟩
    rintro _ ⟨⟩
    exact h.settle f hfault
  case h_2 =>
    refine ⟨_, rfl, ?_⟩
    rintro _ ⟨⟩

/-- A text in quotes is read as one token, even if half of a pair stands alone in it. -/
theorem tokensFrom_written {s : Spelling} {cs : List Char} (h : s.Written cs) (rest : List Char) :
    tokensFrom .between (cs ++ rest) = .text s :: tokensFrom .between rest := by
  cases s with
  | text s => exact tokensFrom_textSpelled h rest
  | faulty f =>
    obtain ⟨rfl, w, hw, hnone, rfl⟩ := h
    have hempty : Partial.Reads {} [] := fun _ => Quoted.nil
    obtain ⟨p, htokens, hreads, honly⟩ := tokensFrom_looselyQuoted hw hempty nofun rest
    obtain ⟨s, hclose, hfault⟩ := honly.exists_close
    have hopen : tokensFrom .between ('"' :: (w ++ ['"']) ++ rest)
        = tokensFrom (.text {}) (w ++ '"' :: rest) := by
      simp [tokensFrom_cons, State.step, start]
    rw [hopen, htokens, hclose]
    cases s with
    | faulty f => rw [hfault f rfl]
    | text t =>
      -- then the characters would spell the text
      have hlexeme := hreads.close
      rw [hclose, List.nil_append] at hlexeme
      cases hlexeme with
      | text hspelled =>
        obtain ⟨w', hw', heq⟩ := hspelled t rfl
        obtain rfl : w = w' := List.append_cancel_right (List.cons.inj heq).2
        exact absurd hw' (hnone _)

end Lexer

/-! ### Trees -/

namespace Draft

mutual

/-- The tree is written with the characters. -/
def Written : Draft → List Char → Prop
  | .null, cs => cs = ['n', 'u', 'l', 'l']
  | .bool b, cs => cs = if b then ['t', 'r', 'u', 'e'] else ['f', 'a', 'l', 's', 'e']
  | .numeral n, cs => n.Spelled cs
  | .text s, cs => s.Written cs
  | .array elements ending, cs =>
    ending = none ∧ ∃ parts, ElementsWritten elements parts ∧ Enclosed '[' ']' parts cs
  | .object members ending, cs =>
    ending = none ∧ ∃ parts, MembersWritten members parts ∧ Enclosed '\x7b' '\x7d' parts cs
  | .openText .., _ | .broken _, _ => False

/-- The elements are written with the parts, one each. -/
def ElementsWritten : List Draft → List (List Char) → Prop
  | [], parts => parts = []
  | d :: ds, parts => ∃ cs rest, d.Written cs ∧ ElementsWritten ds rest ∧ parts = cs :: rest

/-- The members are written with the parts, one each. -/
def MembersWritten : List (Draft × Draft) → List (List Char) → Prop
  | [], parts => parts = []
  | m :: ms, parts => ∃ cs rest, MemberWritten m cs ∧ MembersWritten ms rest ∧ parts = cs :: rest

/-- The member is written as its key, a colon, and its value. -/
def MemberWritten : Draft × Draft → List Char → Prop
  | (.text s, d), cs => ∃ k before after w, s.Written k ∧ AllBlank before ∧ AllBlank after ∧
    d.Written w ∧ cs = k ++ before ++ ':' :: (after ++ w)
  | _, _ => False

end

/-- The tree is written with the whole text. -/
def WrittenBy (d : Draft) (s : String) : Prop := ∃ cs, d.Written cs ∧ Padded cs s.toList

mutual

theorem readAs_of_written : ∀ (d : Draft) {cs : List Char}, d.Written cs → ReadAs cs d
  | .null, cs, h => by
    obtain rfl : cs = _ := h
    exact fun _ _ _ _ => readFrom_leaf rfl rfl
  | .bool b, cs, h => by
    obtain rfl : cs = _ := h
    intro _ _ _ _
    cases b
    · exact readFrom_leaf rfl rfl
    · exact readFrom_leaf rfl rfl
  | .numeral n, cs, h => fun _ _ _ hrest => readFrom_leaf (tokensFrom_numeral h hrest) rfl
  | .text s, cs, h => fun _ _ rest _ => readFrom_leaf (tokensFrom_written h rest) rfl
  | .array elements ending, cs, h => by
    obtain ⟨rfl, parts, hparts, hcs⟩ := h
    exact ReadAs.of_enclosed_array (readAs_of_elementsWritten elements hparts) hcs
  | .object members ending, cs, h => by
    obtain ⟨rfl, parts, hparts, hcs⟩ := h
    exact ReadAs.of_enclosed_object (readAs_of_membersWritten members hparts) hcs
  | .openText .., _, h => h.elim
  | .broken _, _, h => h.elim

theorem readAs_of_elementsWritten : ∀ (ds : List Draft) {parts : List (List Char)},
    ElementsWritten ds parts → List.Forall₂ ReadAs parts ds
  | [], parts, h => by
    obtain rfl : parts = [] := h
    exact .nil
  | d :: ds, parts, h => by
    obtain ⟨cs, rest, hd, hds, rfl⟩ := h
    exact .cons (readAs_of_written d hd) (readAs_of_elementsWritten ds hds)

theorem readAs_of_membersWritten : ∀ (ms : List (Draft × Draft)) {parts : List (List Char)},
    MembersWritten ms parts → List.Forall₂ MemberReadAs parts ms
  | [], parts, h => by
    obtain rfl : parts = [] := h
    exact .nil
  | m :: ms, parts, h => by
    obtain ⟨cs, rest, hm, hms, rfl⟩ := h
    exact .cons (readAs_of_memberWritten m hm) (readAs_of_membersWritten ms hms)

theorem readAs_of_memberWritten : ∀ (m : Draft × Draft) {cs : List Char},
    MemberWritten m cs → MemberReadAs cs m
  | (.text s, d), cs, h => by
    obtain ⟨k, before, after, w, hkey, hbefore, hafter, hd, rfl⟩ := h
    exact (readAs_of_written d hd).member (tokensFrom_written hkey) hbefore hafter
  | (.null, _), _, h | (.bool _, _), _, h | (.numeral _, _), _, h | (.array .., _), _, h
  | (.object .., _), _, h | (.openText .., _), _, h | (.broken _, _), _, h => by
    rw [MemberWritten] at h
    · exact h.elim
    · simp

end

mutual

/-- A reader who skips a tree that can be written finds no fault in it. -/
theorem looseFault?_eq_none : ∀ (d : Draft) {cs : List Char}, d.Written cs → looseFault? d = none
  | .null, _, _ | .bool _, _, _ | .numeral _, _, _ | .text _, _, _ => rfl
  | .array elements ending, cs, h => by
    obtain ⟨rfl, parts, hparts, -⟩ := h
    rw [looseFault?, looseFaults?_eq_none elements hparts]
    rfl
  | .object members ending, cs, h => by
    obtain ⟨rfl, parts, hparts, -⟩ := h
    rw [looseFault?, looseMemberFaults?_eq_none members hparts]
    rfl
  | .openText .., _, h => h.elim
  | .broken _, _, h => h.elim

theorem looseFaults?_eq_none : ∀ (ds : List Draft) {parts : List (List Char)},
    ElementsWritten ds parts → looseFaults? ds = none
  | [], _, _ => rfl
  | d :: ds, _, h => by
    obtain ⟨cs, rest, hd, hds, -⟩ := h
    rw [looseFaults?, looseFault?_eq_none d hd, looseFaults?_eq_none ds hds]
    rfl

theorem looseMemberFaults?_eq_none : ∀ (ms : List (Draft × Draft)) {parts : List (List Char)},
    MembersWritten ms parts → looseMemberFaults? ms = none
  | [], _, _ => rfl
  | m :: ms, _, h => by
    obtain ⟨cs, rest, hm, hms, -⟩ := h
    rw [looseMemberFaults?, looseMemberFault?_eq_none m hm, looseMemberFaults?_eq_none ms hms]
    rfl

theorem looseMemberFault?_eq_none : ∀ (m : Draft × Draft) {cs : List Char},
    MemberWritten m cs → looseMemberFault? m = none
  | (.text s, d), _, h => by
    obtain ⟨_, _, _, _, -, -, -, hd, -⟩ := h
    exact looseFault?_eq_none d hd
  | (.null, _), _, h | (.bool _, _), _, h | (.numeral _, _), _, h | (.array .., _), _, h
  | (.object .., _), _, h | (.openText .., _), _, h | (.broken _, _), _, h => by
    rw [MemberWritten] at h
    · exact h.elim
    · simp

end

/-! ### Whole texts -/

/-- A text with which a tree is written is read as the tree, and nothing is left. -/
theorem WrittenBy.draft_eq {d : Draft} {s : String} (h : d.WrittenBy s) : draft s = (d, []) := by
  obtain ⟨cs, hcs, hs⟩ := h
  exact (readAs_of_written d hcs).draft_eq hs

theorem WrittenBy.readString_eq_ok_iff {d : Draft} {s : String} (h : d.WrittenBy s) {α : Type}
    {read : Reading α} {a : α} : readString read s = .ok a ↔ read d = .ok a := by
  rw [readString, h.draft_eq, bind_eq_ok_iff]
  simp [pure_eq_ok_iff]

end Draft

end KnowledgeImport.Json
