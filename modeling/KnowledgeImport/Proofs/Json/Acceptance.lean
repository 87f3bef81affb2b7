import KnowledgeImport.Proofs.Json.Faults
import KnowledgeImport.Proofs.Json.Reading

/-!
# What is read is spelled

A text is read as a value only if it spells it.  After each token the characters so far are those
that the open frames stand for (`Opened`), and the token either keeps that or finishes with a tree
whose value, if it has one, is spelled by all of them (`Opened.step`).  With the other direction
this says exactly which texts are read, and as what (`Value.ofString?_eq_some_iff`).
-/

namespace KnowledgeImport.Json

open Lexer Draft Value

/-! ### Trees and their spelling -/

/-- The characters spell the value of the tree, if it has one. -/
def Draft.Spelled (d : Draft) (w : List Char) : Prop :=
  ∀ k v, ofDraft? k d = some v → v.Spelled w

/-- The characters spell the member of the two trees, if they are one. -/
def Draft.MemberSpelled (d : Draft × Draft) (w : List Char) : Prop :=
  ∀ k m, ofMember? k d = some m → Value.MemberSpelled m w

/-- A token that is a value by itself spells it. -/
theorem Lexeme.leaf {t : Token} {w : List Char} (h : Lexeme t w) {d : Draft}
    (hd : leaf? t = some d) : d.Spelled w := by
  intro k v hv
  cases h with
  | openArray | closeArray | openObject | closeObject | comma | colon => cases hd
  | null | true | false =>
    cases hd
    cases hv
    rfl
  | @numeral n _ h =>
    cases hd
    obtain ⟨x, hx, rfl⟩ := Option.map_eq_some_iff.mp hv
    exact ⟨n, h, hx⟩
  | @text s _ h =>
    cases hd
    cases s with
    | text s =>
      cases hv
      exact h s rfl
    | faulty f => cases hv

theorem spelled_array {ds : List Draft} {texts : List (List Char)} {w : List Char}
    (h : List.Forall₂ Draft.Spelled ds texts) (hw : Enclosed '[' ']' texts w) :
    (Draft.array ds none).Spelled w := by
  intro k v hv
  obtain ⟨-, -, vs, hvs, rfl⟩ := ofDraft?_array_eq_some_iff.mp hv
  refine ⟨texts, ?_, hw⟩
  clear hw hv
  induction h generalizing vs with
  | nil =>
    obtain rfl : [] = vs := Option.some.inj hvs
    rfl
  | cons hd _ ih =>
    obtain ⟨v, rest, hv, hrest, rfl⟩ := ofDrafts?_cons_eq_some_iff.mp hvs
    exact ⟨_, _, hd _ _ hv, ih _ hrest, rfl⟩

theorem spelled_object {ds : List (Draft × Draft)} {texts : List (List Char)} {w : List Char}
    (h : List.Forall₂ Draft.MemberSpelled ds texts) (hw : Enclosed '\x7b' '\x7d' texts w) :
    (Draft.object ds none).Spelled w := by
  intro k v hv
  obtain ⟨-, -, ms, hms, rfl⟩ := ofDraft?_object_eq_some_iff.mp hv
  refine ⟨texts, ?_, hw⟩
  clear hw hv
  induction h generalizing ms with
  | nil =>
    obtain rfl : [] = ms := Option.some.inj hms
    rfl
  | cons hd _ ih =>
    obtain ⟨m, rest, hm, hrest, rfl⟩ := ofMembers?_cons_eq_some_iff.mp hms
    exact ⟨_, _, hd _ _ hm, ih _ hrest, rfl⟩

/-- A key, a colon and a value spell a member. -/
theorem memberSpelled {s : Spelling} {key before after w : List Char} {d : Draft}
    (hkey : ∀ t, s = .text t → TextSpelled t key) (hbefore : AllBlank before)
    (hafter : AllBlank after) (hd : d.Spelled w) :
    Draft.MemberSpelled (.text s, d) (key ++ before ++ ':' :: (after ++ w)) := by
  intro k m hm
  obtain ⟨t, v, hs, hv, rfl⟩ := ofMember?_eq_some_iff.mp hm
  cases hs
  exact ⟨key, before, after, w, hkey t rfl, hbefore, hafter, hd k v hv, rfl⟩

/-! ### What open frames stand for -/

/-- The characters are an opening bracket and the parts, the last one first, with commas. -/
inductive PartsRead {β : Type} (spelled : β → List Char → Prop) (opening : Char) (read : List β) :
    List Char → Prop
  | mk {texts padded : List (List Char)} (hne : padded ≠ [])
      (hread : List.Forall₂ spelled read.reverse texts)
      (hpadded : List.Forall₂ Padded texts padded) :
      PartsRead spelled opening read (opening :: [','].intercalate padded)

/-- The characters are an opening bracket and what stands before another part. -/
inductive PartDue {β : Type} (spelled : β → List Char → Prop) (opening : Char) :
    Bool → List β → List Char → Prop
  | first {blanks : List Char} (hblanks : AllBlank blanks) :
      PartDue spelled opening true [] (opening :: blanks)
  | next {read : List β} {cs blanks : List Char} (h : PartsRead spelled opening read cs)
      (hblanks : AllBlank blanks) : PartDue spelled opening false read (cs ++ ',' :: blanks)

theorem intercalate_concat {α : Type} (sep x : List α) {xs : List (List α)} (h : xs ≠ []) :
    sep.intercalate (xs ++ [x]) = sep.intercalate xs ++ sep ++ x := by
  induction xs with
  | nil => exact absurd rfl h
  | cons y ys ih =>
    by_cases hys : ys = []
    · subst hys
      simp [List.intercalate_cons_cons, List.intercalate_singleton]
    · rw [List.cons_append, intercalate_cons_of_ne_nil _ _ (by simp), ih hys,
        intercalate_cons_of_ne_nil _ _ hys]
      simp only [List.append_assoc]

section

variable {β : Type} {spelled : β → List Char → Prop} {opening : Char} {read : List β}
  {cs w blanks : List Char}

/-- One more part, with blanks behind it. -/
theorem PartDue.part {first : Bool} (h : PartDue spelled opening first read cs) {part : β}
    (hpart : spelled part w) (hblanks : AllBlank blanks) :
    PartsRead spelled opening (part :: read) (cs ++ (w ++ blanks)) := by
  cases h with
  | @first before hbefore =>
    have hread : List.Forall₂ spelled [part].reverse [w] := .cons hpart .nil
    have hparts : PartsRead spelled opening [part] _ :=
      .mk (List.cons_ne_nil _ _) hread (.cons (Padded.mk hbefore hblanks) .nil)
    simpa [List.intercalate_singleton] using hparts
  | @next cs _ before h hbefore =>
    obtain @⟨texts, padded, hne, hread, hpadded⟩ := h
    have hread' : List.Forall₂ spelled (part :: read).reverse (texts ++ [w]) := by
      rw [List.reverse_cons]
      exact List.rel_append hread (.cons hpart .nil)
    have hparts : PartsRead spelled opening (part :: read) _ :=
      .mk (by simp) hread' (List.rel_append hpadded (.cons (Padded.mk hbefore hblanks) .nil))
    rw [intercalate_concat _ _ hne] at hparts
    simpa using hparts

/-- The closing bracket of an empty pair. -/
theorem PartDue.enclosed (h : PartDue spelled opening true read cs) (closing : Char) :
    List.Forall₂ spelled read.reverse [] ∧ Enclosed opening closing [] (cs ++ [closing]) := by
  cases h with
  | first hblanks => exact ⟨.nil, .empty hblanks⟩

/-- The parts and the closing bracket. -/
theorem PartsRead.enclosed (h : PartsRead spelled opening read cs) (closing : Char) :
    ∃ texts, List.Forall₂ spelled read.reverse texts ∧
      Enclosed opening closing texts (cs ++ [closing]) := by
  obtain ⟨hne, hread, hpadded⟩ := h
  refine ⟨_, hread, .parts ?_ hpadded⟩
  rintro rfl
  cases hpadded
  exact hne rfl

end

/-- The characters are what was read of a frame, and this is due in it. -/
inductive FrameRead : Frame → Due → List Char → Prop
  | element {first : Bool} {read : List Draft} {cs : List Char}
      (h : PartDue Draft.Spelled '[' first read cs) : FrameRead (.array read) (.value first) cs
  | elements {read : List Draft} {cs : List Char} (h : PartsRead Draft.Spelled '[' read cs) :
      FrameRead (.array read) .separator cs
  | key {first : Bool} {read : List (Draft × Draft)} {cs : List Char}
      (h : PartDue Draft.MemberSpelled '\x7b' first read cs) :
      FrameRead (.object read) (.key first) cs
  | members {read : List (Draft × Draft)} {cs : List Char}
      (h : PartsRead Draft.MemberSpelled '\x7b' read cs) : FrameRead (.object read) .separator cs
  | colon {first : Bool} {read : List (Draft × Draft)} {cs key blanks : List Char} {s : Spelling}
      (h : PartDue Draft.MemberSpelled '\x7b' first read cs)
      (hkey : ∀ t, s = .text t → TextSpelled t key) (hblanks : AllBlank blanks) :
      FrameRead (.member read (.text s)) .colon (cs ++ (key ++ blanks))
  | member {first : Bool} {read : List (Draft × Draft)} {cs key before after : List Char}
      {s : Spelling} (h : PartDue Draft.MemberSpelled '\x7b' first read cs)
      (hkey : ∀ t, s = .text t → TextSpelled t key) (hbefore : AllBlank before)
      (hafter : AllBlank after) :
      FrameRead (.member read (.text s)) (.value false) (cs ++ (key ++ before ++ ':' :: after))

/-- The characters are what was read before and in the open frames, and this is due in the
innermost of them. -/
inductive Opened : List Frame → Due → List Char → Prop
  | nil {blanks : List Char} (hblanks : AllBlank blanks) : Opened [] (.value false) blanks
  | cons {f : Frame} {frames : List Frame} {first : Bool} {due : Due} {outer inner : List Char}
      (houter : Opened frames (.value first) outer) (h : FrameRead f due inner) :
      Opened (f :: frames) due (outer ++ inner)

/-- What goes on agrees with the characters so far, and what finishes has the value that they
spell, if any. -/
def Draft.Progress.Agrees : Progress → List Char → Prop
  | .goOn frames due, cs => Opened frames due cs
  | .finished d, cs => ∀ k v, ofDraft? k d = some v → ∃ w, v.Spelled w ∧ Padded w cs

theorem agrees_of_faulty {d : Draft} (h : d.Faulty) (cs : List Char) :
    (Progress.finished d).Agrees cs := by
  intro k v hv
  rw [h k] at hv
  cases hv

section

variable {frames : List Frame} {due : Due} {first : Bool} {cs w blanks : List Char}

/-- A value is put into the innermost frame, or is all there is. -/
theorem Opened.agrees_filled (h : Opened frames (.value first) cs) {d : Draft} (hd : d.Spelled w)
    (hblanks : AllBlank blanks) : (Draft.filled frames d).Agrees (cs ++ (w ++ blanks)) := by
  cases h with
  | nil hbefore =>
    intro k v hv
    rw [← List.append_assoc]
    exact ⟨w, hd k v hv, .mk hbefore hblanks⟩
  | cons houter h =>
    show Opened _ _ _
    rw [List.append_assoc]
    cases h with
    | element h => exact .cons houter (.elements (h.part hd hblanks))
    | member h hkey hbefore hafter =>
      refine .cons houter (.members ?_)
      have hmember := h.part (memberSpelled hkey hbefore hafter hd) hblanks
      simpa using hmember

/-- A token that is a value by itself, or is out of place. -/
theorem Opened.agrees_leaf (h : Opened frames (.value first) cs) {t : Token} (ht : Lexeme t w)
    (hblanks : AllBlank blanks) :
    Progress.Agrees (match leaf? t with
      | some d => Draft.filled frames d
      | none => .finished (Frame.collapse (stop t) frames)) (cs ++ (w ++ blanks)) := by
  split
  case h_1 d hd => exact h.agrees_filled (ht.leaf hd) hblanks
  case h_2 => exact agrees_of_faulty (faulty_collapse (faulty_stop t) frames) _

/-- The closing bracket of the innermost frame. -/
theorem Opened.agrees_close {outer inner : List Char} {closing : Char} {d : Draft}
    (houter : Opened frames (.value first) outer) (hd : d.Spelled (inner ++ [closing]))
    (hblanks : AllBlank blanks) :
    (Draft.filled frames d).Agrees (outer ++ inner ++ ([closing] ++ blanks)) := by
  have hfilled := houter.agrees_filled hd hblanks
  simpa using hfilled

/-- One token where a value is due. -/
theorem Opened.step_value (h : Opened frames (.value first) cs) {t : Token} (ht : Lexeme t w)
    (hblanks : AllBlank blanks) : (step frames (.value first) t).Agrees (cs ++ (w ++ blanks)) := by
  unfold Draft.step
  simp only
  split
  -- an array or an object is opened
  case h_1 =>
    cases ht
    exact .cons h (.element (.first hblanks))
  case h_2 =>
    cases ht
    exact .cons h (.key (.first hblanks))
  -- an array is closed, which is right only if it has just been opened
  case h_3 read rest =>
    split_ifs with hfirst
    · subst hfirst
      cases ht
      cases h with
      | cons houter h =>
        cases h with
        | element h =>
          obtain ⟨hread, henclosed⟩ := h.enclosed ']'
          exact houter.agrees_close (spelled_array hread henclosed) hblanks
    · exact agrees_of_faulty (faulty_collapse (faulty_broken _) _) _
  case h_4 => exact h.agrees_leaf ht hblanks

/-- One token where a key is due. -/
theorem Opened.step_key (h : Opened frames (.key first) cs) {t : Token} (ht : Lexeme t w)
    (hblanks : AllBlank blanks) : (step frames (.key first) t).Agrees (cs ++ (w ++ blanks)) := by
  cases h with
  | cons houter h =>
    cases h with
    | key h =>
      unfold Draft.step
      simp only
      split
      case h_1 hframes =>
        cases hframes
        split_ifs with hfirst
        · subst hfirst
          cases ht
          obtain ⟨hread, henclosed⟩ := h.enclosed '\x7d'
          exact houter.agrees_close (spelled_object hread henclosed) hblanks
        · exact agrees_of_faulty (faulty_collapse (faulty_broken _) _) _
      case h_2 hframes =>
        cases hframes
        cases ht with
        | text hkey =>
          show Opened _ _ _
          rw [List.append_assoc]
          exact .cons houter (.colon h hkey hblanks)
      case h_3 => exact agrees_of_faulty (faulty_collapse_object _ _ _) _

/-- One token where a colon is due. -/
theorem Opened.step_colon (h : Opened frames .colon cs) {t : Token} (ht : Lexeme t w)
    (hblanks : AllBlank blanks) : (step frames .colon t).Agrees (cs ++ (w ++ blanks)) := by
  unfold Draft.step
  simp only
  split
  case h_1 =>
    cases ht
    cases h with
    | cons houter h =>
      cases h with
      | colon h hkey hbefore =>
        show Opened _ _ _
        have hmember := Opened.cons houter (.member h hkey hbefore hblanks)
        simpa using hmember
  case h_2 => exact agrees_of_faulty (faulty_collapse (faulty_broken _) _) _

/-- One token where a comma is due, or the end of the innermost frame. -/
theorem Opened.step_separator (h : Opened frames .separator cs) {t : Token} (ht : Lexeme t w)
    (hblanks : AllBlank blanks) : (step frames .separator t).Agrees (cs ++ (w ++ blanks)) := by
  unfold Draft.step
  simp only
  split
  case h_5 => exact agrees_of_faulty (faulty_collapseAt _ _) _
  -- in all other cases parts were read of the innermost frame
  all_goals
    cases ht
    rcases h with _ | ⟨houter, h⟩
    cases h
    rename_i h
  case h_1 =>
    show Opened _ _ _
    rw [List.append_assoc]
    exact .cons houter (.element (.next h hblanks))
  case h_2 =>
    show Opened _ _ _
    rw [List.append_assoc]
    exact .cons houter (.key (.next h hblanks))
  case h_3 =>
    obtain ⟨_, hread, henclosed⟩ := h.enclosed ']'
    exact houter.agrees_close (spelled_array hread henclosed) hblanks
  case h_4 =>
    obtain ⟨_, hread, henclosed⟩ := h.enclosed '\x7d'
    exact houter.agrees_close (spelled_object hread henclosed) hblanks

/-- One token keeps what the open frames stand for, or finishes with a value that is spelled. -/
theorem Opened.step (h : Opened frames due cs) {t : Token} (ht : Lexeme t w)
    (hblanks : AllBlank blanks) : (Draft.step frames due t).Agrees (cs ++ (w ++ blanks)) := by
  cases due with
  | value first => exact h.step_value ht hblanks
  | key first => exact h.step_key ht hblanks
  | colon => exact h.step_colon ht hblanks
  | separator => exact h.step_separator ht hblanks

end

/-- The value of a whole run over tokens is spelled by the characters before and in it. -/
theorem Opened.build {ts : List Token} {rest : List Char} (hlexed : Lexed ts rest)
    {frames : List Frame} {due : Due} {cs : List Char} (h : Opened frames due cs) {d : Draft}
    (hbuild : Draft.build frames due ts = (d, [])) :
    (Progress.finished d).Agrees (cs ++ rest) := by
  induction hlexed generalizing frames due cs with
  | nil =>
    cases hbuild
    exact agrees_of_faulty (faulty_atEnd frames due) _
  | @token t ts w blanks rest ht hblanks hrest ih =>
    have hstep := h.step ht hblanks
    -- the token and the blanks behind it belong to what was read
    have hassoc : cs ++ (w ++ (blanks ++ rest)) = cs ++ (w ++ blanks) ++ rest := by
      simp only [List.append_assoc]
    rw [Draft.build] at hbuild
    rw [hassoc]
    cases hp : Draft.step frames due t with
    | goOn frames due =>
      rw [hp] at hbuild hstep
      exact ih hstep hbuild
    | finished e =>
      rw [hp] at hbuild hstep
      cases hbuild
      cases hrest
      rwa [List.append_nil]
  | breaks ht =>
    obtain ⟨e, he, hfaulty⟩ := step_of_breaks ht frames due
    rw [Draft.build, he] at hbuild
    cases hbuild
    exact agrees_of_faulty hfaulty _

/-! ### How deep what is read is nested -/

namespace Value

mutual

/-- What is read is not nested deeper than is allowed. -/
theorem depth_le : ∀ (v : Value) {k : Nat} {d : Draft}, ofDraft? k d = some v → v.depth ≤ k
  | .null, _, _, _ | .bool _, _, _, _ | .number _, _, _, _ | .text _, _, _, _ => Nat.zero_le _
  | .array vs, k, d, h => by
    obtain ⟨hk, _, hds⟩ := exists_drafts_of_array h
    have hle := elementsDepth_le vs hds
    rw [depth]
    omega
  | .object ms, k, d, h => by
    obtain ⟨hk, _, -, hds⟩ := exists_drafts_of_object h
    have hle := membersDepth_le ms hds
    rw [depth]
    omega

theorem elementsDepth_le : ∀ (vs : List Value) {k : Nat} {ds : List Draft},
    ofDrafts? k ds = some vs → elementsDepth vs ≤ k
  | [], _, _, _ => Nat.zero_le _
  | v :: vs, k, [], h => nomatch h
  | v :: vs, k, d :: ds, h => by
    obtain ⟨v, vs, hv, hvs, ⟨⟩⟩ := ofDrafts?_cons_eq_some_iff.mp h
    exact Nat.max_le.mpr ⟨depth_le v hv, elementsDepth_le vs hvs⟩

theorem membersDepth_le : ∀ (ms : List (String × Value)) {k : Nat} {ds : List (Draft × Draft)},
    ofMembers? k ds = some ms → membersDepth ms ≤ k
  | [], _, _, _ => Nat.zero_le _
  | m :: ms, k, [], h => nomatch h
  | m :: ms, k, d :: ds, h => by
    obtain ⟨m, ms, hm, hms, ⟨⟩⟩ := ofMembers?_cons_eq_some_iff.mp h
    exact Nat.max_le.mpr ⟨memberDepth_le m hm, membersDepth_le ms hms⟩

theorem memberDepth_le : ∀ (m : String × Value) {k : Nat} {d : Draft × Draft},
    ofMember? k d = some m → memberDepth m ≤ k
  | (key, v), k, (keyDraft, d), h => by
    obtain ⟨_, v, -, hv, ⟨⟩⟩ := ofMember?_eq_some_iff.mp h
    exact depth_le v hv

end

/-- Exactly the texts that spell a value, nested not too deep, are read, and as this value. -/
theorem ofString?_eq_some_iff {v : Value} {s : String} :
    ofString? s = some v ↔ v.SpelledBy s ∧ v.depth ≤ nestingLimit := by
  constructor
  · intro h
    rw [ofString?] at h
    split at h
    case h_1 d hd =>
      refine ⟨?_, depth_le v h⟩
      obtain ⟨blanks, rest, hblanks, hlexed, hs⟩ := (lexed_tokensFrom s.toList).1
      have hagrees := (Opened.nil hblanks).build hlexed hd
      rw [SpelledBy, hs]
      exact hagrees _ v h
    case h_2 => cases h
  · rintro ⟨h, hdepth⟩
    exact ofString?_of_spelledBy h hdepth

end Value

end KnowledgeImport.Json
