import KnowledgeImport.Proofs.Yaml.Trees
import KnowledgeImport.Text.Blank
import Mathlib.Tactic.SplitIfs

/-!
# Texts of white space only

White space that YAML has no other use for is read as a plain scalar.  As nothing else can be read
of it, its tokens are plain scalars and the end of the stream (`isBare_of_mem_tokens`), its events
open no collection (`isFlat_of_mem_events`), and it spells no mapping
(`Tree.not_spelledBy_of_isAllBlank`).
-/

namespace KnowledgeImport.Yaml

/-- The spot holds white space, or it is the end of the text. -/
def Spot.IsWhite (s : Spot) : Prop := Text.isBlank s.char = true ∨ s.char = endChar

theorem isWhite_of_mem_spotsFrom {cs : List Char} (h : ∀ c ∈ cs, Text.isBlank c = true)
    (index line column : Nat) : ∀ s ∈ Spot.spotsFrom index line column cs, s.IsWhite := by
  fun_induction Spot.spotsFrom index line column cs with
  | case1 => exact List.forall_mem_singleton.mpr (.inr rfl)
  | case2 index line column cs ih =>
    obtain ⟨-, h⟩ := List.forall_mem_cons.mp h
    exact List.forall_mem_cons.mpr ⟨.inl rfl, ih (List.forall_mem_cons.mp h).2⟩
  | case3 index line column c cs _ _ shown ih =>
    obtain ⟨hc, hcs⟩ := List.forall_mem_cons.mp h
    refine List.forall_mem_cons.mpr ⟨.inl ?_, ih hcs⟩
    show Text.isBlank (if c = '\u2028' ∨ c = '\u2029' then c else '\n') = true
    split_ifs
    · exact hc
    · rfl
  | case4 index line column c cs _ _ ih =>
    obtain ⟨hc, hcs⟩ := List.forall_mem_cons.mp h
    exact List.forall_mem_cons.mpr ⟨.inl hc, ih hcs⟩

/-- A plain scalar takes spots from the front. -/
theorem rest_subset_of_readPlain {inFlow : Bool} {indent : Nat} {read : List Char} {fold : Fold}
    {spot : PlainSpot} {spots : List Spot} {s : ScalarText}
    (h : readPlain inFlow indent read fold spot spots = some s) : s.rest ⊆ spots := by
  fun_induction readPlain inFlow indent read fold spot spots with
  | case1 | case5 | case6 | case8 =>
    obtain rfl := Option.some.inj h
    exact List.Subset.refl _
  | case2 | case7 => cases h
  | case3 => rename_i ih; exact List.subset_cons_of_subset _ (ih h)
  | case4 => rename_i ih; exact List.subset_cons_of_subset _ (ih h)
  | case9 => rename_i ih; exact List.subset_cons_of_subset _ (ih h)

theorem skipGap_subset {inFlow allowed inComment : Bool} {spots : List Spot} :
    (TokenReader.skipGap inFlow allowed inComment spots).1 ⊆ spots := by
  induction spots generalizing allowed inComment with
  | nil => exact List.Subset.refl _
  | cons s rest ih =>
    have hgoes (allowed inComment : Bool) :
        (TokenReader.skipGap inFlow allowed inComment rest).1 ⊆ s :: rest :=
      List.subset_cons_of_subset _ ih
    rw [TokenReader.skipGap]
    split_ifs
    all_goals first | exact List.Subset.refl _ | exact hgoes _ _

/-! ### Tokens -/

/-- The token is a plain scalar, or the end of the stream. -/
def Token.IsBare (t : Token) : Prop := t = .streamEnd ∨ ∃ cs, t = .scalar .plain cs

namespace TokenReader

/-- Nothing but white space is left, and nothing but plain scalars was read. -/
structure Bare (r : TokenReader) : Prop where
  rest : ∀ s ∈ r.rest, s.IsWhite
  columns : r.columns = []
  flowKeys : r.flowKeys = []
  tokens : ∀ t ∈ r.tokens, t.IsBare

variable {r r' : TokenReader}

theorem Bare.push (h : r.Bare) {t : Token} (ht : t.IsBare) : (r.push t).Bare where
  rest := h.rest
  columns := h.columns
  flowKeys := h.flowKeys
  tokens u hu := by
    obtain hu | rfl := Array.mem_push.mp hu
    · exact h.tokens u hu
    · exact ht

theorem Bare.dropStale (h : r.Bare) (hr' : r.dropStale = some r') : r'.Bare := by
  rw [TokenReader.dropStale, h.flowKeys] at hr'
  obtain ⟨blockKey, -, hr'⟩ := Option.bind_eq_some_iff.mp hr'
  obtain ⟨_, hkeys, hr'⟩ := Option.bind_eq_some_iff.mp hr'
  obtain rfl := Option.some.inj hkeys
  obtain rfl := Option.some.inj hr'
  exact ⟨h.rest, h.columns, rfl, h.tokens⟩

theorem Bare.noteKey (h : r.Bare) (hr' : r.noteKey = some r') : r'.Bare ∧ r'.rest = r.rest := by
  have hset (r : TokenReader) (h : r.Bare) (k : Option PossibleKey) :
      (r.setCurrentKey k).Bare ∧ (r.setCurrentKey k).rest = r.rest := by
    rw [setCurrentKey, h.flowKeys]
    exact ⟨⟨h.rest, h.columns, rfl, h.tokens⟩, rfl⟩
  have hdrop {r₁ : TokenReader} (hr₁ : r.dropKey = some r₁) : r₁.Bare ∧ r₁.rest = r.rest := by
    rw [dropKey] at hr₁
    split at hr₁
    case h_1 =>
      split_ifs at hr₁
      obtain rfl := Option.some.inj hr₁
      exact hset r h none
    case h_2 =>
      obtain rfl := Option.some.inj hr₁
      exact ⟨h, rfl⟩
  rw [TokenReader.noteKey] at hr'
  split_ifs at hr'
  · obtain ⟨r₁, hr₁, hr'⟩ := Option.bind_eq_some_iff.mp hr'
    obtain ⟨hbare, hrest⟩ := hdrop hr₁
    obtain rfl := Option.some.inj hr'
    obtain ⟨hbare', hrest'⟩ := hset r₁ hbare _
    exact ⟨hbare', hrest'.trans hrest⟩
  · obtain rfl := Option.some.inj hr'
    exact ⟨h, rfl⟩

theorem Bare.plainScalar (h : r.Bare) (hr' : r.plainScalar = some r') : r'.Bare := by
  obtain ⟨r₁, hr₁, hr'⟩ := Option.bind_eq_some_iff.mp hr'
  obtain ⟨s, hs, hr'⟩ := Option.bind_eq_some_iff.mp hr'
  obtain rfl := Option.some.inj hr'
  obtain ⟨hbare, hrest⟩ := h.noteKey hr₁
  have hsubset : s.rest ⊆ r₁.rest := rest_subset_of_readPlain hs
  refine Bare.push ?_ (.inr ⟨_, rfl⟩)
  exact ⟨fun spot hspot => hbare.rest spot (hsubset hspot), hbare.columns, hbare.flowKeys,
    hbare.tokens⟩

theorem Bare.finish (h : r.Bare) (hr' : r.finish = some r') : r'.Bare := by
  rw [TokenReader.finish] at hr'
  split_ifs at hr'
  obtain rfl := Option.some.inj hr'
  refine Bare.push ?_ (.inl rfl)
  rw [closeAllBlocks, inFlow, h.flowKeys, h.columns]
  exact ⟨h.rest, rfl, rfl, h.tokens⟩

/-- No white space is an indicator. -/
theorem Bare.dispatch (h : r.Bare) (hr' : r.dispatch = some r') : r'.Bare := by
  have hwhite : Text.isBlank (peek r.rest) = true ∨ peek r.rest = endChar := by
    cases hrest : r.rest with
    | nil => exact .inr rfl
    | cons s rest => exact h.rest s (hrest ▸ List.mem_cons_self)
  obtain hblank | hend := hwhite
  · have hne (c : Char) (hc : Text.isBlank c = false) : peek r.rest ≠ c := by
      rintro rfl
      rw [hblank] at hc
      cases hc
    have hrule (c : Char) (hc : Text.isBlank c = false) : isRule c r.rest = false := by
      simp [isRule, hne c hc]
    simp only [TokenReader.dispatch, hne endChar rfl, hne '%' rfl, hne '[' rfl, hne '\x7b' rfl,
      hne ']' rfl, hne '\x7d' rfl, hne ',' rfl, hne '-' rfl, hne '?' rfl, hne ':' rfl, hne '*' rfl,
      hne '&' rfl, hne '!' rfl, hne '|' rfl, hne '>' rfl, hne '\'' rfl, hne '"' rfl, hrule '-' rfl,
      hrule '.' rfl, decide_false, Bool.false_and, Bool.false_eq_true, if_false] at hr'
    split_ifs at hr'
    exact h.plainScalar hr'
  · rw [TokenReader.dispatch, if_pos hend] at hr'
    exact h.finish hr'

theorem Bare.readNext (h : r.Bare) (hr' : r.readNext = some r') : r'.Bare := by
  obtain ⟨r₁, hr₁, hr'⟩ := Option.bind_eq_some_iff.mp hr'
  have hbare : r₁.Bare := by
    refine Bare.dropStale ?_ hr₁
    exact ⟨fun s hs => h.rest s (skipGap_subset hs), h.columns, h.flowKeys, h.tokens⟩
  -- there are no blocks to close
  have hclosed : r₁.closeBlocks r₁.here.column = r₁ := by
    rw [closeBlocks, hbare.columns]
    obtain ⟨rest, tokens, columns, blockKey, flowKeys, keyAllowed, handedOn⟩ := r₁
    obtain rfl : columns = [] := hbare.columns
    split_ifs <;> rfl
  rw [hclosed] at hr'
  exact hbare.dispatch hr'

theorem Bare.readAll (h : r.Bare) (steps : Nat) : (readAll steps r).Bare := by
  induction steps generalizing r with
  | zero => exact h
  | succ steps ih =>
    rw [TokenReader.readAll]
    split_ifs
    · exact h
    · cases hr₁ : r.dropStale with
      | none => exact h
      | some r₁ =>
        have hbare : r₁.handOn.Bare := by
          obtain ⟨hrest, hcolumns, hflowKeys, htokens⟩ := h.dropStale hr₁
          exact ⟨hrest, hcolumns, hflowKeys, htokens⟩
        dsimp only
        cases hr₂ : r₁.handOn.readNext with
        | none => exact hbare
        | some r₂ => exact ih (hbare.readNext hr₂)

end TokenReader

theorem isWhite_of_mem_spots {s : String} (h : Text.isAllBlank s = true) :
    ∀ spot ∈ Spot.spots s, spot.IsWhite := by
  have hchars : ∀ c ∈ s.toList, Text.isBlank c = true := List.all_eq_true.mp h
  rw [Spot.spots]
  split
  case h_1 c cs hcs =>
    rw [hcs] at hchars
    have hmark : c ≠ byteOrderMark := by
      rintro rfl
      exact absurd (hchars byteOrderMark List.mem_cons_self) (by decide)
    rw [if_neg hmark]
    exact isWhite_of_mem_spotsFrom hchars 0 0 0
  case h_2 => exact isWhite_of_mem_spotsFrom (List.forall_mem_nil _) 0 0 0

theorem isBare_of_mem_tokens {s : String} (h : Text.isAllBlank s = true) :
    ∀ t ∈ tokens s, t.IsBare := by
  intro t ht
  have hbare (steps : Nat) : (TokenReader.readAll steps { rest := Spot.spots s }).Bare :=
    TokenReader.Bare.readAll ⟨isWhite_of_mem_spots h, rfl, rfl, by simp⟩ steps
  rw [tokens] at ht
  dsimp only at ht
  split_ifs at ht
  · exact (hbare _).tokens t (Array.mem_toList_iff.mp ht)
  · exact (hbare _).tokens t (Array.mem_toList_iff.mp (List.mem_of_mem_take ht))
  · cases ht

/-! ### Events -/

/-- The event opens no collection, and is no alias. -/
def Event.IsFlat : Event → Prop
  | .documentStart | .documentEnd | .scalar .. => True
  | _ => False

namespace EventReader

/-- There is nothing but plain scalars to come, and nothing but a document expected. -/
structure Bare (r : EventReader) : Prop where
  tokens : ∀ t ∈ r.tokens, t.IsBare
  stack : ∀ e ∈ r.stack, (∃ first, e = .document first) ∨ e = .node true false ∨ e = .documentEnd

variable {r r' : EventReader} {es : List Event}

theorem Bare.document (h : r.Bare) {first : Bool} (hr' : r.document first = some (es, r')) :
    (∀ e ∈ es, e.IsFlat) ∧ r'.Bare := by
  have hts : ∀ t ∈ (if first then r.tokens else r.tokens.dropWhile (· = .documentEnd)),
      t.IsBare := by
    intro t ht
    split_ifs at ht
    · exact h.tokens t ht
    · exact h.tokens t (List.dropWhile_subset _ ht)
  rw [EventReader.document] at hr'
  generalize (if first then r.tokens else r.tokens.dropWhile (· = .documentEnd)) = ts at hr' hts
  cases ts with
  | nil => cases hr'
  | cons t ts =>
    obtain ⟨ht, hbare⟩ := List.forall_mem_cons.mp hts
    obtain rfl | ⟨cs, rfl⟩ := ht
    · obtain ⟨rfl, rfl⟩ := Prod.mk.inj (Option.some.inj hr')
      exact ⟨List.forall_mem_nil _, hbare, List.forall_mem_nil _⟩
    · -- no directive and no mark stands before the scalar
      cases first with
      | false => simp [directives] at hr'
      | true =>
        simp only [directives, List.nil_append, Bool.not_true, Bool.or_false, Bool.or_eq_true,
          decide_eq_true_eq, Option.pure_def, Option.bind_eq_bind, Option.bind_some,
          Nat.lt_irrefl, List.head?_cons, Option.some.injEq, reduceCtorEq, or_self, ↓reduceIte,
          Prod.mk.injEq] at hr'
        obtain ⟨rfl, rfl⟩ := hr'
        exact ⟨List.forall_mem_singleton.mpr trivial, hts, by simp⟩

theorem Bare.node (h : r.Bare) {below : List Expected} (hbelow : ∀ e ∈ below,
    (∃ first, e = .document first) ∨ e = .node true false ∨ e = .documentEnd)
    (hr' : r.node true false below = some (es, r')) : (∀ e ∈ es, e.IsFlat) ∧ r'.Bare := by
  obtain ⟨tokens, stack, handles⟩ := r
  cases tokens with
  | nil => cases hr'
  | cons t ts =>
    obtain ⟨ht, hts⟩ := List.forall_mem_cons.mp h.tokens
    obtain rfl | ⟨cs, rfl⟩ := ht
    · cases hr'
    · obtain ⟨rfl, rfl⟩ := Prod.mk.inj (Option.some.inj hr')
      exact ⟨List.forall_mem_singleton.mpr trivial, hts, hbelow⟩

theorem Bare.step (h : r.Bare) (hr' : r.step = some (es, r')) :
    (∀ e ∈ es, e.IsFlat) ∧ r'.Bare := by
  rw [EventReader.step] at hr'
  cases hstack : r.stack with
  | nil =>
    rw [hstack] at hr'
    cases hr'
  | cons expected below =>
    obtain ⟨hexpected, hbelow⟩ := List.forall_mem_cons.mp (hstack ▸ h.stack)
    rw [hstack] at hr'
    obtain ⟨first, rfl⟩ | rfl | rfl := hexpected
    · exact h.document hr'
    · exact h.node hbelow hr'
    · cases htokens : r.tokens with
      | nil =>
        rw [htokens] at hr'
        cases hr'
      | cons t ts =>
        have hts := htokens ▸ h.tokens
        rw [htokens] at hr'
        obtain ⟨rfl, rfl⟩ := Prod.mk.inj (Option.some.inj hr')
        refine ⟨List.forall_mem_singleton.mpr trivial, ?_,
          List.forall_mem_singleton.mpr (.inl ⟨false, rfl⟩)⟩
        dsimp only
        split_ifs
        · exact (List.forall_mem_cons.mp hts).2
        · exact hts

theorem Bare.events (h : r.Bare) (steps : Nat) : ∀ e ∈ (events steps r).1, e.IsFlat := by
  induction steps generalizing r with
  | zero => exact List.forall_mem_nil _
  | succ steps ih =>
    rw [EventReader.events]
    split_ifs
    · exact List.forall_mem_nil _
    · cases hstep : r.step with
      | none => exact List.forall_mem_nil _
      | some next =>
        obtain ⟨hflat, hbare⟩ := h.step hstep
        exact List.forall_mem_append.mpr ⟨hflat, ih hbare⟩

end EventReader

theorem isFlat_of_mem_events {s : String} (h : Text.isAllBlank s = true) :
    ∀ e ∈ (events s).1, e.IsFlat := by
  refine EventReader.Bare.events ⟨isBare_of_mem_tokens h, ?_⟩ _
  exact List.forall_mem_singleton.mpr (.inl ⟨true, rfl⟩)

/-! ### Documents -/

/-- The part is a scalar, or there is no document. -/
def Part.IsFlat : Part → Prop
  | .nothing | .scalar .. => True
  | _ => False

theorem DocumentReader.isFlat_of_read {es : List Event} (hes : ∀ e ∈ es, e.IsFlat)
    {r : DocumentReader} (h : ∀ p ∈ r.document.parts, p.IsFlat) (whole : Bool) :
    ∀ p ∈ (r.read whole es).1.parts, p.IsFlat := by
  induction es generalizing r with
  | nil => exact h
  | cons e es ih =>
    obtain ⟨he, hrest⟩ := List.forall_mem_cons.mp hes
    match e, he with
    | .documentStart, _ => exact ih hrest h
    | .documentEnd, _ => exact h
    | .scalar p style text, _ =>
      refine ih hrest ?_
      have hparts : (r.push p.anchor (.scalar p.tag style text)).document.parts
          = r.document.parts ++ [.scalar p.tag style text] := by
        cases p.anchor <;> rfl
      rw [hparts]
      exact List.forall_mem_append.mpr ⟨h, List.forall_mem_singleton.mpr trivial⟩

theorem isFlat_of_mem_parts {s : String} (h : Text.isAllBlank s = true) :
    ∀ p ∈ (firstDocument s).1.parts, p.IsFlat := by
  have hes := isFlat_of_mem_events h
  rw [firstDocument]
  generalize events s = read at hes
  obtain ⟨es, whole⟩ := read
  have hempty : ∀ p ∈ ({} : DocumentReader).document.parts, p.IsFlat := List.forall_mem_nil _
  have hparts := DocumentReader.isFlat_of_read hes hempty whole
  dsimp only
  split_ifs
  · exact List.forall_mem_singleton.mpr trivial
  · exact hparts

/-- White space spells no mapping. -/
theorem Tree.not_spelledBy_of_isAllBlank {s : String} (h : Text.isAllBlank s = true)
    (es : List (Tree × Tree)) : ¬ (Tree.mapping es).SpelledBy s := by
  rintro ⟨d, hd, -, hholds⟩
  have hflat := isFlat_of_mem_parts h
  rw [hd] at hflat
  generalize d.parts = parts at hflat hholds
  cases hholds with
  | mapping => exact (List.forall_mem_cons.mp hflat).1
  | reference => exact (List.forall_mem_cons.mp hflat).1

end KnowledgeImport.Yaml
