import KnowledgeImport.Yaml.CoreScalar
import Mathlib.Data.List.Forall2
import Mathlib.Data.List.Nodup
import Mathlib.Tactic.SplitIfs

/-!
# How unsigned integers are spelled

A plus may stand in front.  Digits of base 16, 8 or 2 stand behind the mark of their base; decimal
digits have none, and no zero in front of others (`UnsignedSpelled`).  Exactly these spellings are
read as integers (`unsignedBelow?_eq_some_iff`).
-/

namespace KnowledgeImport.Yaml

open Text

/-- The characters are digits of the base, one at least, and spell the number. -/
def Digits (base : Nat) (cs : List Char) (n : Nat) : Prop :=
  cs ≠ [] ∧ ∃ vs, List.Forall₂ (fun c v => hexValue? c = some v ∧ v < base) cs vs ∧
    vs.foldl (fun n v => n * base + v) 0 = n

/-- The characters spell the number, without a sign. -/
inductive MagnitudeSpelled : List Char → Nat → Prop
  | hexadecimal {ds : List Char} {n : Nat} (h : Digits 16 ds n) :
      MagnitudeSpelled ('0' :: 'x' :: ds) n
  | octal {ds : List Char} {n : Nat} (h : Digits 8 ds n) : MagnitudeSpelled ('0' :: 'o' :: ds) n
  | binary {ds : List Char} {n : Nat} (h : Digits 2 ds n) : MagnitudeSpelled ('0' :: 'b' :: ds) n
  | decimal {ds : List Char} {n : Nat} (h : Digits 10 ds n)
      (hzero : ds.head? = some '0' → ds = ['0']) : MagnitudeSpelled ds n

/-- The characters spell the number, maybe with a plus in front. -/
inductive UnsignedSpelled : List Char → Nat → Prop
  | bare {cs : List Char} {n : Nat} (h : MagnitudeSpelled cs n) : UnsignedSpelled cs n
  | plus {cs : List Char} {n : Nat} (h : MagnitudeSpelled cs n) : UnsignedSpelled ('+' :: cs) n

/-! ### Digits -/

section

variable {base limit n : Nat} {cs : List Char}

/-- The number with one more digit. -/
theorem digitStep_eq_some_iff {m : Nat} {c : Char} : (do
      let d ← hexValue? c
      if d < base then some (m * base + d) else none) = some n ↔
    ∃ v, (hexValue? c = some v ∧ v < base) ∧ m * base + v = n := by
  cases hexValue? c <;> simp

theorem foldlM_digit_eq_some_iff {m : Nat} :
    cs.foldlM (fun n c => do
      let d ← hexValue? c
      if d < base then some (n * base + d) else none) m = some n ↔
    ∃ vs, List.Forall₂ (fun c v => hexValue? c = some v ∧ v < base) cs vs ∧
      vs.foldl (fun n v => n * base + v) m = n := by
  induction cs generalizing m with
  | nil => simp
  | cons c cs ih =>
    rw [List.foldlM_cons]
    simp only [List.forall₂_cons_left_iff]
    constructor
    · intro h
      obtain ⟨_, hstep, hrest⟩ := Option.bind_eq_some_iff.mp h
      obtain ⟨v, hv, rfl⟩ := digitStep_eq_some_iff.mp hstep
      obtain ⟨vs, hvs, hn⟩ := ih.mp hrest
      exact ⟨v :: vs, ⟨v, vs, hv, hvs, rfl⟩, hn⟩
    · rintro ⟨_, ⟨v, vs, hv, hvs, rfl⟩, hn⟩
      exact Option.bind_eq_some_iff.mpr
        ⟨_, digitStep_eq_some_iff.mpr ⟨v, hv, rfl⟩, ih.mpr ⟨vs, hvs, hn⟩⟩

theorem numeral?_eq_some_iff : numeral? base cs = some n ↔ Digits base cs n := by
  rw [numeral?, Digits]
  split_ifs with hnil
  · simp [List.isEmpty_iff.mp hnil]
  · rw [List.isEmpty_iff] at hnil
    rw [foldlM_digit_eq_some_iff, and_iff_right hnil]

theorem digitsBelow?_eq_some_iff :
    digitsBelow? limit base cs = some n ↔ Digits base cs n ∧ n < limit := by
  rw [← numeral?_eq_some_iff, digitsBelow?]
  cases numeral? base cs with
  | none => simp
  | some m =>
    simp only [Option.ite_none_right_eq_some, Option.some.injEq]
    constructor
    · rintro ⟨hlt, rfl⟩
      exact ⟨rfl, hlt⟩
    · rintro ⟨rfl, hlt⟩
      exact ⟨hlt, rfl⟩

/-- A sign, and a letter that marks a base, are no decimal digits. -/
theorem Digits.isDigit (h : Digits 10 cs n) : ∀ c ∈ cs, c.isDigit = true := by
  obtain ⟨-, vs, hvs, -⟩ := h
  induction hvs with
  | nil => exact List.forall_mem_nil _
  | @cons c v cs vs hv _ ih =>
    refine List.forall_mem_cons.mpr ⟨?_, ih⟩
    obtain ⟨hc, hlt⟩ := hv
    unfold hexValue? at hc
    split_ifs at hc with hdigit hlower hupper
    · simpa [Char.isDigit, Char.le_def] using hdigit
    · obtain rfl := Option.some.inj hc
      omega
    · obtain rfl := Option.some.inj hc
      omega

end

/-! ### Integers -/

theorem stripStart?_eq_some_iff {start cs rest : List Char} :
    stripStart? start cs = some rest ↔ cs = start ++ rest := by
  rw [stripStart?, Option.ite_none_right_eq_some, List.isPrefixOf_iff_prefix, Option.some.injEq]
  constructor
  · rintro ⟨⟨rest', rfl⟩, rfl⟩
    simp
  · rintro rfl
    exact ⟨List.prefix_append _ _, by simp⟩

/-- What a plus stands in front of spells no number with another one. -/
theorem MagnitudeSpelled.head_ne_plus {cs : List Char} {n : Nat} (h : MagnitudeSpelled cs n) :
    cs.head? ≠ some '+' := by
  cases h with
  | hexadecimal | octal | binary => simp
  | decimal h =>
    obtain ⟨c, cs, rfl⟩ := List.exists_cons_of_ne_nil h.1
    intro hc
    obtain rfl : c = '+' := Option.some.inj hc
    exact absurd (h.isDigit '+' List.mem_cons_self) (by decide)

/-- The text without the plus in front of it. -/
def withoutPlus (cs : List Char) : List Char := (stripStart? ['+'] cs).getD cs

theorem withoutPlus_plus (cs : List Char) : withoutPlus ('+' :: cs) = cs := by
  rw [withoutPlus, stripStart?_eq_some_iff.mpr (List.singleton_append).symm]
  rfl

theorem withoutPlus_of_head_ne {cs : List Char} (h : cs.head? ≠ some '+') : withoutPlus cs = cs := by
  cases hstrip : stripStart? ['+'] cs with
  | none => rw [withoutPlus, hstrip]; rfl
  | some rest =>
    rw [stripStart?_eq_some_iff.mp hstrip] at h
    exact absurd rfl h

theorem unsignedSpelled_iff {cs : List Char} {n : Nat} :
    UnsignedSpelled cs n ↔ MagnitudeSpelled (withoutPlus cs) n := by
  constructor
  · intro h
    cases h with
    | bare h => rwa [withoutPlus_of_head_ne h.head_ne_plus]
    | plus h => rwa [withoutPlus_plus]
  · intro h
    by_cases hplus : cs.head? = some '+'
    · obtain ⟨rest, rfl⟩ : ∃ rest, cs = '+' :: rest := by
        cases cs with
        | nil => cases hplus
        | cons c rest => exact ⟨rest, by rw [Option.some.inj hplus]⟩
      rw [withoutPlus_plus] at h
      exact .plus h
    · rw [withoutPlus_of_head_ne hplus] at h
      exact .bare h

/-- What behind a mark is read as the digits of its base. -/
def markedBelow? (limit : Nat) (body : List Char) : Option Nat :=
  markedBases.findSome? fun (mark, base) => (stripStart? mark body).bind (digitsBelow? limit base)

/-- The characters are a mark and digits of its base. -/
inductive MarkSpelled : List Char → Nat → Prop
  | mk {mark ds : List Char} {base n : Nat} (hmark : (mark, base) ∈ markedBases)
      (h : Digits base ds n) : MarkSpelled (mark ++ ds) n

theorem magnitudeSpelled_iff {cs : List Char} {n : Nat} : MagnitudeSpelled cs n ↔
    MarkSpelled cs n ∨ Digits 10 cs n ∧ (cs.head? = some '0' → cs = ['0']) := by
  constructor
  · intro h
    cases h with
    | hexadecimal h => exact .inl (@MarkSpelled.mk ['0', 'x'] _ 16 _ (by decide) h)
    | octal h => exact .inl (@MarkSpelled.mk ['0', 'o'] _ 8 _ (by decide) h)
    | binary h => exact .inl (@MarkSpelled.mk ['0', 'b'] _ 2 _ (by decide) h)
    | decimal h hzero => exact .inr ⟨h, hzero⟩
  · rintro (⟨hmark, h⟩ | ⟨h, hzero⟩)
    · rw [markedBases, List.mem_cons, List.mem_cons, List.mem_singleton] at hmark
      obtain ⟨⟨⟩⟩ | ⟨⟨⟩⟩ | ⟨⟨⟩⟩ := hmark
      · exact .hexadecimal h
      · exact .octal h
      · exact .binary h
    · exact .decimal h hzero

/-- No two marks stand at the beginning of the same text. -/
theorem eq_of_mark_append_eq {mark mark' ds ds' : List Char} {base base' : Nat}
    (h : (mark, base) ∈ markedBases) (h' : (mark', base') ∈ markedBases)
    (heq : mark ++ ds = mark' ++ ds') : base = base' ∧ ds = ds' := by
  have hlength : ∀ m ∈ markedBases, m.1.length = 2 := by decide
  obtain ⟨rfl, rfl⟩ := List.append_inj heq ((hlength _ h).trans (hlength _ h').symm)
  have hnodup : (markedBases.map (·.1)).Nodup := by decide
  have hpair : (mark, base) = (mark, base') := List.inj_on_of_nodup_map hnodup h h' rfl
  exact ⟨(Prod.mk.inj hpair).2, rfl⟩

/-- A mark holds a letter that is no decimal digit. -/
theorem MarkSpelled.not_digits {cs : List Char} {n m : Nat} (h : MarkSpelled cs n) :
    ¬ Digits 10 cs m := by
  obtain ⟨hmark, -⟩ := h
  intro hdigits
  rw [markedBases, List.mem_cons, List.mem_cons, List.mem_singleton] at hmark
  obtain ⟨⟨⟩⟩ | ⟨⟨⟩⟩ | ⟨⟨⟩⟩ := hmark
  · exact absurd (hdigits.isDigit 'x' (by simp)) (by decide)
  · exact absurd (hdigits.isDigit 'o' (by simp)) (by decide)
  · exact absurd (hdigits.isDigit 'b' (by simp)) (by decide)

theorem markedBelow?_eq_some_iff {limit n : Nat} {body : List Char} :
    markedBelow? limit body = some n ↔ MarkSpelled body n ∧ n < limit := by
  have hsome {m : Nat} (h : markedBelow? limit body = some m) : ∃ mark base ds,
      (mark, base) ∈ markedBases ∧ body = mark ++ ds ∧ Digits base ds m ∧ m < limit := by
    obtain ⟨⟨mark, base⟩, hmark, hread⟩ := List.exists_of_findSome?_eq_some h
    obtain ⟨ds, hds, hdigits⟩ := Option.bind_eq_some_iff.mp hread
    obtain ⟨hm, hlt⟩ := digitsBelow?_eq_some_iff.mp hdigits
    exact ⟨mark, base, ds, hmark, stripStart?_eq_some_iff.mp hds, hm, hlt⟩
  constructor
  · intro h
    obtain ⟨mark, base, ds, hmark, rfl, hdigits, hlt⟩ := hsome h
    exact ⟨.mk hmark hdigits, hlt⟩
  · rintro ⟨⟨hmark, hdigits⟩, hlt⟩
    rename_i mark ds base
    have hread : (stripStart? mark (mark ++ ds)).bind (digitsBelow? limit base) = some n := by
      rw [stripStart?_eq_some_iff.mpr rfl]
      exact digitsBelow?_eq_some_iff.mpr ⟨hdigits, hlt⟩
    have hisSome : (markedBelow? limit (mark ++ ds)).isSome = true := by
      rw [markedBelow?, List.findSome?_isSome_iff]
      exact ⟨(mark, base), hmark, Option.isSome_iff_exists.mpr ⟨n, hread⟩⟩
    -- what is found is behind the same mark
    obtain ⟨m, hm⟩ := Option.isSome_iff_exists.mp hisSome
    obtain ⟨mark', base', ds', hmark', heq, hdigits', hlt'⟩ := hsome hm
    obtain ⟨rfl, rfl⟩ := eq_of_mark_append_eq hmark hmark' heq
    rw [hm, ← digitsBelow?_eq_some_iff.mpr ⟨hdigits', hlt'⟩]
    exact digitsBelow?_eq_some_iff.mpr ⟨hdigits, hlt⟩

/-- Decimal digits begin with a zero in front of others, or they do not. -/
theorem hasLeadingZero_iff {cs : List Char} {n : Nat} (h : Digits 10 (withoutPlus cs) n) :
    hasLeadingZero cs = true ↔
      (withoutPlus cs).head? = some '0' ∧ withoutPlus cs ≠ ['0'] := by
  have hall : (withoutPlus cs).all Char.isDigit = true := List.all_eq_true.mpr h.isDigit
  have hiff (ds : List Char) (hds : ds.all Char.isDigit = true) :
      (ds.length > 1 && ds.head? == some '0' && ds.all Char.isDigit) = true ↔
        ds.head? = some '0' ∧ ds ≠ ['0'] := by
    rw [hds]
    match ds with
    | [] => simp
    | [c] => simp
    | c :: d :: ds => simp
  unfold hasLeadingZero
  split
  case h_1 rest =>
    -- a minus is no digit
    rw [withoutPlus_of_head_ne (by simp)] at h
    exact absurd (h.isDigit '-' List.mem_cons_self) (by decide)
  case h_2 rest =>
    rw [withoutPlus_plus] at hall ⊢
    exact hiff rest hall
  case h_3 hminus hplus =>
    have hne : cs.head? ≠ some '+' := by
      intro hhead
      cases cs with
      | nil => cases hhead
      | cons c rest => exact hplus rest (by rw [Option.some.inj hhead])
    rw [withoutPlus_of_head_ne hne] at hall ⊢
    exact hiff cs hall

/-- What is read as an integer without a minus, if it is below the limit. -/
theorem unsignedBelow?_eq_some_iff {limit n : Nat} {s : String} :
    unsignedBelow? limit s = some n ↔ UnsignedSpelled s.toList n ∧ n < limit := by
  rw [unsignedSpelled_iff, magnitudeSpelled_iff]
  show (if (markedBelow? limit (withoutPlus s.toList)).isSome then
      markedBelow? limit (withoutPlus s.toList)
    else if hasLeadingZero s.toList then none
    else digitsBelow? limit 10 (withoutPlus s.toList)) = some n ↔ _
  split_ifs with hmarked hzero
  · obtain ⟨m, hm⟩ := Option.isSome_iff_exists.mp hmarked
    have hmark := (markedBelow?_eq_some_iff.mp hm).1
    rw [markedBelow?_eq_some_iff, or_iff_left fun h => hmark.not_digits h.1]
  · refine iff_of_false nofun ?_
    rintro ⟨hmark | ⟨hdigits, hbare⟩, hlt⟩
    · exact hmarked (Option.isSome_iff_exists.mpr ⟨n, markedBelow?_eq_some_iff.mpr ⟨hmark, hlt⟩⟩)
    · obtain ⟨hhead, hne⟩ := (hasLeadingZero_iff hdigits).mp hzero
      exact hne (hbare hhead)
  · rw [digitsBelow?_eq_some_iff]
    constructor
    · rintro ⟨hdigits, hlt⟩
      refine ⟨.inr ⟨hdigits, fun hhead => ?_⟩, hlt⟩
      by_contra hne
      exact hzero ((hasLeadingZero_iff hdigits).mpr ⟨hhead, hne⟩)
    · rintro ⟨hmark | ⟨hdigits, -⟩, hlt⟩
      · exact absurd (Option.isSome_iff_exists.mpr
          ⟨n, markedBelow?_eq_some_iff.mpr ⟨hmark, hlt⟩⟩) hmarked
      · exact ⟨hdigits, hlt⟩

end KnowledgeImport.Yaml
