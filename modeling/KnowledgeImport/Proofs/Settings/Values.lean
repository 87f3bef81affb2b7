import KnowledgeImport.Proofs.Results
import KnowledgeImport.Proofs.Yaml.Integers
import KnowledgeImport.Proofs.Yaml.Trees
import KnowledgeImport.Settings.Decode
import Mathlib.Algebra.GroupWithZero.Nat

/-!
# Values of settings

A text is any scalar, a count a plain or tagged integer, and a list of texts a sequence of scalars or
nothing at all (`Tree.IsText`, `Tree.IsCount`, `Tree.IsTexts`).  Values are read from the parts of a
document, where any of them may stand behind an alias; what is read is what the tree says
(`Settings.readText_eq_ok_iff`, `Settings.readCount_eq_ok_iff`, `Settings.readTexts_eq_ok_iff`).
-/

namespace KnowledgeImport

open Yaml

namespace Yaml

/-! ### Types of values -/

namespace Tree

/-- The tree is a scalar with this text, whatever its tag and style. -/
def IsText (t : Tree) (s : String) : Prop := ∃ tag style, t = .scalar tag style s

/-- The tree is a scalar that spells the number, which is below `2 ^ 64`. It is plain, or a literal
that is tagged as an integer. -/
def IsCount (t : Tree) (n : Nat) : Prop :=
  ∃ tag style text, t = .scalar tag style text ∧
    (style = .plain ∨ style = .literal ∧ tag = some (coreTag "int")) ∧
    UnsignedSpelled text.toList n ∧ n < 2 ^ 64

/-- The tree is a sequence of scalars with these texts, or there are none and it is a plain scalar
of no characters. -/
def IsTexts (t : Tree) (ss : List String) : Prop :=
  (∃ ts, t = .sequence ts ∧ List.Forall₂ IsText ts ss) ∨
    ∃ tag, t = .scalar tag .plain "" ∧ ss = []

variable {t : Tree} {m n : Nat} {ss : List String}

/-- A scalar spells one number only. -/
theorem IsCount.unique (hm : t.IsCount m) (hn : t.IsCount n) : m = n := by
  obtain ⟨tag, style, text, rfl, -, hm⟩ := hm
  obtain ⟨_, _, _, htree, -, hn⟩ := hn
  obtain ⟨rfl, rfl, rfl⟩ := scalar.inj htree
  have hread := unsignedBelow?_eq_some_iff.mpr hm
  rw [unsignedBelow?_eq_some_iff.mpr hn] at hread
  exact (Option.some.inj hread).symm

theorem isTexts_sequence_iff {ts : List Tree} :
    (sequence ts).IsTexts ss ↔ List.Forall₂ IsText ts ss := by
  simp [IsTexts]

theorem isTexts_scalar_iff {tag : Option String} {style : ScalarStyle} {text : String} :
    (scalar tag style text).IsTexts ss ↔ style = .plain ∧ text = "" ∧ ss = [] := by
  simp [IsTexts, and_assoc]

theorem not_isTexts_mapping {es : List (Tree × Tree)} : ¬ (mapping es).IsTexts ss := by
  simp [IsTexts]

end Tree

/-! ### Parts -/

namespace Document

variable {d : Document} {t : Tree} {p : Part} {parts rest : List Part}

/-- An alias is followed once to the part with which its tree begins. -/
theorem Holds.target_eq (hd : d.Resolved) (h : d.Holds t (p :: parts) rest) :
    Settings.target d p = some t.head := by
  cases h with
  | scalar | sequence | mapping => rfl
  | @reference _ n _ _ h =>
    obtain ⟨q, qs, hparts, -⟩ := h.exists_cons
    have hq : ¬ q.IsAlias := hd.targets n q (by rw [hparts]; rfl)
    rw [hparts] at h
    rw [Settings.target, hparts, List.head?_cons, h.eq_head hq]

mutual

/-- A tree takes one part at least. -/
theorem Holds.length_lt {t : Tree} {parts rest : List Part} :
    d.Holds t parts rest → rest.length < parts.length
  | .scalar => Nat.lt_succ_self _
  | .sequence h => Nat.lt_succ_of_lt h.length_lt
  | .mapping h => Nat.lt_succ_of_lt h.length_lt
  | .reference _ => Nat.lt_succ_self _

theorem HoldsElements.length_lt {ts : List Tree} {parts rest : List Part} :
    d.HoldsElements ts parts rest → rest.length < parts.length
  | .nil => Nat.lt_succ_self _
  | .cons h hts => Nat.lt_trans hts.length_lt h.length_lt

theorem HoldsEntries.length_lt {es : List (Tree × Tree)} {parts rest : List Part} :
    d.HoldsEntries es parts rest → rest.length < parts.length
  | .nil => Nat.lt_succ_self _
  | .cons hkey h hes => Nat.lt_trans hes.length_lt (Nat.lt_trans h.length_lt hkey.length_lt)

end

/-- There are more parts than entries. -/
theorem HoldsEntries.length_entries_lt {es : List (Tree × Tree)} (h : d.HoldsEntries es parts rest) :
    es.length < parts.length := by
  induction es generalizing parts with
  | nil =>
    cases h
    exact Nat.succ_pos _
  | cons e es ih =>
    cases h with
    | cons hkey h hes =>
      have hentries := ih hes
      have hvalue := h.length_lt
      have hname := hkey.length_lt
      rw [List.length_cons]
      omega

end Document

end Yaml

namespace Settings

open Document

variable {d : Document} {t : Tree} {p : Part} {parts parts' rest rest' : List Part}

/-! ### Values -/

theorem refuse_ne_ok {α : Type} {place : SettingsPlace} {expected : String} {x : α} :
    refuse place expected p ≠ .ok x := by
  match p with
  | .scalar tag style text =>
    rw [refuse]
    cases scalarValue tag style text <;> nofun
  | .nothing | .alias _ | .sequenceStart | .sequenceEnd | .mappingStart | .mappingEnd => nofun

/-- A text is read from one part. -/
theorem readText_cons_eq_ok_iff (h : target d p = some t.head) {place : SettingsPlace}
    {expected s : String} :
    readText d place expected (p :: parts) = .ok (s, parts') ↔ t.IsText s ∧ parts = parts' := by
  rw [readText, h]
  cases t with
  | scalar tag style text => simp [Tree.head, Tree.IsText]
  | sequence ts => exact iff_of_false refuse_ne_ok (by simp [Tree.IsText])
  | mapping es => exact iff_of_false refuse_ne_ok (by simp [Tree.IsText])

theorem readText_eq_ok_iff (hd : d.Resolved) (h : d.Holds t parts rest) {place : SettingsPlace}
    {expected s : String} :
    readText d place expected parts = .ok (s, rest') ↔ t.IsText s ∧ rest = rest' := by
  obtain ⟨p, ps, rfl, -⟩ := h.exists_cons
  rw [readText_cons_eq_ok_iff (h.target_eq hd)]
  refine and_congr_right ?_
  rintro ⟨tag, style, rfl⟩
  rw [h.rest_eq_of_scalar]

theorem mayBeInt_iff {tag : Option String} {style : ScalarStyle} :
    mayBeInt tag style = true ↔ style = .plain ∨ style = .literal ∧ tag = some (coreTag "int") := by
  simp [mayBeInt]

theorem readCount_eq_ok_iff (hd : d.Resolved) (h : d.Holds t parts rest) {place : SettingsPlace}
    {expected : String} {n : Nat} :
    readCount d place expected parts = .ok (n, rest') ↔ t.IsCount n ∧ rest = rest' := by
  obtain ⟨p, ps, rfl, -⟩ := h.exists_cons
  rw [readCount, h.target_eq hd]
  cases t with
  | scalar tag style text =>
    obtain rfl := h.rest_eq_of_scalar
    have hcount : (Tree.scalar tag style text).IsCount n ↔
        mayBeInt tag style = true ∧ unsignedBelow? (Nat.pow 2 64) text = some n := by
      rw [mayBeInt_iff, unsignedBelow?_eq_some_iff, Tree.IsCount]
      constructor
      · rintro ⟨_, _, _, htree, hstyle, hspelled⟩
        obtain ⟨rfl, rfl, rfl⟩ := Tree.scalar.inj htree
        exact ⟨hstyle, hspelled⟩
      · rintro ⟨hstyle, hspelled⟩
        exact ⟨_, _, _, rfl, hstyle, hspelled⟩
    rw [hcount]
    dsimp only [Tree.head]
    split_ifs with hstyle
    · cases unsignedBelow? (Nat.pow 2 64) text with
      | none => exact iff_of_false refuse_ne_ok (by simp)
      | some m => simp [hstyle]
    · exact iff_of_false refuse_ne_ok fun hread => hstyle hread.1.1
  | sequence ts => exact iff_of_false refuse_ne_ok (by simp [Tree.IsCount])
  | mapping es => exact iff_of_false refuse_ne_ok (by simp [Tree.IsCount])

/-- Elements are read one part after the other. -/
theorem readElements_eq_ok_iff (hd : d.Resolved) {ts : List Tree}
    (h : d.HoldsElements ts parts rest) {name : String} {index : Nat} {ss : List String} :
    readElements d name index parts = .ok (ss, rest') ↔
      List.Forall₂ Tree.IsText ts ss ∧ rest = rest' := by
  induction ts generalizing parts index ss with
  | nil =>
    cases h
    simp [readElements, eq_comm]
  | cons t ts ih =>
    cases h with
    | cons h hts =>
      obtain ⟨p, ps, rfl, hend, -⟩ := h.exists_cons
      rw [readElements]
      swap
      · exact hend
      simp only [bind_eq_ok_iff, Prod.exists, readText_cons_eq_ok_iff (h.target_eq hd),
        pure_eq_ok_iff, Prod.mk.injEq, List.forall₂_cons_left_iff]
      -- the parts behind the first one are those behind its tree, as that is a scalar
      constructor
      · rintro ⟨s, _, ⟨⟨tag, style, rfl⟩, -⟩, ss, _, helements, rfl, rfl⟩
        obtain rfl := h.rest_eq_of_scalar
        obtain ⟨hss, hrest⟩ := (ih hts).mp helements
        exact ⟨⟨s, ss, ⟨tag, style, rfl⟩, hss, rfl⟩, hrest⟩
      · rintro ⟨⟨s, ss, ⟨tag, style, rfl⟩, hss, rfl⟩, rfl⟩
        obtain rfl := h.rest_eq_of_scalar
        exact ⟨s, [], ⟨⟨tag, style, rfl⟩, rfl⟩, ss, _, (ih hts).mpr ⟨hss, rfl⟩, rfl, rfl⟩

/-- A scalar is a list of texts only if nothing is written. -/
theorem readTexts_scalar_eq_ok_iff {name : String} {tag : Option String} {style : ScalarStyle}
    {text : String} {ss : List String} :
    readTexts.scalar name (.scalar tag style text) parts = .ok (ss, parts') ↔
      (Tree.scalar tag style text).IsTexts ss ∧ parts = parts' := by
  cases style with
  | plain =>
    rw [readTexts.scalar, Tree.isTexts_scalar_iff, and_iff_right rfl]
    split_ifs with hempty
    · have htext : text = "" := by simpa using hempty
      rw [Except.ok.injEq, Prod.mk.injEq, and_iff_right htext, eq_comm]
    · refine iff_of_false refuse_ne_ok ?_
      rintro ⟨⟨rfl, -⟩, -⟩
      exact hempty rfl
  | literal | other =>
    rw [readTexts.scalar, Tree.isTexts_scalar_iff]
    · exact iff_of_false refuse_ne_ok (by simp)
    · nofun

theorem readTexts_eq_ok_iff (hd : d.Resolved) (h : d.Holds t parts rest) {name : String}
    {ss : List String} :
    readTexts d name parts = .ok (ss, rest') ↔ t.IsTexts ss ∧ rest = rest' := by
  cases h with
  | scalar => exact readTexts_scalar_eq_ok_iff
  | mapping h =>
    rw [readTexts, readTexts.scalar]
    · exact iff_of_false refuse_ne_ok fun htexts => Tree.not_isTexts_mapping htexts.1
    all_goals nofun
  | sequence h => rw [readTexts, readElements_eq_ok_iff hd h, Tree.isTexts_sequence_iff]
  | @reference _ n _ _ h =>
    -- the target is no alias, so it begins with the part of its tree
    obtain ⟨q, qs, hparts, -⟩ := h.exists_cons
    have hq : ¬ q.IsAlias := hd.targets n q (by rw [hparts]; rfl)
    rw [readTexts]
    rw [hparts] at h ⊢
    cases h with
    | scalar => exact readTexts_scalar_eq_ok_iff
    | sequence h =>
      -- what stands behind the elements is dropped for what stands behind the alias
      rw [Tree.isTexts_sequence_iff]
      simp only [bind_eq_ok_iff, Prod.exists, readElements_eq_ok_iff hd h, pure_eq_ok_iff,
        Prod.mk.injEq]
      constructor
      · rintro ⟨ss, _, ⟨hss, -⟩, rfl, hrest⟩
        exact ⟨hss, hrest⟩
      · rintro ⟨hss, hrest⟩
        exact ⟨ss, _, ⟨hss, rfl⟩, rfl, hrest⟩
    | mapping h =>
      dsimp only
      rw [readTexts.scalar]
      · exact iff_of_false refuse_ne_ok fun htexts => Tree.not_isTexts_mapping htexts.1
      · nofun
    | reference => exact absurd trivial hq

end Settings

end KnowledgeImport
